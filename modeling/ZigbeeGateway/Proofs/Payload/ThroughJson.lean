-- Values that go through JSON. What a message is read as nests at most two levels for each value
-- inside a value on the wire, so its JSON text stays below the limit of the JSON reader, and what
-- the text is read as is written as the same bytes.
import ZigbeeGateway.Proofs.Payload.Publishing
import ZigbeeGateway.Proofs.Payload.Rereading
namespace ZigbeeGateway

/-- Every value that is read nests at most so deep. -/
def Reader.Shallow (r : Reader Value) (depth : Nat) : Prop := r.Yields fun v => v.nesting ≤ depth

namespace PayloadType

theorem shallow_read (cluster : Option Cluster) (room : Nat) (type : PayloadType) :
    (type.read cluster room).Shallow (2 * room + 2) :=
  Reader.Yields.mono (publishes_read cluster room type) fun _ hv => hv.nesting

/-! ## The law -/

/-- Whatever prints JSON texts and reads them, if it gives back what a value is in JSON as long as
the text nests below the limit, then what a message is read as survives it. -/
theorem survives_of_roundTrip {Text : Type} {print : Value → Text} {read : Text → Option Value}
    (hround : ∀ v : Value, v.nesting < Json.nestingLimit → read (print v) = some v.asJson)
    {cluster : Option Cluster} {type : PayloadType} (hnames : type.distinctNames = true)
    {data : Bytes} {v : Value} (h : type.decodeAll cluster data = .ok v) :
    ∃ w b, read (print v) = some w ∧ type.encode cluster w = .ok b ∧
      type.encode cluster v = .ok b := by
  have hread := decodeAll_eq_ok h
  have hnesting : v.nesting < Json.nestingLimit :=
    Nat.lt_of_le_of_lt (shallow_read cluster maxNesting type data v [] hread) (by decide)
  obtain ⟨ps, -, -, hspells⟩ := rereads_read (Or.inr rfl) maxNesting type hnames data v [] hread
  exact ⟨v.asJson, _, hround v hnesting, encode_eq_ok.mpr hspells.writesJson,
    encode_eq_ok.mpr hspells.writes⟩

/-- What a message is read as survives JSON. Its JSON text reads as a value that is written as the
same bytes as the value itself, though infinities are texts in it now. -/
theorem a_read_value_survives_json (cluster : Option Cluster) (type : PayloadType)
    (hnames : type.distinctNames = true) (data : Bytes) (v : Value)
    (h : type.decodeAll cluster data = .ok v) :
    ∃ w b, Json.read? (Json.compact v) = some w ∧ type.encode cluster w = .ok b ∧
      type.encode cluster v = .ok b :=
  survives_of_roundTrip (fun _ => Json.read?_compact) hnames h

/-- An infinity inside a struct is a text in JSON, and the text is written as the infinity. -/
theorem an_infinity_survives_json :
    let v := Value.typed "struct" (.list [.typed "single" (.float (.infinity true))])
    variant.distinctNames = true ∧
      variant.decodeAll none [0x4c, 0x01, 0x00, 0x39, 0x00, 0x00, 0x80, 0xff] = .ok v ∧
      ∃ w b, Json.read? (Json.compact v) = some w ∧ variant.encode none w = .ok b ∧
        variant.encode none v = .ok b := by
  intro v
  have hread : variant.decodeAll none [0x4c, 0x01, 0x00, 0x39, 0x00, 0x00, 0x80, 0xff] = .ok v := by
    rfl
  exact ⟨rfl, hread, a_read_value_survives_json none variant rfl _ v hread⟩

end PayloadType

end ZigbeeGateway
