-- What a cluster is good for in reading and writing: it tells attributes by their names, and
-- nothing else comes out differently.
import ZigbeeGateway.Proofs.Payload.Appending
import ZigbeeGateway.Proofs.Payload.Rereading
import ZigbeeGateway.Proofs.Payload.SideBySide
namespace ZigbeeGateway.PayloadType

variable {type : PayloadType} {bs : Bytes}

/-- A value that was read without a cluster is written as the same bytes in the light of any. -/
theorem written_alike (hnames : type.distinctNames = true) {v : Value} {rest : Bytes}
    (h : type.decode none bs = .ok (v, rest)) :
    ∃ b, ∀ wc : Option Cluster, type.encode wc v = .ok b := by
  have hrereads : ∀ wc, Rereads (type.read none maxNesting) (type.pieces none maxNesting)
      (type.write wc maxNesting) (· = []) :=
    fun wc => rereads_read (.inl rfl) maxNesting type hnames
  obtain ⟨ps, hps, -, -⟩ := hrereads none bs v rest h
  refine ⟨Piece.join (ps.map Piece.quiet), fun wc => ?_⟩
  obtain ⟨qs, hqs, -, hspells⟩ := hrereads wc bs v rest h
  -- the pieces are those of the reading, which knows no cluster
  cases hqs.symm.trans hps
  exact encode_eq_ok.mpr hspells.writes

/-- Naming attributes changes nothing else. In the light of a cluster the same messages are read as
without one, up to the same byte and with the same errors; the two values are alike but for the
attributes, which are told by their names where the cluster has them. And what was read without the
cluster is written as the same bytes with it and without it. -/
theorem naming_is_transparent (c : Cluster) (type : PayloadType) (bs : Bytes) :
    (∀ v rest, type.decode none bs = .ok (v, rest) →
      ∃ w, type.decode (some c) bs = .ok (w, rest) ∧ Alike none (some c) type v w) ∧
    (∀ w rest, type.decode (some c) bs = .ok (w, rest) →
      ∃ v, type.decode none bs = .ok (v, rest) ∧ Alike none (some c) type v w) ∧
    (∀ e, type.decode none bs = .error e ↔ type.decode (some c) bs = .error e) ∧
    (type.distinctNames = true → ∀ v rest, type.decode none bs = .ok (v, rest) →
      ∃ b, type.encode none v = .ok b ∧ type.encode (some c) v = .ok b) := by
  have hbeside : Reader.Beside True (Alike none (some c) type) (type.read none maxNesting)
      (type.read (some c) maxNesting) := beside_read (Nat.le_refl _) (fun _ => rfl) type
  have haccepts : ∀ v rest, type.decode none bs = .ok (v, rest) →
      ∃ w, type.decode (some c) bs = .ok (w, rest) ∧ Alike none (some c) type v w :=
    fun v rest h => hbeside.accepts h
  have hrefuses : ∀ e, type.decode none bs = .error e → type.decode (some c) bs = .error e :=
    fun e h => hbeside.refuses trivial h
  refine ⟨haccepts, ?_, ?_, ?_⟩
  · intro w rest h
    rcases hplain : type.decode none bs with e | ⟨v, rest'⟩
    · cases h.symm.trans (hrefuses e hplain)
    · obtain ⟨w', hw', halike⟩ := haccepts v rest' hplain
      cases h.symm.trans hw'
      exact ⟨v, rfl, halike⟩
  · refine fun e => ⟨hrefuses e, fun h => ?_⟩
    rcases hplain : type.decode none bs with e' | ⟨v, rest⟩
    · cases h.symm.trans (hrefuses e' hplain)
      rfl
    · obtain ⟨w, hw, -⟩ := haccepts v rest hplain
      cases h.symm.trans hw
  · intro hnames v rest h
    obtain ⟨b, hb⟩ := written_alike hnames h
    exact ⟨b, hb none, hb (some c)⟩

/-- A report of an attribute that the cluster has. -/
theorem the_name_of_an_attribute_is_told :
    ∃ table, Table.empty.add (⟨5, "modelIdentifier", none⟩ : AttributeInfo) = .ok table ∧
      let basic := { Cluster.bare 0 "basic" with attributes := table }
      let report := object [("id", scalar .attributeId), ("result", errorOr variant)]
      let message : Bytes := [0x05, 0x00, 0x00, 0x20, 0x2a]
      let value (id : Value) := Value.ofFields [("id", id), ("result", .ofFields
        [("status", .ofNat 0), ("value", .typed "uint8" (.ofNat 42))])]
      report.distinctNames = true ∧ report.decode none message = .ok (value (.ofNat 5), []) ∧
        report.decode (some basic) message = .ok (value (.text "modelIdentifier"), []) ∧
        Alike none (some basic) report (value (.ofNat 5)) (value (.text "modelIdentifier")) ∧
        ∃ b, report.encode none (value (.ofNat 5)) = .ok b ∧
          report.encode (some basic) (value (.ofNat 5)) = .ok b := by
  refine ⟨_, rfl, ?_⟩
  intro basic report message value
  have hread : report.decode none message = .ok (value (.ofNat 5), []) := by rfl
  have hnamed : report.decode (some basic) message = .ok (value (.text "modelIdentifier"), []) := by
    rfl
  obtain ⟨hsame, -, -, hwritten⟩ := naming_is_transparent basic report message
  obtain ⟨w, hw, halike⟩ := hsame _ _ hread
  cases hnamed.symm.trans hw
  exact ⟨rfl, hread, hnamed, halike, hwritten rfl _ _ hread⟩

end ZigbeeGateway.PayloadType
