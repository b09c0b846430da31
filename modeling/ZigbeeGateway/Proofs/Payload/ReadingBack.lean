-- Whatever is written reads back. A type that passes its check can be read without doubt: a
-- repetition is the last thing in a message, and its items all take bytes or all take none.
import ZigbeeGateway.Proofs.Payload.Checks
import ZigbeeGateway.Proofs.Payload.Leaves
import ZigbeeGateway.Proofs.Payload.NoBytes
import ZigbeeGateway.Proofs.Payload.Records
namespace ZigbeeGateway

open LittleEndian

/-- All that the writer gives is the spelling of a value. -/
def ReadsBack (r : Reader Value) (w : Value → Writer) (toEnd : Prop) : Prop :=
  ∀ v bs, (w v).Writes bs → ∃ v', Spells r w toEnd v' bs

variable {rc wc : Option Cluster}

/-! ## Datatypes -/

theorem readsBack_flat (h : rc = none ∨ rc = wc) (t : Datatype) :
    ReadsBack (t.readFlat rc) (t.writeFlat wc) False := by
  intro v bs hw
  rcases hlayout : t.layout? with _ | f
  · exact (agree_flat h hlayout).gives v bs hw
  · obtain ⟨hf, hread, hwrite⟩ := layout?_eq_some hlayout
    rw [hwrite] at hw ⊢
    rw [hread]
    exact hf.gives t hw

theorem readsBack_tagged {read : Datatype → Reader Value} {write : Datatype → Value → Writer}
    (hadd : ∀ t v, (write t v).Additive) (hnone : (write .noData .null).Writes [])
    (h : ∀ t, ReadsBack (read t) (write t) False) :
    ReadsBack (readTagged read) (writeTagged write) False := by
  intro v bs hw
  rcases written_tagged hadd hw with ⟨-, rfl⟩ | ⟨t, rest, -, -, rfl, hvalue⟩
  · obtain ⟨v', hv'⟩ := h .noData .null [] hnone
    exact ⟨_, hv'.tagged⟩
  · obtain ⟨v', hv'⟩ := h t _ rest hvalue
    exact ⟨_, hv'.tagged⟩

theorem readsBack_each {r : Reader Value} {w : Value → Writer} {toEnd : Prop}
    (h : ReadsBack r w toEnd) {items : List Value} {bss : List Bytes}
    (hw : List.Forall₂ (fun v bs => (w v).Writes bs) items bss) :
    ∃ vs, vs.length = items.length ∧ List.Forall₂ (Spells r w toEnd) vs bss := by
  induction hw with
  | nil => exact ⟨[], rfl, .nil⟩
  | cons hv _ ih =>
    obtain ⟨v', hv'⟩ := h _ _ hv
    obtain ⟨vs, hlen, hvs⟩ := ih
    exact ⟨v' :: vs, congrArg (· + 1) hlen, .cons hv' hvs⟩

theorem readsBack_items {r : Reader Value} {w : Value → Writer} (hadd : ∀ v, (w v).Additive)
    (h : ReadsBack r w False) (tooMany : WriteError) (mismatch : Value → WriteError) :
    ReadsBack (readItems r) (fun v => writeItems w tooMany (mismatch v) v) False := by
  intro v bs hw
  rcases written_items hadd hw with ⟨-, rfl⟩ | ⟨items, bss, rfl, hfew, rfl, hbss⟩
  · exact ⟨_, Spells.noItems r w tooMany mismatch⟩
  · obtain ⟨vs, hlen, hvs⟩ := readsBack_each h hbss
    rw [← hlen] at hfew ⊢
    exact ⟨_, Spells.items tooMany mismatch hvs hfew⟩

theorem writes_noData (cluster : Option Cluster) (room : Nat) :
    (Datatype.write cluster room .noData .null).Writes [] := by
  cases room <;> exact Writer.writes_pure

theorem readsBack_datatype (h : rc = none ∨ rc = wc) (room : Nat) (t : Datatype) :
    ReadsBack (t.read rc room) (t.write wc room) False := by
  induction room generalizing t with
  | zero =>
    cases t with
    | sequence kind => exact fun v bs hw => absurd hw Writer.not_writes_throw
    | struct => exact fun v bs hw => absurd hw Writer.not_writes_throw
    | _ => exact readsBack_flat h _
  | succ room ih =>
    cases t with
    | sequence kind =>
      intro v bs hw
      obtain ⟨element, rest, -, rfl, hitems⟩ := written_sequence hw
      obtain ⟨v', hv'⟩ := readsBack_items (additive_datatype wc room element) (ih element)
        (.tooManyElements (.sequence kind)) (.unfit (.sequence kind) "array of elements") _ rest
        hitems
      exact ⟨_, hv'.sequence⟩
    | struct =>
      exact readsBack_items (additive_writeTagged (additive_datatype wc room))
        (readsBack_tagged (additive_datatype wc room) (writes_noData wc room) ih) .tooManyMembers _
    | _ => exact readsBack_flat h _

namespace PayloadType

/-! ## Payload types -/

theorem exists_of_mem_right {α β : Type} {R : α → β → Prop} {xs : List α} {ys : List β}
    (h : List.Forall₂ R xs ys) {y : β} (hy : y ∈ ys) : ∃ x, R x y := by
  induction h with
  | nil => cases hy
  | cons hr _ ih =>
    rcases List.mem_cons.mp hy with rfl | hy
    · exact ⟨_, hr⟩
    · exact ih hy

/-- The items of a repetition all take bytes, or none does and none is read back. -/
theorem readsBack_repeated {item : PayloadType} {room : Nat} (hitem : item.hasRepeated = false)
    (h : ReadsBack (item.read rc room) (item.write wc room) False) {items : List Value}
    {bss : List Bytes}
    (hbss : List.Forall₂ (fun v bs => (item.write wc room v).Writes bs) items bss) :
    ∃ vs, SpellsItems (item.read rc room) (item.write wc room) vs bss.flatten := by
  obtain ⟨vs, -, hvs⟩ := readsBack_each h hbss
  by_cases htakes : item.takesNothing = true
  · -- items without bytes leave nothing to read, so the list comes back empty
    have hnil : bss.flatten = [] := by
      refine List.flatten_eq_nil_iff.mpr fun bs hbs => ?_
      obtain ⟨v, hv⟩ := exists_of_mem_right hvs hbs
      have hrest := read_takesNothing htakes (hv.reads_anywhere [])
      rw [List.append_nil] at hrest
      exact hrest.symm
    rw [hnil]
    exact ⟨[], .nil _ _⟩
  · -- an item that was read from no bytes would take none at all
    refine ⟨vs, .of_forall₂ hvs fun bs hbs => ?_⟩
    rintro rfl
    obtain ⟨v, hv⟩ := exists_of_mem_right hvs hbs
    exact htakes (takesNothing_of_read_nil hitem (hv.reads_anywhere []))

mutual

/-- What a type that passes its check writes is the spelling of a value. -/
theorem readsBack_write (h : rc = none ∨ rc = wc) (room : Nat) (type : PayloadType)
    (hcheck : type.check = .ok ()) :
    ReadsBack (type.read rc room) (type.write wc room) (type.hasRepeated = true) := by
  intro v bs hw
  match room, type with
  | room, variant =>
    obtain ⟨v', hv'⟩ := readsBack_tagged (additive_datatype wc room) (writes_noData wc room)
      (readsBack_datatype h room) v bs hw
    exact ⟨v', hv'.anywhere _⟩
  | room, scalar t =>
    obtain ⟨v', hv'⟩ := readsBack_datatype h room t v bs hw
    exact ⟨v', hv'.anywhere _⟩
  | 0, object properties => exact absurd hw Writer.not_writes_throw
  | room + 1, object properties =>
    obtain ⟨entries, hentries⟩ :=
      readsBack_properties h room [] properties hcheck v (written_object hw)
    exact ⟨_, hentries.object (names_of_check hcheck).1⟩
  | 0, repeated item => exact absurd hw Writer.not_writes_throw
  | room + 1, repeated item =>
    obtain ⟨hitem, hcheck⟩ := hasRepeated_repeated_of_check hcheck
    have hback := readsBack_write h room item hcheck
    rw [hitem] at hback
    obtain ⟨items, bss, -, rfl, hbss⟩ := written_repeated hw
    obtain ⟨vs, hvs⟩ := readsBack_repeated hitem
      (fun v bs hv => (hback v bs hv).imp fun _ hv' => hv'.mono Bool.false_ne_true) hbss
    exact ⟨_, hvs.repeated.mono fun _ => rfl⟩
  | room, errorOr inner =>
    obtain ⟨status, rest, -, rfl, hrest⟩ := written_errorOr hw
    rcases hrest with ⟨hzero, rfl⟩ | ⟨rfl, room, rfl, hinner⟩
    · exact ⟨_, spells_error hzero⟩
    · obtain ⟨v', hv'⟩ := readsBack_write h room inner hcheck _ rest hinner
      exact ⟨_, spells_success hv'⟩

theorem readsBack_properties (h : rc = none ∨ rc = wc) (room : Nat) (before : List String)
    (properties : Properties) (hcheck : checkProperties before properties = .ok ()) (v : Value)
    {bs : Bytes} (hw : (writeProperties wc room v properties).Writes bs) :
    ∃ entries, SpellsProperties rc wc room (anyRepeated properties = true) properties entries bs := by
  match properties with
  | [] =>
    rw [hw.unique Writer.writes_pure]
    exact ⟨[], .nil⟩
  | (name, type) :: rest =>
    obtain ⟨htype, hrest, hlast⟩ := checkProperties_cons hcheck
    obtain ⟨bs₁, bs₂, rfl, hfirst, htail⟩ := written_properties hw
    obtain ⟨v', hv'⟩ := readsBack_write h room type htype _ bs₁ hfirst
    obtain ⟨entries, hentries⟩ := readsBack_properties h room (name :: before) rest hrest v htail
    refine ⟨(name, v') :: entries, .cons hv' (hentries.mono fun hany => ?_) fun hrepeated => ?_⟩
    · rw [anyRepeated, hany, Bool.or_true]
    · obtain rfl := hlast hrepeated
      exact ⟨htail.unique Writer.writes_pure, by rw [anyRepeated, hrepeated, Bool.true_or]⟩

end

/-! ## The law -/

/-- Whatever is written reads back. A type that passes its check reads each message that it has
written, all of it, as a value that is written as the same message again. -/
theorem whatever_is_written_reads_back (cluster : Option Cluster) (type : PayloadType)
    (hcheck : type.check = .ok ()) (v : Value) (b : Bytes)
    (h : type.encode cluster v = .ok b) :
    ∃ v', type.decodeAll cluster b = .ok v' ∧ type.encode cluster v' = .ok b := by
  obtain ⟨v', hv'⟩ := readsBack_write (Or.inr rfl) maxNesting type hcheck v b (encode_eq_ok.mp h)
  have hdecode := hv'.reads [] fun _ => rfl
  rw [List.append_nil] at hdecode
  exact ⟨v', decodeAll_run hdecode, encode_eq_ok.mpr hv'.writes⟩

/-- Octets given as a text, a level that is missing, and items without bytes, of which none come
back. -/
theorem an_odd_spelling_reads_back :
    let type := object [("name", scalar (.octets .oneByte)), ("level", scalar (.unsigned 0)),
      ("marks", repeated (scalar .noData))]
    let v := Value.ofFields [("name", .text "ab"), ("marks", .list [.null, .null])]
    let b : Bytes := [0x02, 0x61, 0x62, 0xff]
    type.check = .ok () ∧ type.encode none v = .ok b ∧
      ∃ v', type.decodeAll none b = .ok v' ∧ type.encode none v' = .ok b := by
  intro type v b
  have hcheck : type.check = .ok () := by rfl
  have hwrite : type.encode none v = .ok b := by rfl
  exact ⟨hcheck, hwrite, whatever_is_written_reads_back none type hcheck v b hwrite⟩

end PayloadType

end ZigbeeGateway
