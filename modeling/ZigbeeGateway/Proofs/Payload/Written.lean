-- What a writer wrote that did not fail. The laws about values that have been written start from
-- here and take no writer apart themselves.
import ZigbeeGateway.Proofs.Payload.Appending
namespace ZigbeeGateway

open LittleEndian

theorem Value.eq_null {v : Value} (h : v.isNull = true) : v = .null := by
  cases v with
  | null => rfl
  | _ => cases h

theorem Value.eq_list {v : Value} {items : List Value} (h : v.toList? = some items) :
    v = .list items := by
  cases v with
  | list _ =>
    cases h
    rfl
  | _ => cases h

section Leaves

variable {t : Datatype} {v : Value} {bs : Bytes}

/-! ## Numbers -/

/-- The number for null stands for null alone. -/
theorem written_orNull {width : Nat} {meaning : Except WriteError Nat}
    (h : (writeOrNull t width v meaning).Writes bs) :
    (v = .null ∧ bs = bytes width (allOnes width)) ∨
      ∃ n, meaning = .ok n ∧ n ≠ allOnes width ∧ bs = bytes width n := by
  unfold writeOrNull at h
  split at h
  · rename_i hnull
    exact Or.inl ⟨v.eq_null hnull, h.unique (Writer.writes_number width _)⟩
  · split at h
    · exact absurd h Writer.not_writes_throw
    · rename_i n
      split at h
      · exact absurd h Writer.not_writes_throw
      · rename_i hones
        exact Or.inr ⟨n, rfl, hones, h.unique (Writer.writes_number width n)⟩

/-- Every other number is written as it is. -/
theorem writes_orNull {width n : Nat} {meaning : Except WriteError Nat} (hnull : v.isNull = false)
    (hn : meaning = .ok n) (hones : n ≠ allOnes width) :
    (writeOrNull t width v meaning).Writes (bytes width n) := by
  simp only [writeOrNull, hnull, hn, if_neg hones, Bool.false_eq_true, if_false]
  exact Writer.writes_number width n

theorem written_float {f : FloatLayout} (h : (writeFloat t f v).Writes bs) :
    ∃ x, doubleOf? v = some x ∧ bs = bytes f.width (f.encode x) := by
  unfold writeFloat at h
  split at h
  · rename_i x hx
    exact ⟨x, hx, h.unique (Writer.writes_number _ _)⟩
  · exact absurd h Writer.not_writes_throw

/-! ## Strings, dates and truth values -/

theorem written_bytes {count : Nat} (h : (writeBytes t count v).Writes bs) :
    ∃ items, v = .list items ∧ items.length = count ∧
      List.Forall₂ (fun item b => byteOf t item = .ok b) items bs := by
  unfold writeBytes at h
  split at h
  · exact absurd h Writer.not_writes_throw
  · rename_i items hitems
    split at h
    · rename_i hcount
      exact ⟨items, v.eq_list hitems, hcount, Writer.writes_eachByte.mp h⟩
    · exact absurd h Writer.not_writes_throw

/-- The largest length stands for null alone. -/
theorem written_string {size : LengthSize} (h : (writeString t size v).Writes bs) :
    (v = .null ∧ bs = bytes size.bytes (allOnes size.bytes)) ∨
      ∃ c, v.isNull = false ∧ stringBytes t v = .ok c ∧ c.length < allOnes size.bytes ∧
        bs = bytes size.bytes c.length ++ c := by
  unfold writeString at h
  dsimp only at h
  split at h
  · rename_i hnull
    exact Or.inl ⟨v.eq_null hnull, h.unique (Writer.writes_number _ _)⟩
  · rename_i hnull
    split at h
    · exact absurd h Writer.not_writes_throw
    · rename_i c hc
      split at h
      · exact absurd h Writer.not_writes_throw
      · rename_i hshort
        refine Or.inr ⟨c, by simpa using hnull, hc, Nat.not_le.mp hshort, ?_⟩
        exact h.unique ((Writer.writes_number _ _).then (Writer.writes_bytes c))

theorem written_fields {fields : List (String × Int)} (h : (writeFields t fields v).Writes bs) :
    bs.length = fields.length := by
  unfold writeFields at h
  split at h
  · rw [h.unique (Writer.writes_bytes _), List.length_map]
  · split at h
    · exact absurd h Writer.not_writes_throw
    · exact (Writer.writes_eachByte.mp h).length_eq.symm

theorem written_bool (h : (writeBool v).Writes bs) :
    (v = .null ∧ bs = [0xff]) ∨ ∃ b, v = .bool b ∧ bs = [if b then 1 else 0] := by
  unfold writeBool at h
  split at h
  · exact Or.inl ⟨rfl, h.unique (Writer.writes_bytes _)⟩
  · rename_i b
    exact Or.inr ⟨b, rfl, h.unique (Writer.writes_bytes _)⟩
  · exact absurd h Writer.not_writes_throw

theorem written_nothing {e : WriteError}
    (h : Writer.Writes (if v.isNull then pure () else throw e) bs) : v = .null ∧ bs = [] := by
  split at h
  · rename_i hnull
    exact ⟨v.eq_null hnull, h.unique Writer.writes_pure⟩
  · exact absurd h Writer.not_writes_throw

end Leaves

/-! ## Values inside values -/

section Inside

variable {v : Value} {bs : Bytes}

theorem written_tagged {write : Datatype → Value → Writer} (hadd : ∀ t v, (write t v).Additive)
    (h : (writeTagged write v).Writes bs) :
    (v = .null ∧ bs = [Datatype.noData.tag]) ∨
      ∃ t rest, v.isNull = false ∧
        namedType "type" v .variantWithoutType .variantUnknownType = .ok t ∧
        bs = t.tag :: rest ∧ (write t (v.getOrNull "value")).Writes rest := by
  unfold writeTagged at h
  split at h
  · exact Or.inl ⟨rfl, h.unique (Writer.writes_bytes _)⟩
  · split at h
    · exact absurd h Writer.not_writes_throw
    · rename_i t ht
      obtain ⟨bs₁, rest, rfl, htag, hvalue⟩ := Writer.writes_then (additive_writeTag t) (hadd t _) h
      rw [htag.unique (Writer.writes_bytes _)]
      exact Or.inr ⟨t, rest, rfl, ht, rfl, hvalue⟩
  · exact absurd h Writer.not_writes_throw

/-- The largest count stands for null alone. -/
theorem written_items {item : Value → Writer} (hadd : ∀ v, (item v).Additive)
    {tooMany mismatch : WriteError} (h : (writeItems item tooMany mismatch v).Writes bs) :
    (v = .null ∧ bs = bytes 2 (allOnes 2)) ∨
      ∃ items bss, v = .list items ∧ items.length < allOnes 2 ∧
        bs = bytes 2 items.length ++ bss.flatten ∧
        List.Forall₂ (fun v bs => (item v).Writes bs) items bss := by
  unfold writeItems at h
  split at h
  · exact Or.inl ⟨rfl, h.unique (Writer.writes_number 2 _)⟩
  · rename_i items
    split at h
    · exact absurd h Writer.not_writes_throw
    · rename_i hfew
      obtain ⟨bs₁, bs₂, rfl, hcount, heach⟩ := Writer.writes_then (Writer.additive_number 2 _)
        (Writer.additive_each hadd items) h
      obtain ⟨bss, rfl, hbss⟩ := Writer.exists_writes_each hadd heach
      rw [hcount.unique (Writer.writes_number 2 _)]
      exact Or.inr ⟨items, bss, rfl, Nat.not_le.mp hfew, rfl, hbss⟩
  · exact absurd h Writer.not_writes_throw

theorem written_sequence {cluster : Option Cluster} {room : Nat} {kind : SequenceKind}
    (h : ((Datatype.sequence kind).write cluster (room + 1) v).Writes bs) :
    ∃ element rest, namedType "element_type" v (.noElementType (.sequence kind))
        (.unknownElementType (.sequence kind)) = .ok element ∧ bs = element.tag :: rest ∧
      (writeItems (element.write cluster room) (.tooManyElements (.sequence kind))
        (.unfit (.sequence kind) "array of elements" (v.getOrNull "elements"))
        (v.getOrNull "elements")).Writes rest := by
  rw [Datatype.write] at h
  split at h
  · exact absurd h Writer.not_writes_throw
  · rename_i element helement
    obtain ⟨bs₁, rest, rfl, htag, hitems⟩ := Writer.writes_then (additive_writeTag element)
      (additive_writeItems (additive_datatype cluster room element) _ _ _) h
    rw [htag.unique (Writer.writes_bytes _)]
    exact ⟨element, rest, helement, rfl, hitems⟩

end Inside

/-! ## Payload types -/

namespace PayloadType

variable {cluster : Option Cluster} {room : Nat} {v : Value} {bs : Bytes}

theorem written_object {properties : Properties}
    (h : ((object properties).write cluster (room + 1) v).Writes bs) :
    (writeProperties cluster room v properties).Writes bs := by
  rw [write] at h
  split at h
  · exact absurd h Writer.not_writes_throw
  · exact h

theorem written_properties {name : String} {type : PayloadType} {rest : Properties}
    (h : (writeProperties cluster room v ((name, type) :: rest)).Writes bs) :
    ∃ bs₁ bs₂, bs = bs₁ ++ bs₂ ∧ (type.write cluster room (v.getOrNull name)).Writes bs₁ ∧
      (writeProperties cluster room v rest).Writes bs₂ := by
  have hadd := additive_write cluster room type (v.getOrNull name)
  obtain ⟨bs₁, bs₂, rfl, hfirst, hrest⟩ := Writer.writes_then (hadd.inside name)
    (additive_writeProperties cluster room v rest) h
  exact ⟨bs₁, bs₂, rfl, (Writer.writes_inside hadd).mp hfirst, hrest⟩

theorem written_repeated {item : PayloadType}
    (h : ((repeated item).write cluster (room + 1) v).Writes bs) :
    ∃ items bss, v = .list items ∧ bs = bss.flatten ∧
      List.Forall₂ (fun v bs => (item.write cluster room v).Writes bs) items bss := by
  rw [write] at h
  split at h
  · exact absurd h Writer.not_writes_throw
  · rename_i items hitems
    obtain ⟨bss, rfl, hbss⟩ := Writer.exists_writes_each (additive_write cluster room item) h
    exact ⟨items, bss, v.eq_list hitems, rfl, hbss⟩

/-- An error is a status alone, and a success has room for the value behind the status. -/
theorem written_errorOr {inner : PayloadType}
    (h : ((errorOr inner).write cluster room v).Writes bs) :
    ∃ status rest, (errorOr inner).statusOf v = .ok status ∧ bs = status :: rest ∧
      (status ≠ 0 ∧ rest = [] ∨ status = 0 ∧ ∃ room', room = room' + 1 ∧
        (inner.write cluster room' (v.getOrNull "value")).Writes rest) := by
  rcases hstatus : (errorOr inner).statusOf v with e | status
  · rw [write_errorOr_of_error hstatus] at h
    exact absurd h Writer.not_writes_throw
  · rw [write_errorOr hstatus] at h
    obtain ⟨bs₁, rest, rfl, hbyte, hrest⟩ := Writer.writes_then (Writer.additive_bytes _)
      (additive_ite Writer.additive_pure (additive_writeSuccess cluster room inner v)) h
    rw [hbyte.unique (Writer.writes_bytes _)]
    refine ⟨status, rest, rfl, rfl, ?_⟩
    by_cases hzero : status ≠ 0
    · rw [if_pos hzero] at hrest
      exact Or.inl ⟨hzero, hrest.unique Writer.writes_pure⟩
    · rw [if_neg hzero] at hrest
      cases room with
      | zero => exact absurd hrest Writer.not_writes_throw
      | succ room =>
        refine Or.inr ⟨not_not.mp hzero, room, rfl, ?_⟩
        exact (Writer.writes_inside (additive_write cluster room inner _)).mp hrest

end PayloadType

end ZigbeeGateway
