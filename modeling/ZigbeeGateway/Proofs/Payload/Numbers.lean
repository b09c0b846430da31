-- Numbers that keep one pattern for "no value". Each kind of number has a meaning as a value and
-- a way back, and where the two fit together reading and writing agree.
import Mathlib.Tactic.Ring
import ZigbeeGateway.Proofs.Payload.Spelling
import ZigbeeGateway.Proofs.Text.Digits
namespace ZigbeeGateway

open LittleEndian

/-- All that the reader accepts and all that the writer gives is the spelling of a value. -/
structure Agree (r : Reader Value) (w : Value → Writer) : Prop where
  accepts : ∀ bs v rest, r bs = .ok (v, rest) → ∃ c, bs = c ++ rest ∧ Spells r w False v c
  gives : ∀ v bs, (w v).Writes bs → ∃ v', Spells r w False v' bs

theorem readOrNull_run {width n : Nat} (hn : n < limit width) (meaning : Nat → Value) (s : Bytes) :
    readOrNull width meaning (bytes width n ++ s) =
      .ok (if n = allOnes width then .null else meaning n, s) := by
  rw [readOrNull, Reader.bind_run (Reader.number_run hn s)]
  rfl

/-- A meaning of the numbers of `width` bytes, and the way back from it. -/
structure Inverts (width : Nat) (meaning : Nat → Value)
    (number : Value → Except WriteError Nat) : Prop where
  notNull : ∀ n, (meaning n).isNull = false
  asJson : ∀ n < limit width, (meaning n).asJson = meaning n
  back : ∀ n < limit width, number (meaning n) = .ok n
  small : ∀ v n, number v = .ok n → n < limit width

namespace Inverts

variable {width : Nat} {meaning : Nat → Value} {number : Value → Except WriteError Nat}

theorem allOnes_lt (width : Nat) : allOnes width < limit width := by
  have := limit_pos width
  rw [allOnes]
  omega

theorem spells (h : Inverts width meaning number) (t : Datatype) {n : Nat} (hn : n < limit width) :
    Spells (readOrNull width meaning) (fun v => writeOrNull t width v (number v)) False
      (if n = allOnes width then .null else meaning n) (bytes width n) := by
  refine .of_asJson ?_ (readOrNull_run hn meaning) ?_
  · split
    · rfl
    · exact h.asJson n hn
  · by_cases hones : n = allOnes width
    · rw [if_pos hones, hones]
      exact Writer.writes_number width (allOnes width)
    · rw [if_neg hones]
      exact writes_orNull (h.notNull n) (h.back n hn) hones

theorem agree (h : Inverts width meaning number) (t : Datatype) :
    Agree (readOrNull width meaning) fun v => writeOrNull t width v (number v) where
  accepts bs v rest hr := by
    obtain ⟨n, mid, hn, hv⟩ := Reader.bind_eq_ok hr
    obtain ⟨hlt, rfl⟩ := Reader.number_eq_ok hn
    cases hv
    exact ⟨bytes width n, rfl, h.spells t hlt⟩
  gives v bs hw := by
    rcases written_orNull hw with ⟨-, rfl⟩ | ⟨n, hn, -, rfl⟩
    · exact ⟨_, h.spells t (allOnes_lt width)⟩
    · exact ⟨_, h.spells t (h.small v n hn)⟩

end Inverts

theorem limit_le {width : Nat} (h : width ≤ 8) : limit width ≤ UInt64.size :=
  Nat.pow_le_pow_right (by decide) h

/-! ## Numbers with and without a sign -/

theorem isNull_ofNat (n : Nat) : (Value.ofNat n).isNull = false := by
  unfold Value.ofNat
  split <;> rfl

theorem inverts_unsigned (t : Datatype) {width : Nat} (hwidth : width ≤ 8) :
    Inverts width .ofNat (unsignedNumber t width) where
  notNull := isNull_ofNat
  asJson n hn := Value.asJson_ofNat (Nat.lt_of_lt_of_le hn (limit_le hwidth))
  back n hn := by
    simp only [unsignedNumber, Value.toNat?_ofNat (Nat.lt_of_lt_of_le hn (limit_le hwidth)),
      if_pos hn]
  small v n h := by
    unfold unsignedNumber at h
    split at h
    · split at h
      · cases h
        assumption
      · cases h
    · cases h
    · cases h

theorem inverts_signed (t : Datatype) {width : Nat} (hwidth : width ≤ 8) :
    Inverts width (signedValue width) (signedNumber t width) where
  notNull _ := rfl
  asJson _ _ := rfl
  back n hn := by
    have hsize : limit width ≤ 2 ^ 64 := limit_le hwidth
    by_cases hlow : 2 * n < limit width
    · rw [signedValue, if_pos hlow, signedNumber, Value.toInt?_ofInt (by omega) (by omega)]
      simp only
      rw [if_pos (by omega), Int.emod_eq_of_lt (by omega) (by omega), Int.toNat_natCast]
    · rw [signedValue, if_neg hlow, signedNumber, Value.toInt?_ofInt (by omega) (by omega)]
      simp only
      rw [if_pos (by omega), Int.sub_emod_right, Int.emod_eq_of_lt (by omega) (by omega),
        Int.toNat_natCast]
  small v n h := by
    have hpos := limit_pos width
    unfold signedNumber at h
    split at h
    · cases h
    · dsimp only at h
      split at h
      · cases h
        have := Int.emod_lt_of_pos ‹Int› (Int.natCast_pos.mpr hpos)
        omega
      · cases h

/-! ## Bitmaps -/

/-- The bits of a number, highest first, behind those read before them. -/
theorem foldlM_addBit_testBit (t : Datatype) (count n before : Nat) :
    ((List.range count).reverse.map fun i => Value.bool (n.testBit i)).foldlM (addBit t) before =
      .ok (before * 2 ^ count + n % 2 ^ count) := by
  induction count generalizing before with
  | zero => simp [Nat.mod_one, pure, Except.pure]
  | succ count ih =>
    rw [List.range_succ, List.reverse_append, List.reverse_singleton, List.singleton_append,
      List.map_cons, List.foldlM_cons, addBit]
    simp only [bind, Except.bind, ih, Nat.mod_pow_succ, Nat.toNat_testBit, Except.ok.injEq]
    ring

theorem foldlM_addBit_lt (t : Datatype) {bits : List Value} {before n : Nat}
    (h : bits.foldlM (addBit t) before = .ok n) : n < (before + 1) * 2 ^ bits.length := by
  induction bits generalizing before with
  | nil =>
    cases h
    simp
  | cons bit bits ih =>
    cases bit with
    | bool b =>
      refine Nat.lt_of_lt_of_le (ih h) ?_
      have hb : 2 * before + b.toNat + 1 ≤ (before + 1) * 2 := by
        have := b.toNat_le
        omega
      rw [List.length_cons, Nat.pow_succ, Nat.mul_comm (2 ^ _), ← Nat.mul_assoc]
      exact Nat.mul_le_mul_right _ hb
    | _ => cases h

theorem limit_bytes (w : Width) : limit w.bytes = 2 ^ w.bits := (Nat.pow_mul 2 8 w.bytes).symm

theorem inverts_bitmap (t : Datatype) (w : Width) :
    Inverts w.bytes (bitsValue w.bits) (bitsNumber t w.bits) where
  notNull _ := rfl
  asJson n _ := by
    rw [bitsValue, Value.asJson_list, List.map_map]
    rfl
  back n hn := by
    have hread := foldlM_addBit_testBit t w.bits n 0
    rw [Nat.zero_mul, Nat.zero_add, Nat.mod_eq_of_lt (limit_bytes w ▸ hn)] at hread
    simp only [bitsNumber, bitsValue, Value.toList?, List.length_map, List.length_reverse,
      List.length_range, if_true, hread]
  small v n h := by
    unfold bitsNumber at h
    split at h
    · cases h
    · split at h
      · rename_i hlen
        have := foldlM_addBit_lt t h
        rw [limit_bytes, ← hlen]
        omega
      · cases h

/-! ## Attributes and addresses -/

theorem attributeNumber_ofNat (cluster : Option Cluster) {id : Nat} (hid : id < UInt16.size) :
    attributeNumber cluster (.ofNat id) = .ok id := by
  have hnat : (Value.ofNat id).toNat? = some id :=
    Value.toNat?_ofNat (Nat.lt_trans hid (by decide))
  have hint : Value.ofNat id = .int (Int64.ofNat id) := if_pos (Nat.lt_trans hid (by decide))
  rw [hint] at hnat ⊢
  simp only [attributeNumber, hnat, Option.filter_some, decide_eq_true hid, if_true]

/-- Attributes may also be read without a cluster and written with one. -/
theorem inverts_attribute {rc wc : Option Cluster} (h : rc = none ∨ rc = wc) :
    Inverts 2 (attributeValue rc) (attributeNumber wc) where
  notNull id := by
    unfold attributeValue
    split
    · rfl
    · exact isNull_ofNat id
  asJson id hid := by
    unfold attributeValue
    split
    · rfl
    · exact Value.asJson_ofNat (Nat.lt_trans hid (by decide))
  back id hid := by
    unfold attributeValue
    split
    · rename_i info hfind
      rcases h with rfl | rfl
      · cases hfind
      · obtain ⟨cluster, rfl, hid⟩ := Option.bind_eq_some_iff.mp hfind
        obtain ⟨rfl, hname⟩ := Table.withName?_of_withId? hid
        have hname : cluster.attributes.withName? info.name = some info := hname
        simp only [attributeNumber, hname]
        rfl
    · exact attributeNumber_ofNat wc hid
  small v n h := by
    unfold attributeNumber at h
    split at h
    · split at h
      · cases h
      · split at h
        · cases h
          exact UInt16.toNat_lt _
        · cases h
    · split at h
      · rename_i hn
        cases h
        exact of_decide_eq_true (Option.filter_eq_some_iff.mp hn).2
      · cases h

theorem inverts_address : Inverts 8 (fun n => .text (addressText n)) addressNumber where
  notNull _ := rfl
  asJson _ _ := rfl
  back n hn := by
    have hlen : (Numeral.upperHex 16 n).length = 16 := Numeral.length_upperHex (by decide) hn
    simp only [addressNumber, addressText, String.toList_ofList, Numeral.after?_upperHex,
      Option.getD_none, hlen, Numeral.ofDigits?_upperHex, Option.filter_some, decide_true, if_true]
  small v n h := by
    unfold addressNumber at h
    split at h
    · dsimp only at h
      split at h
      · rename_i hn
        cases h
        obtain ⟨hn, hlen⟩ := Option.filter_eq_some_iff.mp hn
        exact Nat.lt_of_lt_of_eq (Numeral.ofDigits?_lt hn) (by rw [of_decide_eq_true hlen]; rfl)
      · cases h
    · split at h
      · rename_i hn
        cases h
        exact Value.toNat?_lt hn
      · cases h

end ZigbeeGateway
