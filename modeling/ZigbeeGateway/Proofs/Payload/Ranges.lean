-- What fits into a number. A datatype of whole numbers or of bits takes null and exactly the
-- values of its range, sends each of them as its number, and reads back what it has sent.
import Mathlib.Data.Nat.Digits.Defs
import ZigbeeGateway.Proofs.Payload.Leaves
import ZigbeeGateway.Proofs.Payload.Nulls
import ZigbeeGateway.Proofs.Values
namespace ZigbeeGateway

open LittleEndian

/-! ## The range of a datatype -/

/-- How the values of a datatype are numbered. -/
inductive Coding where
  /-- Whole numbers from zero on. -/
  | unsigned
  /-- Whole numbers on both sides of zero, in two's complement. -/
  | signed
  /-- One truth value for each bit, the highest bit first. -/
  | bitmap
deriving DecidableEq, Repr

/-- The coding of a datatype of whole numbers or of bits, and how many bytes it takes. -/
def Datatype.coding? : Datatype → Option (Coding × Nat)
  | unsigned w => some (.unsigned, w.bytes)
  | enum8 => some (.unsigned, 1)
  | enum16 | clusterId => some (.unsigned, 2)
  | utc | bacnetOid => some (.unsigned, 4)
  | signed w => some (.signed, w.bytes)
  | bitmap w => some (.bitmap, w.bytes)
  | _ => none

/-- The whole number that a value is. -/
def Value.whole? : Value → Option Int
  | int n => some n.toInt
  | uint n => some n.toNat
  | _ => none

/-- The number with these binary digits, the highest first. -/
def binary (bs : List Bool) : Nat := Nat.ofDigits 2 (bs.reverse.map Bool.toNat)

/-- A value is in the range of a coding with so many bits, and it stands for the number. The number
with all bits set is left to null. -/
inductive Coding.Holds (bits : Nat) : Coding → Value → Int → Prop
  | unsigned {v : Value} {n : Int} :
      v.whole? = some n → 0 ≤ n → n < 2 ^ bits - 1 → Holds bits .unsigned v n
  | signed {v : Value} {n : Int} :
      v.whole? = some n → -2 ^ (bits - 1) ≤ n → n < 2 ^ (bits - 1) → n ≠ -1 → Holds bits .signed v n
  | bitmap {bs : List Bool} : bs.length = bits → false ∈ bs →
      Holds bits .bitmap (.list (bs.map .bool)) (binary bs)

theorem limit_eq (width : Nat) : limit width = 2 ^ (8 * width) := (Nat.pow_mul 2 8 width).symm

theorem limit_cast (width : Nat) : (limit width : Int) = 2 ^ (8 * width) := by
  rw [limit_eq, Nat.cast_pow, Nat.cast_ofNat]

/-- A meaning of numbers and the way back to them. The values that come to a number other than
null's are those of the range, each comes to its own number, and the number means that value. -/
structure Coding.Exact (coding : Coding) (width : Nat) (meaning : Nat → Value)
    (number : Value → Except WriteError Nat) : Prop where
  range : ∀ v m, v.Normal → ((number v = .ok m ∧ m ≠ allOnes width) ↔
    ∃ n, coding.Holds (8 * width) v n ∧ m = (n % 2 ^ (8 * width)).toNat)
  keeps : ∀ v m, v.Normal → number v = .ok m → meaning m = v

/-! ## Whole numbers -/

theorem toNat?_eq_some_iff {v : Value} {m : Nat} :
    v.toNat? = some m ↔ v.whole? = some (m : Int) := by
  cases v with
  | int n =>
    simp only [Value.toNat?, Value.whole?, Option.ite_none_right_eq_some, Option.some.injEq]
    omega
  | uint n => simp [Value.toNat?, Value.whole?]
  | _ => simp [Value.toNat?, Value.whole?]

theorem unsignedNumber_eq_ok {t : Datatype} {width : Nat} {v : Value} {m : Nat} :
    unsignedNumber t width v = .ok m ↔ v.whole? = some (m : Int) ∧ m < limit width := by
  rw [← toNat?_eq_some_iff]
  unfold unsignedNumber
  rcases hnat : v.toNat? with _ | n
  · rcases v.toInt? with _ | n
    · simp
    · simp
  · by_cases hlt : n < limit width
    · simp only [if_pos hlt, Except.ok.injEq, Option.some.injEq]
      exact ⟨fun h => ⟨h, h ▸ hlt⟩, fun h => h.1⟩
    · simp only [if_neg hlt, reduceCtorEq, Option.some.injEq, false_iff, not_and]
      rintro rfl
      exact hlt

theorem ofNat_toNat? {v : Value} {m : Nat} (hv : v.Normal) (h : v.toNat? = some m) :
    Value.ofNat m = v := by
  cases v with
  | int n =>
    have hn := n.toInt_lt
    simp only [Value.toNat?, Option.ite_none_right_eq_some, Option.some.injEq] at h
    obtain ⟨hpos, rfl⟩ := h
    unfold Value.ofNat
    rw [if_pos (by omega)]
    congr 1
    rw [← Int64.toInt_inj, Int64.toInt_ofNat_of_lt (by omega)]
    omega
  | uint n =>
    have hn : Int64.maxValue.toInt < n.toNat := hv n .self
    rw [Int64.toInt_maxValue] at hn
    cases h
    unfold Value.ofNat
    rw [if_neg (by omega), UInt64.ofNat_toNat]
  | _ => cases h

theorem exact_unsigned (t : Datatype) (width : Nat) :
    Coding.unsigned.Exact width .ofNat (unsignedNumber t width) where
  range v m _ := by
    have hlimit := limit_cast width
    have hpos := limit_pos width
    rw [unsignedNumber_eq_ok, allOnes]
    constructor
    · rintro ⟨⟨hm, hlt⟩, hones⟩
      refine ⟨m, .unsigned hm (Int.natCast_nonneg m) (by omega), ?_⟩
      rw [← hlimit, Int.emod_eq_of_lt (by omega) (by omega), Int.toNat_natCast]
    · rintro ⟨n, hholds, rfl⟩
      obtain ⟨hn, hlow, hhigh⟩ := hholds
      rw [← hlimit, Int.emod_eq_of_lt hlow (by omega)]
      rw [Int.toNat_of_nonneg hlow]
      exact ⟨⟨hn, by omega⟩, by omega⟩
  keeps v m hv h := ofNat_toNat? hv (toNat?_eq_some_iff.mpr (unsignedNumber_eq_ok.mp h).1)

theorem toInt?_eq_some_iff {v : Value} {n : Int} (hv : v.Normal) (hn : n < 2 ^ 63) :
    v.toInt? = some n ↔ v.whole? = some n := by
  cases v with
  | int i => rfl
  | uint i =>
    have hi : Int64.maxValue.toInt < i.toNat := hv i .self
    rw [Int64.toInt_maxValue] at hi
    simp only [Value.toInt?, Value.whole?, reduceCtorEq, Option.some.injEq, false_iff]
    omega
  | _ => simp [Value.toInt?, Value.whole?]

theorem signedNumber_eq_ok {t : Datatype} {width : Nat} {v : Value} {m : Nat} :
    signedNumber t width v = .ok m ↔ ∃ n, v.toInt? = some n ∧
      -(limit width : Int) ≤ 2 * n ∧ 2 * n < limit width ∧ m = (n % limit width).toNat := by
  unfold signedNumber
  rcases v.toInt? with _ | n
  · simp
  · by_cases hfits : -(limit width : Int) ≤ 2 * n ∧ 2 * n < limit width
    · simp [hfits, eq_comm]
    · simp only [hfits, if_false, reduceCtorEq, Option.some.injEq, false_iff, not_exists, not_and]
      rintro n' rfl hlow hhigh
      exact absurd ⟨hlow, hhigh⟩ hfits

/-- Half of the numbers are negative. -/
theorem limit_half {width : Nat} (h : 0 < width) :
    (limit width : Int) = 2 * 2 ^ (8 * width - 1) := by
  rw [limit_cast, ← pow_succ', Nat.sub_add_cancel (by omega)]

/-- Negative numbers are counted from the top. -/
theorem emod_eq {n limit : Int} (hlow : -limit ≤ n) (hhigh : n < limit) :
    n % limit = if n < 0 then n + limit else n := by
  split
  · rw [← Int.add_emod_right, Int.emod_eq_of_lt (by omega) (by omega)]
  · exact Int.emod_eq_of_lt (by omega) hhigh

theorem exact_signed (t : Datatype) {width : Nat} (hpos : 0 < width) (hwidth : width ≤ 8) :
    Coding.signed.Exact width (signedValue width) (signedNumber t width) where
  range v m hv := by
    have hlimit := limit_cast width
    have hhalf := limit_half hpos
    have hsize : limit width ≤ 2 ^ 64 := limit_le hwidth
    have hnonneg := limit_pos width
    rw [signedNumber_eq_ok, allOnes, ← hlimit]
    constructor
    · rintro ⟨⟨n, hn, hlow, hhigh, rfl⟩, hones⟩
      rw [toInt?_eq_some_iff hv (by omega)] at hn
      refine ⟨n, .signed hn (by omega) (by omega) ?_, rfl⟩
      -- all bits are set in the number of minus one
      rintro rfl
      rw [emod_eq (by omega) (by omega)] at hones
      simp at hones
      omega
    · rintro ⟨n, hholds, rfl⟩
      obtain _ | ⟨hn, hlow, hhigh, hone⟩ := hholds
      rw [← toInt?_eq_some_iff hv (by omega)] at hn
      refine ⟨⟨n, hn, by omega, by omega, rfl⟩, ?_⟩
      rw [emod_eq (by omega) (by omega)]
      split
      · omega
      · omega
  keeps v m hv h := by
    obtain ⟨n, hn, hlow, hhigh, rfl⟩ := signedNumber_eq_ok.mp h
    have hnonneg := limit_pos width
    cases v with
    | int i =>
      cases hn
      have hback : (if 2 * (i.toInt % limit width).toNat < limit width then
          ((i.toInt % limit width).toNat : Int)
          else ((i.toInt % limit width).toNat : Int) - limit width) = i.toInt := by
        rw [emod_eq (by omega) (by omega)]
        split
        · rw [if_neg (by omega)]
          omega
        · rw [if_pos (by omega)]
          omega
      rw [signedValue, hback, Value.ofInt, Int64.ofInt_toInt]
    | _ => cases hn

/-! ## Bits -/

theorem binary_cons (b : Bool) (bs : List Bool) :
    binary (b :: bs) = b.toNat * 2 ^ bs.length + binary bs := by
  unfold binary
  rw [List.reverse_cons, List.map_append, Nat.ofDigits_append, List.length_map, List.length_reverse]
  simp [Nat.mul_comm, Nat.add_comm]

theorem binary_replicate_true (count : Nat) :
    binary (List.replicate count true) = 2 ^ count - 1 := by
  induction count with
  | zero => rfl
  | succ count ih =>
    have hpos := Nat.two_pow_pos count
    rw [List.replicate_succ, binary_cons, ih, List.length_replicate, Nat.pow_succ, Bool.toNat_true]
    omega

/-- Lists of one length have different numbers. -/
theorem binary_inj {bs cs : List Bool} (hlen : bs.length = cs.length)
    (h : binary bs = binary cs) : bs = cs := by
  have hdigit : ∀ ds : List Bool, ∀ d ∈ ds.reverse.map Bool.toNat, d < 2 := by
    intro ds d hd
    obtain ⟨b, -, rfl⟩ := List.mem_map.mp hd
    exact b.toNat_lt
  have hdigits := Nat.ofDigits_inj_of_len_eq (by decide) (by simp [hlen]) (hdigit bs) (hdigit cs) h
  exact List.reverse_injective (List.map_injective_iff.mpr (fun a b hab => by
    cases a <;> cases b <;> simp_all) hdigits)

theorem binary_lt (bs : List Bool) : binary bs < 2 ^ bs.length := by
  induction bs with
  | nil => simp [binary]
  | cons b bs ih =>
    rw [binary_cons, List.length_cons, Nat.pow_succ]
    cases b with
    | false => simp; omega
    | true => simp; omega

/-- All bits are set in the largest number alone. -/
theorem binary_ne_iff {bs : List Bool} : binary bs ≠ 2 ^ bs.length - 1 ↔ false ∈ bs := by
  rw [← binary_replicate_true, not_iff_comm]
  constructor
  · intro h
    have hall : bs = List.replicate bs.length true := by
      refine List.eq_replicate_iff.mpr ⟨rfl, fun b hb => ?_⟩
      rw [← Bool.not_eq_false]
      rintro rfl
      exact h hb
    rw [← hall]
  · intro h hfalse
    have hall := binary_inj (by simp) h
    rw [hall] at hfalse
    cases List.eq_of_mem_replicate hfalse

theorem addBit_eq_ok {t : Datatype} {before m : Nat} {v : Value} :
    addBit t before v = .ok m ↔ ∃ b, v = .bool b ∧ m = 2 * before + b.toNat := by
  cases v with
  | bool b => simp [addBit, eq_comm]
  | _ => simp [addBit]

theorem foldlM_addBit_eq_ok {t : Datatype} {items : List Value} {before m : Nat} :
    items.foldlM (addBit t) before = .ok m ↔
      ∃ bs : List Bool, items = bs.map .bool ∧ m = before * 2 ^ bs.length + binary bs := by
  induction items generalizing before with
  | nil => simp [pure, Except.pure, binary, eq_comm]
  | cons item items ih =>
    have hshift : ∀ (b : Bool) (bs : List Bool),
        (2 * before + b.toNat) * 2 ^ bs.length + binary bs =
          before * 2 ^ (b :: bs).length + binary (b :: bs) := by
      intro b bs
      rw [binary_cons, List.length_cons]
      ring
    rw [List.foldlM_cons]
    constructor
    · intro h
      rcases hbit : addBit t before item with e | n
      · rw [hbit] at h
        cases h
      · rw [hbit] at h
        obtain ⟨b, rfl, rfl⟩ := addBit_eq_ok.mp hbit
        obtain ⟨bs, rfl, rfl⟩ := ih.mp h
        exact ⟨b :: bs, rfl, hshift b bs⟩
    · rintro ⟨bs, hitems, rfl⟩
      obtain ⟨b, bs, rfl, rfl, rfl⟩ := List.map_eq_cons_iff.mp hitems.symm
      exact ih.mpr ⟨bs, rfl, (hshift b bs).symm⟩

theorem bitsNumber_eq_ok {t : Datatype} {count : Nat} {v : Value} {m : Nat} :
    bitsNumber t count v = .ok m ↔
      ∃ bs : List Bool, bs.length = count ∧ v = .list (bs.map .bool) ∧ m = binary bs := by
  cases v with
  | list items =>
    simp only [bitsNumber, Value.toList?, Value.list.injEq]
    by_cases hlen : items.length = count
    · simp only [if_pos hlen, foldlM_addBit_eq_ok, Nat.zero_mul, Nat.zero_add]
      constructor
      · rintro ⟨bs, rfl, rfl⟩
        exact ⟨bs, by simpa using hlen, rfl, rfl⟩
      · rintro ⟨bs, -, rfl, rfl⟩
        exact ⟨bs, rfl, rfl⟩
    · simp only [if_neg hlen, reduceCtorEq, false_iff]
      rintro ⟨bs, rfl, rfl, rfl⟩
      exact hlen (List.length_map _)
  | _ => simp [bitsNumber, Value.toList?]

theorem binary_lt_limit {bs : List Bool} {w : Width} (h : bs.length = w.bits) :
    binary bs < limit w.bytes := by
  rw [limit_bytes, ← h]
  exact binary_lt bs

theorem exact_bitmap (t : Datatype) (w : Width) :
    Coding.bitmap.Exact w.bytes (bitsValue w.bits) (bitsNumber t w.bits) where
  range v m _ := by
    have hnumber : ∀ bs : List Bool, bs.length = w.bits →
        ((binary bs : Int) % 2 ^ (8 * w.bytes)).toNat = binary bs := by
      intro bs hbs
      have hlt := binary_lt_limit hbs
      rw [← limit_cast, Int.emod_eq_of_lt (by omega) (by omega), Int.toNat_natCast]
    rw [bitsNumber_eq_ok, allOnes, limit_bytes]
    constructor
    · rintro ⟨⟨bs, hbs, rfl, rfl⟩, hones⟩
      rw [← hbs] at hones
      exact ⟨_, .bitmap hbs (binary_ne_iff.mp hones), (hnumber bs hbs).symm⟩
    · rintro ⟨n, hholds, rfl⟩
      cases hholds with
      | @bitmap bs hbs hfalse =>
        rw [hnumber bs hbs]
        refine ⟨⟨bs, hbs, rfl, rfl⟩, ?_⟩
        have hones := binary_ne_iff.mpr hfalse
        rwa [hbs] at hones
  keeps v m _ h := by
    obtain ⟨bs, hbs, rfl, rfl⟩ := bitsNumber_eq_ok.mp h
    -- the value that the number means comes to the same number, so it has the same bits
    have hback := (inverts_bitmap t w).back (binary bs) (binary_lt_limit hbs)
    obtain ⟨cs, hcs, hvalue, hsame⟩ := bitsNumber_eq_ok.mp hback
    rw [hvalue, binary_inj (hbs.trans hcs.symm) hsame]

/-! ## All of them -/

section Datatypes

variable {t : Datatype} {coding : Coding} {width : Nat}

/-- Such a datatype has a meaning of its numbers and the way back, and the two are exact. -/
theorem coding?_eq_some (cluster : Option Cluster) (h : t.coding? = some (coding, width)) :
    ∃ meaning number, Inverts width meaning number ∧ coding.Exact width meaning number ∧
      t.readFlat cluster = readOrNull width meaning ∧
      t.writeFlat cluster = fun v => writeOrNull t width v (number v) := by
  cases t with
  | bitmap w =>
    cases h
    exact ⟨_, _, inverts_bitmap _ w, exact_bitmap _ w, rfl, rfl⟩
  | signed w =>
    cases h
    exact ⟨_, _, inverts_signed _ w.isLt, exact_signed _ (Nat.succ_pos _) w.isLt, rfl, rfl⟩
  | unsigned w =>
    cases h
    exact ⟨_, _, inverts_unsigned _ w.isLt, exact_unsigned _ _, rfl, rfl⟩
  | enum8 | enum16 | clusterId | utc | bacnetOid =>
    cases h
    exact ⟨_, _, inverts_unsigned _ (by decide), exact_unsigned _ _, rfl, rfl⟩
  | _ => cases h

theorem isFlat_of_coding (h : t.coding? = some (coding, width)) : t.isFlat = true := by
  cases t with
  | sequence _ | struct => cases h
  | _ => rfl

theorem write_flat (cluster : Option Cluster) (room : Nat) (h : t.isFlat = true) :
    t.write cluster room = t.writeFlat cluster := by
  cases t with
  | sequence _ | struct => cases h
  | _ => cases room <;> rfl

end Datatypes

theorem Coding.Holds.isNull {coding : Coding} {bits : Nat} {v : Value} {n : Int}
    (h : coding.Holds bits v n) : v.isNull = false := by
  cases v with
  | null => cases h <;> contradiction
  | _ => rfl

theorem writes_nullNumber (t : Datatype) (width : Nat) (meaning : Except WriteError Nat) :
    (writeOrNull t width .null meaning).Writes (List.replicate width 0xff) := by
  rw [← bytes_allOnes]
  exact Writer.writes_number width (allOnes width)

/-! ## The law -/

/-- What fits is kept exactly. A datatype of whole numbers or of bits takes null, which is sent with
all bits set, and exactly the values of its range, which are sent as their numbers, the lowest byte
first; and what is sent is read back as the very value. -/
theorem what_fits_is_kept_exactly (cluster : Option Cluster) (room : Nat) {t : Datatype}
    {coding : Coding} {width : Nat} (ht : t.coding? = some (coding, width)) {v : Value}
    (hv : v.Normal) :
    (∀ b, (t.write cluster room v).toBytes = .ok b ↔
      (v = .null ∧ b = List.replicate width 0xff) ∨
        ∃ n, coding.Holds (8 * width) v n ∧ b = bytes width (n % 2 ^ (8 * width)).toNat) ∧
    ∀ b, (t.write cluster room v).toBytes = .ok b →
      ∀ rest, t.read cluster room (b ++ rest) = .ok (v, rest) := by
  obtain ⟨meaning, number, hinverts, hexact, hread, hwrite⟩ := coding?_eq_some cluster ht
  have hflat := isFlat_of_coding ht
  have hbytes : ∀ b, (t.write cluster room v).toBytes = .ok b ↔
      (writeOrNull t width v (number v)).Writes b := by
    intro b
    rw [Writer.toBytes_eq_ok (additive_datatype cluster room t v), write_flat cluster room hflat,
      hwrite]
  refine ⟨fun b => ?_, fun b hb rest => ?_⟩
  · rw [hbytes]
    constructor
    · intro hw
      rcases written_orNull hw with ⟨rfl, rfl⟩ | ⟨m, hm, hones, rfl⟩
      · exact Or.inl ⟨rfl, bytes_allOnes width⟩
      · obtain ⟨n, hn, rfl⟩ := (hexact.range v m hv).mp ⟨hm, hones⟩
        exact Or.inr ⟨n, hn, rfl⟩
    · rintro (⟨rfl, rfl⟩ | ⟨n, hn, rfl⟩)
      · exact writes_nullNumber t width _
      · obtain ⟨hm, hones⟩ := (hexact.range v _ hv).mpr ⟨n, hn, rfl⟩
        exact writes_orNull hn.isNull hm hones
  · rw [Datatype.read_flat cluster room hflat, hread]
    rcases written_orNull ((hbytes b).mp hb) with ⟨rfl, rfl⟩ | ⟨m, hm, hones, rfl⟩
    · rw [readOrNull_run (Inverts.allOnes_lt width), if_pos rfl]
    · rw [readOrNull_run (hinverts.small v m hm), if_neg hones, hexact.keeps v m hv hm]

/-- The largest number of eight bytes that is not null's, which no `int` holds. -/
theorem the_largest_number_is_kept :
    let v : Value := .uint 0xfffffffffffffffe
    let b : Bytes := [0xfe, 0xff, 0xff, 0xff, 0xff, 0xff, 0xff, 0xff]
    Datatype.coding? (.unsigned 7) = some (.unsigned, 8) ∧ v.Normal ∧
      (Datatype.write none maxNesting (.unsigned 7) v).toBytes = .ok b ∧
      Datatype.read none maxNesting (.unsigned 7) b = .ok (v, []) := by
  intro v b
  have hnormal : Value.Normal (.uint 0xfffffffffffffffe) := by
    intro n hn
    cases hn
    decide
  obtain ⟨hwrites, hreads⟩ :=
    what_fits_is_kept_exactly none maxNesting (t := .unsigned 7) rfl hnormal
  have hrange : Coding.unsigned.Holds 64 v 0xfffffffffffffffe :=
    .unsigned rfl (by decide) (by decide)
  have hb := (hwrites b).mpr (Or.inr ⟨_, hrange, by decide⟩)
  exact ⟨rfl, hnormal, hb, hreads b hb []⟩

end ZigbeeGateway
