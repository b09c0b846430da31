-- The address book over its whole life. A pair that is noted stands until a later one takes its
-- short address or its device, and both sides of the book tell just the pairs that stand.
import Mathlib.Data.List.Induction
import Mathlib.Tactic.Tauto
import ZigbeeGateway.Gateway.AddressBook
namespace ZigbeeGateway.AddressBook

variable {b : AddressBook} {pairs : List (UInt16 × UInt64)}
  {short other : UInt16} {address device : UInt64}

/-! ## Pairs that stand -/

/-- A pair was noted, and none that was noted after it has its short address or its device. -/
def Stands (pairs : List (UInt16 × UInt64)) (short : UInt16) (address : UInt64) : Prop :=
  ∃ before later, pairs = before ++ (short, address) :: later ∧
    ∀ p ∈ later, p.1 ≠ short ∧ p.2 ≠ address

theorem not_stands_nil : ¬ Stands [] short address := by
  rintro ⟨before, later, hsplit, -⟩
  simp at hsplit

/-- The pair noted last stands, and of the others those that share nothing with it. -/
theorem stands_concat :
    Stands (pairs ++ [(short, address)]) other device ↔
      (other = short ∧ device = address) ∨
        (Stands pairs other device ∧ other ≠ short ∧ device ≠ address) := by
  constructor
  · rintro ⟨before, later, hsplit, hlater⟩
    rcases List.eq_nil_or_concat later with rfl | ⟨rest, p, rfl⟩
    · obtain ⟨-, hlast⟩ := List.append_inj' hsplit rfl
      obtain ⟨rfl, rfl⟩ := Prod.mk.inj (List.singleton_inj.mp hlast)
      exact .inl ⟨rfl, rfl⟩
    · rw [List.concat_eq_append, ← List.cons_append, ← List.append_assoc] at hsplit
      obtain ⟨hpairs, hlast⟩ := List.append_inj' hsplit rfl
      obtain rfl := List.singleton_inj.mp hlast
      have hnew := hlater (short, address) (by simp)
      refine .inr ⟨⟨before, rest, hpairs, fun p hp => hlater p (by simp [hp])⟩, ?_, ?_⟩
      · exact hnew.1.symm
      · exact hnew.2.symm
  · rintro (⟨rfl, rfl⟩ | ⟨⟨before, later, rfl, hlater⟩, hshort, haddress⟩)
    · exact ⟨pairs, [], rfl, by simp⟩
    · refine ⟨before, later ++ [(short, address)], by simp, ?_⟩
      intro p hp
      rcases List.mem_append.mp hp with hp | hp
      · exact hlater p hp
      · obtain rfl := List.mem_singleton.mp hp
        exact ⟨hshort.symm, haddress.symm⟩

/-! ## What a book tells -/

/-- Both sides of a book tell the pairs that stand, and no others. -/
structure Tells (b : AddressBook) (pairs : List (UInt16 × UInt64)) : Prop where
  address?_iff : ∀ short address, b.address? short = some address ↔ Stands pairs short address
  short?_iff : ∀ short address, b.short? address = some short ↔ Stands pairs short address

theorem tells_empty : Tells empty [] where
  address?_iff _ _ := by simp [address?, empty, not_stands_nil]
  short?_iff _ _ := by simp [short?, empty, not_stands_nil]

theorem Tells.short?_iff_address? (h : Tells b pairs) (short : UInt16) (address : UInt64) :
    b.short? address = some short ↔ b.address? short = some address :=
  (h.short?_iff short address).trans (h.address?_iff short address).symm

/-- One of two sides that tell the same, after a pair was put in the places of those that share
something with it. -/
theorem displaced_eq_some {α β : Type} [DecidableEq α] [DecidableEq β] {side : α → Option β}
    {back : β → Option α} (hback : ∀ x y, back y = some x ↔ side x = some y) (x x₀ : α) (y y₀ : β) :
    (if x = x₀ then some y₀ else if back y₀ = some x then none else side x) = some y ↔
      (x = x₀ ∧ y = y₀) ∨ (side x = some y ∧ x ≠ x₀ ∧ y ≠ y₀) := by
  by_cases hx : x = x₀
  · simp [hx, eq_comm]
  · rw [if_neg hx]
    by_cases hold : back y₀ = some x
    · have hside := (hback x y₀).mp hold
      rw [if_pos hold, hside]
      constructor
      · intro h
        cases h
      · rintro (⟨h, -⟩ | ⟨h, -, hne⟩)
        · exact absurd h hx
        · exact absurd (Option.some.inj h).symm hne
    · rw [if_neg hold]
      constructor
      · intro h
        refine .inr ⟨h, hx, ?_⟩
        rintro rfl
        exact hold ((hback x y).mpr h)
      · rintro (⟨h, -⟩ | ⟨h, -⟩)
        · exact absurd h hx
        · exact h

/-- One more pair takes the places of the old pair of its short address and of the old pair of its
device, which may be two. -/
theorem Tells.insert (h : Tells b pairs) (short : UInt16) (address : UInt64) :
    Tells (b.insert short address) (pairs ++ [(short, address)]) where
  address?_iff other device := by
    rw [address?_insert, stands_concat, ← h.address?_iff]
    exact displaced_eq_some h.short?_iff_address? other short device address
  short?_iff other device := by
    have hback := fun device other => (h.short?_iff_address? other device).symm
    rw [short?_insert, stands_concat, ← h.short?_iff, displaced_eq_some hback, and_comm,
      @and_comm (device ≠ address)]

/-- The book in which some pairs were noted, one after the other. -/
def noting (pairs : List (UInt16 × UInt64)) : AddressBook :=
  pairs.foldl (fun b p => b.insert p.1 p.2) empty

theorem noting_concat (pairs : List (UInt16 × UInt64)) (p : UInt16 × UInt64) :
    noting (pairs ++ [p]) = (noting pairs).insert p.1 p.2 := by
  rw [noting, List.foldl_append]
  rfl

theorem tells_noting (pairs : List (UInt16 × UInt64)) : Tells (noting pairs) pairs := by
  induction pairs using List.reverseRecOn with
  | nil => exact tells_empty
  | append_singleton pairs p ih =>
    rw [noting_concat]
    exact ih.insert p.1 p.2

/-! ## The law -/

/-- After any pairs each short address has at most one device and each device at most one short
address, and both sides of the book tell the same: the pairs that stand. One more pair stands from
then on, the pairs that share its short address or its device are gone, on both sides, and all
others are left as they were. -/
theorem both_sides_tell_the_pairs_that_stand (pairs : List (UInt16 × UInt64)) :
    (∀ short address,
      (noting pairs).address? short = some address ↔ (noting pairs).short? address = some short) ∧
      (∀ short address,
        (noting pairs).address? short = some address ↔ Stands pairs short address) ∧
      ∀ short address, let b := noting pairs; let b' := b.insert short address
        b'.address? short = some address ∧ b'.short? address = some short ∧
          (∀ other device, (other, device) ≠ (short, address) →
            other = short ∨ device = address →
              b'.address? other ≠ some device ∧ b'.short? device ≠ some other) ∧
          ∀ other device, other ≠ short → device ≠ address →
            (b'.address? other = some device ↔ b.address? other = some device) ∧
              (b'.short? device = some other ↔ b.short? device = some other) := by
  have hb := tells_noting pairs
  refine ⟨fun short address => (hb.short?_iff_address? short address).symm, hb.address?_iff, ?_⟩
  intro short address b b'
  have hb' : Tells b' _ := hb.insert short address
  simp only [b, ne_eq, hb'.address?_iff, hb'.short?_iff, hb.address?_iff, hb.short?_iff,
    stands_concat]
  refine ⟨by simp, by simp, ?_, ?_⟩
  · intro other device hne hshared
    have hnot : ¬ (other = short ∧ device = address) := by simpa using hne
    tauto
  · intro other device hshort haddress
    simp [hshort, haddress]

/-- The short address of one device goes to the device of another, which leaves its own. -/
theorem one_pair_takes_the_places_of_two :
    let b := noting [(0x0001, 0xa), (0x0002, 0xb), (0x0003, 0xc)]
    let b' := b.insert 0x0001 0xb
    b'.address? 0x0001 = some 0xb ∧ b'.short? 0xb = some 0x0001 ∧
      b'.address? 0x0002 ≠ some 0xb ∧ b'.short? 0xa ≠ some 0x0001 ∧
      b'.address? 0x0003 = some 0xc ∧ b'.short? 0xc = some 0x0003 := by
  intro b b'
  have hknown : b.address? 0x0003 = some 0xc ∧ b.short? 0xc = some 0x0003 := by decide +kernel
  obtain ⟨-, -, hinsert⟩ :=
    both_sides_tell_the_pairs_that_stand [(0x0001, 0xa), (0x0002, 0xb), (0x0003, 0xc)]
  obtain ⟨haddress, hshort, hgone, hkept⟩ := hinsert 0x0001 0xb
  have hother := hkept 0x0003 0xc (by decide) (by decide)
  exact ⟨haddress, hshort, (hgone 0x0002 0xb (by decide) (.inr rfl)).1,
    (hgone 0x0001 0xa (by decide) (.inl rfl)).2, hother.1.mpr hknown.1, hother.2.mpr hknown.2⟩

end ZigbeeGateway.AddressBook
