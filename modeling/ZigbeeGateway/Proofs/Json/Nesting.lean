-- How deep values stand inside each other, which JSON text limits.
import ZigbeeGateway.Value
namespace ZigbeeGateway.Value

mutual

/-- How deep lists and records stand inside each other. -/
def nesting : Value → Nat
  | list items => itemNesting items + 1
  | record fields => fieldNesting fields + 1
  | _ => 0

def itemNesting : List Value → Nat
  | [] => 0
  | v :: vs => max v.nesting (itemNesting vs)

def fieldNesting : List (String × Value) → Nat
  | [] => 0
  | (_, v) :: fields => max v.nesting (fieldNesting fields)

end

theorem itemNesting_le {vs : List Value} {n : Nat} (h : ∀ v ∈ vs, v.nesting ≤ n) :
    itemNesting vs ≤ n := by
  induction vs with
  | nil => exact Nat.zero_le n
  | cons v vs ih =>
    rw [List.forall_mem_cons] at h
    rw [itemNesting, Nat.max_le]
    exact ⟨h.1, ih h.2⟩

theorem fieldNesting_le {fields : List (String × Value)} {n : Nat}
    (h : ∀ entry ∈ fields, entry.2.nesting ≤ n) : fieldNesting fields ≤ n := by
  induction fields with
  | nil => exact Nat.zero_le n
  | cons entry fields ih =>
    rw [List.forall_mem_cons] at h
    rw [fieldNesting, Nat.max_le]
    exact ⟨h.1, ih h.2⟩

theorem nesting_list_le {vs : List Value} {n : Nat} (h : ∀ v ∈ vs, v.nesting ≤ n) :
    (list vs).nesting ≤ n + 1 := by
  rw [nesting]
  exact Nat.succ_le_succ (itemNesting_le h)

theorem nesting_record_le {fields : Fields Value} {n : Nat}
    (h : ∀ entry ∈ fields, entry.2.nesting ≤ n) : (record fields).nesting ≤ n + 1 := by
  rw [nesting]
  exact Nat.succ_le_succ (fieldNesting_le h)

theorem nesting_ofNat (n : Nat) : (ofNat n).nesting = 0 := by
  unfold ofNat
  split
  · rfl
  · rfl

end ZigbeeGateway.Value
