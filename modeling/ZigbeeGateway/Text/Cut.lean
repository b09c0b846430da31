-- Cutting text at marks. Everything here works on the characters of a text.
namespace ZigbeeGateway.Cut

/-- The text after a lead that it must start with. -/
def after? : (lead cs : List Char) → Option (List Char)
  | [], cs => some cs
  | _ :: _, [] => none
  | l :: lead, c :: cs => if l = c then after? lead cs else none

/-- The text before and after the first place where a mark stands. -/
def atFirst? (mark : List Char) : List Char → Option (List Char × List Char)
  | [] => (after? mark []).map fun rest => ([], rest)
  | c :: cs =>
    match after? mark (c :: cs) with
    | some rest => some ([], rest)
    | none => (atFirst? mark cs).map fun (before, rest) => (c :: before, rest)

/-- The text before and after the last place where a one-character mark stands. -/
def atLast? (mark : Char) : List Char → Option (List Char × List Char)
  | [] => none
  | c :: cs =>
    match atLast? mark cs with
    | some (before, rest) => some (c :: before, rest)
    | none => if c = mark then some ([], cs) else none

/-- The pieces between the marks, one more than there are marks. -/
def atEvery (mark : Char) : List Char → List (List Char)
  | [] => [[]]
  | c :: cs =>
    if c = mark then [] :: atEvery mark cs
    else match atEvery mark cs with
      | [] => [[c]]
      | piece :: pieces => (c :: piece) :: pieces

theorem after?_eq_some_iff {lead cs rest : List Char} :
    after? lead cs = some rest ↔ cs = lead ++ rest := by
  fun_induction after? lead cs <;> simp_all [eq_comm]

theorem atLast?_eq_none_iff {mark : Char} {cs : List Char} :
    atLast? mark cs = none ↔ mark ∉ cs := by
  induction cs with
  | nil => simp [atLast?]
  | cons c cs ih => rw [atLast?]; split <;> grind

/-- The mark stands between the two parts, and not in the second. -/
theorem atLast?_eq_some_iff {mark : Char} {cs before rest : List Char} :
    atLast? mark cs = some (before, rest) ↔ cs = before ++ mark :: rest ∧ mark ∉ rest := by
  induction cs generalizing before with
  | nil => simp [atLast?]
  | cons c cs ih =>
    have hnone := @atLast?_eq_none_iff mark cs
    rw [atLast?]
    cases before <;> split <;> grind

theorem atEvery_ne_nil (mark : Char) (cs : List Char) : atEvery mark cs ≠ [] := by
  fun_induction atEvery mark cs <;> simp

/-- Without marks there is one piece. -/
theorem atEvery_of_not_mem {mark : Char} {cs : List Char} (h : mark ∉ cs) :
    atEvery mark cs = [cs] := by
  induction cs with
  | nil => rfl
  | cons c cs ih =>
    rw [List.mem_cons, not_or] at h
    rw [atEvery, if_neg (Ne.symm h.1), ih h.2]

/-- A mark between two texts parts their pieces. -/
theorem atEvery_append (mark : Char) (before rest : List Char) :
    atEvery mark (before ++ mark :: rest) = atEvery mark before ++ atEvery mark rest := by
  induction before with
  | nil => simp [atEvery]
  | cons c cs ih =>
    simp only [List.cons_append, atEvery, ih]
    split
    · rfl
    · cases h : atEvery mark cs with
      | nil => exact absurd h (atEvery_ne_nil mark cs)
      | cons piece pieces => rfl

/-- The pieces hold nothing but what stands in the text. -/
theorem mem_of_mem_atEvery {mark c : Char} {cs piece : List Char} (h : piece ∈ atEvery mark cs)
    (hc : c ∈ piece) : c ∈ cs := by
  fun_induction atEvery mark cs generalizing piece with
  | case1 => simp_all
  | case2 cs ih =>
    rcases List.mem_cons.mp h with rfl | h
    · cases hc
    · exact List.mem_cons_of_mem _ (ih h hc)
  | case3 c' cs hne hnil => exact absurd hnil (atEvery_ne_nil mark cs)
  | case4 c' cs hne first rest hcons ih =>
    rw [hcons] at ih
    rcases List.mem_cons.mp h with rfl | h
    · rcases List.mem_cons.mp hc with rfl | hc
      · exact List.mem_cons_self
      · exact List.mem_cons_of_mem _ (ih List.mem_cons_self hc)
    · exact List.mem_cons_of_mem _ (ih (List.mem_cons_of_mem _ h) hc)

end ZigbeeGateway.Cut
