-- Fields in the order of their names. Setting fields keeps the order, and fields that are in
-- order come out as they are when they are set one after the other.
import ZigbeeGateway.Fields
namespace ZigbeeGateway.Fields

variable {α β : Type}

/-- Each name is larger than those before it, so no name stands twice. -/
def Sorted (fields : Fields α) : Prop := fields.Pairwise fun a b => a.1 < b.1

/-- Sets fields one after the other. -/
def setAll (entries : List (String × α)) (fields : Fields α) : Fields α :=
  entries.foldl (fun fields (name, x) => set name x fields) fields

theorem setAll_cons (name : String) (x : α) (rest : List (String × α)) (fields : Fields α) :
    setAll ((name, x) :: rest) fields = setAll rest (set name x fields) := rfl

theorem mem_set {name : String} {x : α} {fields : Fields α} {entry : String × α}
    (h : entry ∈ set name x fields) : entry = (name, x) ∨ entry ∈ fields := by
  induction fields with
  | nil => simpa [set] using h
  | cons head rest ih =>
    obtain ⟨n, y⟩ := head
    simp only [set] at h
    split at h
    · rcases List.mem_cons.mp h with h | h
      · exact Or.inl h
      · exact Or.inr (List.mem_cons_of_mem _ h)
    · split at h
      · exact List.mem_cons.mp h
      · rcases List.mem_cons.mp h with h | h
        · exact Or.inr (h ▸ List.mem_cons_self)
        · exact (ih h).imp_right (List.mem_cons_of_mem _)

theorem sorted_nil : Sorted ([] : Fields α) := List.Pairwise.nil

theorem sorted_set (name : String) (x : α) {fields : Fields α} (h : fields.Sorted) :
    (set name x fields).Sorted := by
  induction fields with
  | nil => exact List.pairwise_singleton ..
  | cons head rest ih =>
    obtain ⟨n, y⟩ := head
    obtain ⟨hhead, hrest⟩ := List.pairwise_cons.mp h
    simp only [set]
    split
    · rename_i hn
      subst hn
      exact List.pairwise_cons.mpr ⟨hhead, hrest⟩
    · split
      · rename_i hlt
        refine List.pairwise_cons.mpr ⟨fun entry he => ?_, h⟩
        rcases List.mem_cons.mp he with rfl | he
        · exact hlt
        · exact String.lt_trans hlt (hhead entry he)
      · rename_i hne hle
        refine List.pairwise_cons.mpr ⟨fun entry he => ?_, ih hrest⟩
        rcases mem_set he with rfl | he
        · exact Std.lt_of_le_of_ne hle (Ne.symm hne)
        · exact hhead entry he

theorem sorted_setAll (entries : List (String × α)) {fields : Fields α} (h : fields.Sorted) :
    (setAll entries fields).Sorted := by
  induction entries generalizing fields with
  | nil => exact h
  | cons entry rest ih => exact ih (sorted_set entry.1 entry.2 h)

theorem sorted_ofList (entries : List (String × α)) : (ofList entries).Sorted :=
  sorted_setAll entries sorted_nil

theorem mem_setAll {entries : List (String × α)} {fields : Fields α} {entry : String × α}
    (h : entry ∈ setAll entries fields) : entry ∈ entries ∨ entry ∈ fields := by
  induction entries generalizing fields with
  | nil => exact Or.inr h
  | cons head rest ih =>
    rcases ih h with h | h
    · exact Or.inl (List.mem_cons_of_mem _ h)
    · rcases mem_set h with rfl | h
      · exact Or.inl List.mem_cons_self
      · exact Or.inr h

/-- No field comes from elsewhere. -/
theorem mem_ofList {entries : List (String × α)} {entry : String × α}
    (h : entry ∈ ofList entries) : entry ∈ entries := by
  rcases mem_setAll h with h | h
  · exact h
  · cases h

/-- A name beyond all others comes last. -/
theorem set_of_lt {name : String} (x : α) {fields : Fields α}
    (h : ∀ entry ∈ fields, entry.1 < name) :
    set name x fields = fields ++ [(name, x)] := by
  induction fields with
  | nil => rfl
  | cons head rest ih =>
    obtain ⟨n, y⟩ := head
    have hn : n < name := h (n, y) List.mem_cons_self
    have hne : name ≠ n := by
      rintro rfl
      exact String.lt_irrefl _ hn
    have hle : ¬ name < n := fun hlt => String.lt_irrefl _ (String.lt_trans hn hlt)
    rw [set, if_neg hne, if_neg hle, ih fun entry he => h entry (List.mem_cons_of_mem _ he)]
    rfl

theorem setAll_of_sorted {before rest : Fields α} (h : Sorted (before ++ rest)) :
    setAll rest before = before ++ rest := by
  induction rest generalizing before with
  | nil => exact (List.append_nil before).symm
  | cons entry rest ih =>
    obtain ⟨name, x⟩ := entry
    obtain ⟨-, -, hlt⟩ := List.pairwise_append.mp h
    have hset : set name x before = before ++ [(name, x)] :=
      set_of_lt x fun e he => hlt e he (name, x) List.mem_cons_self
    rw [setAll_cons, hset, ih (by simpa using h), List.append_assoc, List.singleton_append]

/-- Fields in order, set one after the other, give the same fields. -/
theorem ofList_of_sorted {fields : Fields α} (h : fields.Sorted) : ofList fields = fields :=
  setAll_of_sorted h

theorem sorted_map (g : α → β) {fields : Fields α} (h : fields.Sorted) :
    Sorted (fields.map fun entry => (entry.1, g entry.2)) := List.pairwise_map.mpr h

theorem set_map (g : α → β) (name : String) (x : α) (fields : Fields α) :
    set name (g x) (fields.map fun entry => (entry.1, g entry.2)) =
      (set name x fields).map fun entry => (entry.1, g entry.2) := by
  induction fields with
  | nil => rfl
  | cons head rest ih =>
    obtain ⟨n, y⟩ := head
    simp only [List.map_cons, set]
    split
    · rfl
    · split
      · rfl
      · rw [ih, List.map_cons]

theorem setAll_map (g : α → β) (entries : List (String × α)) (fields : Fields α) :
    setAll (entries.map fun entry => (entry.1, g entry.2))
        (fields.map fun entry => (entry.1, g entry.2)) =
      (setAll entries fields).map fun entry => (entry.1, g entry.2) := by
  induction entries generalizing fields with
  | nil => rfl
  | cons entry rest ih =>
    obtain ⟨name, x⟩ := entry
    rw [List.map_cons, setAll_cons, setAll_cons, set_map, ih]

theorem ofList_map (g : α → β) (entries : List (String × α)) :
    ofList (entries.map fun entry => (entry.1, g entry.2)) =
      (ofList entries).map fun entry => (entry.1, g entry.2) := setAll_map g entries []

/-! ## Fields with distinct names -/

theorem get?_setAll_of_not_mem {name : String} {entries : List (String × α)}
    (h : name ∉ entries.map Prod.fst) (fields : Fields α) :
    get? name (setAll entries fields) = get? name fields := by
  induction entries generalizing fields with
  | nil => rfl
  | cons entry rest ih =>
    rw [List.map_cons, List.mem_cons, not_or] at h
    rw [setAll_cons, ih h.2, get?_set, if_neg h.1]

theorem get?_setAll {entries : List (String × α)} (h : (entries.map Prod.fst).Nodup)
    {name : String} {x : α} (hx : (name, x) ∈ entries) (fields : Fields α) :
    get? name (setAll entries fields) = some x := by
  induction entries generalizing fields with
  | nil => cases hx
  | cons entry rest ih =>
    rw [List.map_cons, List.nodup_cons] at h
    rcases List.mem_cons.mp hx with rfl | hx
    · rw [setAll_cons, get?_setAll_of_not_mem h.1, get?_set, if_pos rfl]
    · exact ih h.2 hx _

/-- Of fields with distinct names each one is found. -/
theorem get?_ofList {entries : List (String × α)} (h : (entries.map Prod.fst).Nodup)
    {name : String} {x : α} (hx : (name, x) ∈ entries) : get? name (ofList entries) = some x :=
  get?_setAll h hx []

/-! ## What is found after fields were set -/

/-- The last of some entries with a name is found, or what stood there before if there is none. -/
theorem get?_setAll_eq_last (name : String) (entries : List (String × α)) (fields : Fields α) :
    get? name (setAll entries fields) =
      ((entries.filter (·.1 = name)).getLast?.map Prod.snd).or (get? name fields) := by
  induction entries generalizing fields with
  | nil => rfl
  | cons entry rest ih =>
    obtain ⟨n, x⟩ := entry
    rw [setAll_cons, ih, get?_set]
    by_cases hn : n = name
    · simp only [hn, List.filter_cons, decide_true, if_true, List.getLast?_cons]
      cases (rest.filter (·.1 = name)).getLast? <;> rfl
    · simp [hn, Ne.symm hn]

theorem get?_ofList_eq_last (name : String) (entries : List (String × α)) :
    get? name (ofList entries) = (entries.filter (·.1 = name)).getLast?.map Prod.snd :=
  (get?_setAll_eq_last name entries []).trans (Option.or_none ..)

/-- Fields that are set after those of a record take their places. -/
theorem get?_setAll_ofList (name : String) (entries : List (String × α)) (fields : Fields α) :
    get? name (setAll entries fields) = (get? name (ofList entries)).or (get? name fields) := by
  rw [get?_setAll_eq_last, get?_ofList_eq_last]

/-! ## Fields in order are told by what is found in them -/

theorem mem_of_get? {name : String} {x : α} {fields : Fields α} (h : get? name fields = some x) :
    (name, x) ∈ fields := by
  induction fields with
  | nil => cases h
  | cons entry rest ih =>
    obtain ⟨n, y⟩ := entry
    rw [get?] at h
    split at h
    · rename_i hn
      subst hn
      cases h
      exact List.mem_cons_self
    · exact List.mem_cons_of_mem _ (ih h)

theorem get?_eq_none_of_lt {name : String} {fields : Fields α}
    (h : ∀ entry ∈ fields, name < entry.1) : get? name fields = none := by
  cases hget : get? name fields with
  | none => rfl
  | some x => exact absurd (h _ (mem_of_get? hget)) (String.lt_irrefl name)

theorem eq_of_sorted {fields fields' : Fields α} (h : fields.Sorted) (h' : fields'.Sorted)
    (hsame : ∀ name, get? name fields = get? name fields') : fields = fields' := by
  induction fields generalizing fields' with
  | nil =>
    cases fields' with
    | nil => rfl
    | cons entry rest =>
      have := hsame entry.1
      simp [get?] at this
  | cons entry rest ih =>
    obtain ⟨n, x⟩ := entry
    obtain ⟨hn, hrest⟩ := List.pairwise_cons.mp h
    cases fields' with
    | nil =>
      have := hsame n
      simp [get?] at this
    | cons entry' rest' =>
      obtain ⟨n', x'⟩ := entry'
      obtain ⟨hn', hrest'⟩ := List.pairwise_cons.mp h'
      by_cases hname : n = n'
      · subst hname
        have hvalue := hsame n
        simp only [get?, if_true, Option.some.injEq] at hvalue
        subst hvalue
        rw [ih hrest hrest']
        intro name
        by_cases hname : name = n
        · subst hname
          rw [get?_eq_none_of_lt hn, get?_eq_none_of_lt hn']
        · have := hsame name
          simp only [get?, hname, if_false] at this
          exact this
      · -- each of the two first names would stand behind the other one
        have hleft := hsame n
        have hright := hsame n'
        simp only [get?, if_true, hname, Ne.symm hname, if_false] at hleft hright
        have hlt : n' < n := hn' _ (mem_of_get? hleft.symm)
        have hgt : n < n' := hn _ (mem_of_get? hright)
        exact absurd (String.lt_trans hlt hgt) (String.lt_irrefl n')

end ZigbeeGateway.Fields
