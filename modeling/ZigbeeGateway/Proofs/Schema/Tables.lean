-- Tables over any history of entries that are offered to them. The entries that are let in stand in
-- the order of the history, both look-ups find what a search from the front finds, and nothing is
-- refused but a number or a name that the table has. With indexes that hold places it is the same,
-- and no place is behind the last entry.
import ZigbeeGateway.Proofs.Schema.Contents
import ZigbeeGateway.Schema.Places
namespace ZigbeeGateway

variable {α : Type}

/-! ## Searches for places -/

/-- A place that a search finds is one of an entry. -/
theorem PlacedTable.at?_findIdx? (p : PlacedTable α) (wanted : α → Bool) :
    p.at? (p.entries.findIdx? wanted) = some (p.entries.find? wanted) := by
  rw [List.find?_eq_bind_findIdx?_getElem?]
  cases hplace : p.entries.findIdx? wanted with
  | none => rfl
  | some i =>
    obtain ⟨hi, -⟩ := List.findIdx?_eq_some_iff_getElem.mp hplace
    simp [at?, hi]

/-- A search for the place of a key through entries and one more whose key is new. -/
theorem findIdx?_concat {β : Type} [DecidableEq β] {key : α → β} {entries : List α} {x : α}
    (h : entries.find? (key · == key x) = none) (k : β) :
    (entries ++ [x]).findIdx? (key · == k) =
      if key x = k then some entries.length else entries.findIdx? (key · == k) := by
  rw [List.findIdx?_append]
  by_cases hk : key x = k
  · subst hk
    have hnone : entries.findIdx? (key · == key x) = none := by
      rw [List.find?_eq_none] at h
      simpa [List.findIdx?_eq_none_iff] using h
    simp [hnone]
  · simp [hk]

variable [Entry α]

/-! ## Entries that are offered -/

/-- The entries of a history that were let in, by the answers to them. -/
def letIn (xs : List α) (answers : List (Option SchemaError)) : List α :=
  ((xs.zip answers).filter (·.2.isNone)).map (·.1)

namespace Table

variable {t : Table α} {x : α}

/-- An entry of the table has the number or the name of another. -/
def Has (t : Table α) (x : α) : Prop :=
  ∃ y ∈ t.entries, Entry.id y = Entry.id x ∨ Entry.name y = Entry.name x

/-- Offers an entry to a table. Gives the answer and the table after it. -/
def offerOne (t : Table α) (x : α) : Option SchemaError × Table α :=
  match t.add x with
  | .ok t' => (none, t')
  | .error e => (some e, t)

/-- Offers entries one after the other. Gives the answers and the table after them. -/
def offer (t : Table α) : List α → List (Option SchemaError) × Table α
  | [] => ([], t)
  | x :: xs =>
    let (answer, t) := t.offerOne x
    let (answers, t) := t.offer xs
    (answer :: answers, t)

/-- How an offer can end: the number is there, or the name is, or the entry goes to the end. -/
inductive Offered (t : Table α) (x : α) : Option SchemaError → Table α → Prop
  | sameId {old : α} : t.entries.find? (Entry.id · == Entry.id x) = some old →
      Offered t x (some (.duplicateId (Entry.id x) (Entry.name x) (Entry.name old))) t
  | sameName {old : α} : t.entries.find? (Entry.id · == Entry.id x) = none →
      t.entries.find? (Entry.name · == Entry.name x) = some old →
      Offered t x (some (.duplicateName (Entry.name x) (Entry.id x))) t
  | added {t' : Table α} : t.entries.find? (Entry.id · == Entry.id x) = none →
      t.entries.find? (Entry.name · == Entry.name x) = none → t'.entries = t.entries ++ [x] →
      Offered t x none t'

theorem offered (t : Table α) (x : α) : t.Offered x (t.offerOne x).1 (t.offerOne x).2 := by
  have hid := t.withId?_eq (Entry.id x)
  have hname := t.withName?_eq (Entry.name x)
  unfold offerOne add
  split
  next t' h =>
    split at h
    next => cases h
    next hid' =>
      split at h
      next => cases h
      next hname' =>
        cases h
        exact .added (hid ▸ hid') (hname ▸ hname') rfl
  next e h =>
    split at h
    next old hid' =>
      cases h
      exact .sameId (hid ▸ hid')
    next hid' =>
      split at h
      next old hname' =>
        cases h
        exact .sameName (hid ▸ hid') (hname ▸ hname')
      next => cases h

/-- Refused is a number or a name that the table has, and nothing else. -/
theorem Offered.refused_iff {answer : Option SchemaError} {t' : Table α}
    (h : t.Offered x answer t') : answer ≠ none ↔ t.Has x := by
  cases h with
  | @sameId old hid =>
    have hsame : Entry.id old = Entry.id x := by simpa using List.find?_some hid
    exact iff_of_true (by simp) ⟨old, List.mem_of_find?_eq_some hid, .inl hsame⟩
  | @sameName old _ hname =>
    have hsame : Entry.name old = Entry.name x := by simpa using List.find?_some hname
    exact iff_of_true (by simp) ⟨old, List.mem_of_find?_eq_some hname, .inr hsame⟩
  | added hid hname _ =>
    refine iff_of_false (by simp) ?_
    rintro ⟨y, hy, hsame | hsame⟩
    · exact List.find?_eq_none.mp hid y hy (by simpa using hsame)
    · exact List.find?_eq_none.mp hname y hy (by simpa using hsame)

theorem Offered.eq_of_refused {answer : Option SchemaError} {t' : Table α}
    (h : t.Offered x answer t') (hrefused : answer ≠ none) : t' = t := by
  cases h with
  | sameId | sameName => rfl
  | added => exact absurd rfl hrefused

theorem Offered.entries_eq {answer : Option SchemaError} {t' : Table α}
    (h : t.Offered x answer t') : t'.entries = t.entries ++ letIn [x] [answer] := by
  cases h with
  | sameId | sameName => simp [letIn]
  | added _ _ hentries => simpa [letIn] using hentries

/-- The entries that were let in stand behind those that were there, in the order of the history. -/
theorem entries_offer (t : Table α) (xs : List α) :
    (t.offer xs).2.entries = t.entries ++ letIn xs (t.offer xs).1 := by
  induction xs generalizing t with
  | nil => simp [offer, letIn]
  | cons x xs ih =>
    have hone := (t.offered x).entries_eq
    rw [offer]
    simp only [ih, hone, List.append_assoc]
    congr 1
    cases (t.offerOne x).1 <;> simp [letIn]

theorem offer_concat (t : Table α) (xs : List α) (x : α) :
    t.offer (xs ++ [x]) =
      ((t.offer xs).1 ++ [((t.offer xs).2.offerOne x).1], ((t.offer xs).2.offerOne x).2) := by
  induction xs generalizing t with
  | nil => rfl
  | cons y xs ih => simp [offer, ih]

end Table

/-! ## Places -/

namespace PlacedTable

variable {p : PlacedTable α} {t : Table α}

/-- The entries are those of a table, and the indexes hold the first places where a search from the
front finds a number or a name. -/
structure Mirrors (p : PlacedTable α) (t : Table α) : Prop where
  entries : p.entries = t.entries
  byId : ∀ id, p.byId[id]? = t.entries.findIdx? (Entry.id · == id)
  byName : ∀ name, p.byName[name]? = t.entries.findIdx? (Entry.name · == name)

theorem Mirrors.withId?_eq (h : p.Mirrors t) (id : Nat) : p.withId? id = some (t.withId? id) := by
  rw [withId?, h.byId, ← h.entries, at?_findIdx?, h.entries, t.withId?_eq]

theorem Mirrors.withName?_eq (h : p.Mirrors t) (name : String) :
    p.withName? name = some (t.withName? name) := by
  rw [withName?, h.byName, ← h.entries, at?_findIdx?, h.entries, t.withName?_eq]

theorem mirrors_empty : (empty : PlacedTable α).Mirrors Table.empty where
  entries := rfl
  byId _ := by simp [empty, Table.empty]
  byName _ := by simp [empty, Table.empty]

/-- What is offered to a table is answered the same with places, and no place is behind the last
entry. Where it is refused, entries and indexes stay. -/
theorem Mirrors.add? (h : p.Mirrors t) (x : α) :
    ∃ p', p.add? x = some ((t.offerOne x).1, p') ∧ p'.Mirrors (t.offerOne x).2 ∧
      ((t.offerOne x).1 ≠ none → p' = p) := by
  have hplace := p.at?_findIdx? (Entry.id · == Entry.id x)
  rw [h.entries, ← h.byId] at hplace
  have hname : p.byName.contains (Entry.name x) =
      (t.entries.find? (Entry.name · == Entry.name x)).isSome := by
    rw [Std.TreeMap.contains_eq_isSome_getElem?, h.byName, List.findIdx?_isSome, Bool.eq_iff_iff]
    simp
  have hoffered := t.offered x
  generalize (t.offerOne x).1 = answer, (t.offerOne x).2 = t' at hoffered ⊢
  unfold PlacedTable.add?
  cases hoffered with
  | @sameId old hid =>
    rw [hid] at hplace
    cases hbyId : p.byId[Entry.id x]? with
    | none =>
      rw [hbyId] at hplace
      cases hplace
    | some i =>
      have hold : p.entries[i]? = some old := by simpa [hbyId, at?] using hplace
      exact ⟨p, by simp [hold], h, fun _ => rfl⟩
  | @sameName old hid hsame =>
    have hbyId : p.byId[Entry.id x]? = none := by
      rw [h.byId]
      simpa using hid
    exact ⟨p, by simp [hbyId, hname, hsame], h, fun _ => rfl⟩
  | added hid hsame hentries =>
    have hbyId : p.byId[Entry.id x]? = none := by
      rw [h.byId]
      simpa using hid
    refine ⟨_, by simp [hbyId, hname, hsame]; rfl, ⟨?_, fun id => ?_, fun name => ?_⟩, by simp⟩
    · rw [hentries, h.entries]
    · rw [hentries, findIdx?_concat hid, Std.TreeMap.getElem?_insert, h.byId, h.entries]
      simp only [Std.compare_eq_iff_eq]
    · rw [hentries, findIdx?_concat hsame, Std.TreeMap.getElem?_insert, h.byName, h.entries]
      simp only [Std.compare_eq_iff_eq]

/-- A whole history is answered the same with places. -/
theorem Mirrors.offer? (h : p.Mirrors t) (xs : List α) :
    ∃ p', p.offer? xs = some ((t.offer xs).1, p') ∧ p'.Mirrors (t.offer xs).2 := by
  induction xs generalizing p t with
  | nil => exact ⟨p, rfl, h⟩
  | cons x xs ih =>
    obtain ⟨p₁, hadd, h₁, -⟩ := h.add? x
    obtain ⟨p', hrest, h'⟩ := ih h₁
    refine ⟨p', ?_, h'⟩
    rw [PlacedTable.offer?, hadd]
    simp [hrest, Table.offer]

end PlacedTable

/-! ## The law -/

/-- Whatever is offered to a table without entries: those that are let in stand in the order of the
history, no two with one number or one name, and both look-ups find what a search from the front
finds. With indexes that hold places all answers are the same and every look-up finds the same, so
no place is behind the last entry. One more offer is refused if and only if the table has the number
or the name; then entries and indexes stay as they are, and otherwise the entry goes to the end. -/
theorem both_indexes_stay_right (xs : List α) :
    ∃ answers t p, Table.empty.offer xs = (answers, t) ∧
      PlacedTable.empty.offer? xs = some (answers, p) ∧
      t.entries = letIn xs answers ∧ p.entries = letIn xs answers ∧
      Distinct (letIn xs answers) ∧
      (∀ id, t.withId? id = (letIn xs answers).find? (Entry.id · == id) ∧
        p.withId? id = some ((letIn xs answers).find? (Entry.id · == id))) ∧
      (∀ name, t.withName? name = (letIn xs answers).find? (Entry.name · == name) ∧
        p.withName? name = some ((letIn xs answers).find? (Entry.name · == name))) ∧
      ∀ x, ∃ answer t' p', t.offerOne x = (answer, t') ∧ p.add? x = some (answer, p') ∧
        Table.empty.offer (xs ++ [x]) = (answers ++ [answer], t') ∧
        (answer ≠ none ↔
          ∃ y ∈ letIn xs answers, Entry.id y = Entry.id x ∨ Entry.name y = Entry.name x) ∧
        (answer ≠ none → t' = t ∧ p' = p) ∧
        (answer = none → t'.entries = t.entries ++ [x] ∧ p'.entries = p.entries ++ [x]) := by
  obtain ⟨p, hoffer, hp⟩ := PlacedTable.mirrors_empty.offer? xs
  have hentries := Table.empty.entries_offer xs
  have hconcat := Table.empty.offer_concat xs
  generalize Table.empty.offer xs = run at hoffer hp hentries hconcat ⊢
  obtain ⟨answers, t⟩ := run
  replace hentries : t.entries = letIn xs answers := hentries
  refine ⟨answers, t, p, rfl, hoffer, hentries, hp.entries.trans hentries, ?_, ?_, ?_, fun x => ?_⟩
  · exact hentries ▸ ⟨t.ids_nodup, t.names_nodup⟩
  · intro id
    rw [hp.withId?_eq, t.withId?_eq, hentries]
    exact ⟨rfl, rfl⟩
  · intro name
    rw [hp.withName?_eq, t.withName?_eq, hentries]
    exact ⟨rfl, rfl⟩
  · obtain ⟨p', hadd, hp', hstay⟩ := hp.add? x
    have hoffered := t.offered x
    have hconcat := hconcat x
    generalize t.offerOne x = one at hadd hp' hstay hoffered hconcat ⊢
    obtain ⟨answer, t'⟩ := one
    refine ⟨answer, t', p', rfl, hadd, hconcat, hentries ▸ hoffered.refused_iff, ?_, ?_⟩
    · intro hrefused
      exact ⟨hoffered.eq_of_refused hrefused, hstay hrefused⟩
    · rintro rfl
      have hgrown : t'.entries = t.entries ++ [x] := by simpa [letIn] using hoffered.entries_eq
      exact ⟨hgrown, by rw [hp'.entries, hp.entries, hgrown]⟩

end ZigbeeGateway
