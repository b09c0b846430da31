-- Writing entries as a text: an entry a line, texts bare where they can be, blocks in braces. What
-- is written is a layout of the entries.
import Mathlib.Data.List.Forall2
import ZigbeeGateway.Proofs.Info.Grammar
namespace ZigbeeGateway.Info

/-! ## Texts -/

/-- Whether a text can stand without quotes. -/
def isBare (w : List Char) : Bool :=
  !w.isEmpty && w.all (!endsWord ·) && w.head? != some '\\'

theorem bare_of_isBare {w : List Char} (h : isBare w) : Bare w := by
  unfold isBare at h
  simp only [Bool.and_eq_true, List.all_eq_true, bne_iff_ne] at h
  obtain ⟨⟨hne, hinside⟩, hslash⟩ := h
  exact ⟨by simpa using hne, fun c hc => by simpa using hinside c hc, hslash⟩

/-- A character inside quotes. -/
def escape (c : Char) : List Char :=
  if c = '\n' then ['\\', 'n'] else if c = '"' ∨ c = '\\' then ['\\', c] else [c]

/-- A text, in quotes if it cannot stand without them. -/
def put (text : List Char) : List Char :=
  if isBare text then text else '"' :: (text.flatMap escape ++ ['"'])

theorem quoted_escape (text : List Char) : Quoted 0 text (text.flatMap escape ++ ['"']) := by
  induction text with
  | nil => exact .close
  | cons c text ih =>
    rw [List.flatMap_cons, List.append_assoc]
    unfold escape
    by_cases hbreak : c = '\n'
    · rw [if_pos hbreak, hbreak]
      exact .escape rfl ih
    by_cases hspecial : c = '"' ∨ c = '\\'
    · rw [if_neg hbreak, if_pos hspecial]
      rcases hspecial with rfl | rfl <;> exact .escape rfl ih
    · rw [if_neg hbreak, if_neg hspecial]
      exact .plain hbreak (fun e => hspecial (.inl e)) (fun e => hspecial (.inr e)) ih

theorem Layout.put {line : Nat} {ts : List Placed} {cs : List Char} (h : Layout line ts cs)
    (hcs : ∀ c ∈ cs.head?, endsWord c) (text : String) :
    Layout line (⟨.text text, line⟩ :: ts) (Info.put text.toList ++ cs) := by
  unfold Info.put
  split
  next hbare => simpa using Layout.word (bare_of_isBare hbare) hcs h
  next => simpa using Layout.quotes (quoted_escape text.toList) h

example : put ['a', '"', '\n'] = ['"', 'a', '\\', '"', '\\', 'n', '"'] := by decide

/-! ## Entries -/

/-- An entry on a line of its own, with the characters of its block if it has one. -/
def entry (key data : String) : (block : Option (List Char)) → List Char
  | none => put key.toList ++ ' ' :: (put data.toList ++ ['\n'])
  | some block =>
    put key.toList ++ ' ' :: (put data.toList ++ ' ' :: '\x7b' :: '\n' :: (block ++ ['\x7d', '\n']))

/-- Characters that lay out entries with a property, wherever they start and whatever follows. -/
def Writes (cs : List Char) (P : List Node → Prop) : Prop :=
  ∀ line, ∃ line' ts ns, P ns ∧
    (∀ ts' cs', Layout line' ts' cs' → Layout line (ts ++ ts') (cs ++ cs')) ∧
    ∀ ts' ns', Forest ts' ns' → Forest (ts ++ ts') (ns ++ ns')

/-- A block, which may be missing, that holds entries with a property. -/
def WritesBlock : Option (List Char) → (List Node → Prop) → Prop
  | none, P => P []
  | some block, P => Writes block P

variable {cs cs' : List Char} {P Q R : List Node → Prop}

theorem Writes.imp (h : Writes cs P) (himp : ∀ ns, P ns → Q ns) : Writes cs Q := by
  intro line
  obtain ⟨line', ts, ns, hns, hrest⟩ := h line
  exact ⟨line', ts, ns, himp ns hns, hrest⟩

theorem writes_nil (h : P []) : Writes [] P :=
  fun line => ⟨line, [], [], h, fun _ _ h => h, fun _ _ h => h⟩

theorem Writes.append (h : Writes cs P) (h' : Writes cs' Q)
    (himp : ∀ ns ns', P ns → Q ns' → R (ns ++ ns')) : Writes (cs ++ cs') R := by
  intro line
  obtain ⟨line₁, ts, ns, hns, hlayout, hforest⟩ := h line
  obtain ⟨line₂, ts', ns', hns', hlayout', hforest'⟩ := h' line₁
  refine ⟨line₂, ts ++ ts', ns ++ ns', himp ns ns' hns hns', ?_, ?_⟩
  · intro us ds hus
    rw [List.append_assoc, List.append_assoc]
    exact hlayout _ _ (hlayout' us ds hus)
  · intro us ms hms
    rw [List.append_assoc, List.append_assoc]
    exact hforest _ _ (hforest' us ms hms)

/-- One entry whose block has a property. -/
def OneEntry (key data : String) (P : List Node → Prop) (ns : List Node) : Prop :=
  ∃ line children, P children ∧ ns = [⟨line, key, data, children⟩]

theorem writes_entry {block : Option (List Char)} (h : WritesBlock block P) (key data : String) :
    Writes (entry key data block) (OneEntry key data P) := by
  intro line
  have hhead : Head line key data [⟨.text key, line⟩, ⟨.text data, line⟩] := .keyAndData
  cases block with
  | none =>
    refine ⟨line + 1, [⟨.text key, line⟩, ⟨.text data, line⟩, ⟨.lineBreak, line⟩],
      [⟨line, key, data, []⟩], ⟨line, [], h, rfl⟩, ?_, ?_⟩
    · intro ts' cs' hrest
      simp only [entry, List.append_assoc, List.cons_append, List.nil_append]
      exact .put (.blank (by decide) (.put (.lineBreak hrest) (by simp; decide) data))
        (by simp; decide) key
    · intro ts' ns' hrest
      have hend : Forest (⟨.lineBreak, line⟩ :: ts') ns' := hrest.lineBreak
      simpa using Forest.plain hhead (by simp) hend
  | some block =>
    obtain ⟨line', ts, ns, hns, hlayout, hforest⟩ := h (line + 1)
    refine ⟨line' + 1, [⟨.text key, line⟩, ⟨.text data, line⟩, ⟨.opening, line⟩,
      ⟨.lineBreak, line⟩] ++ ts ++ [⟨.closing, line'⟩, ⟨.lineBreak, line'⟩],
      [⟨line, key, data, ns⟩], ⟨line, ns, hns, rfl⟩, ?_, ?_⟩
    · intro ts' cs' hrest
      simp only [entry, List.append_assoc, List.cons_append, List.nil_append]
      have hinner := hlayout _ _ (.closing (.lineBreak hrest))
      exact .put (.blank (by decide) (.put (.blank (by decide) (.opening (.lineBreak hinner)))
        (by simp; decide) data)) (by simp; decide) key
    · intro ts' ns' hrest
      have hnone : ∀ t ∈ ([] : List Placed), t.token = .lineBreak := by simp
      have hinner : Forest (⟨.lineBreak, line⟩ :: ts) ns := by
        simpa using (hforest [] [] .nil).lineBreak
      simpa using Forest.block hhead hnone hinner (.lineBreak hrest)

theorem Writes.cons {block : Option (List Char)} {key data : String} (h : Writes cs Q)
    (hblock : WritesBlock block P)
    (himp : ∀ line children ns, P children → Q ns → R (⟨line, key, data, children⟩ :: ns)) :
    Writes (entry key data block ++ cs) R := by
  refine (writes_entry hblock key data).append h ?_
  rintro _ ns ⟨line, children, hchildren, rfl⟩ hns
  exact himp line children ns hchildren hns

theorem writes_flatMap {α : Type} {T : α → Node → Prop} {f : α → List Char} {xs : List α}
    (h : ∀ x ∈ xs, Writes (f x) fun ns => ∃ n, ns = [n] ∧ T x n) :
    Writes (xs.flatMap f) (List.Forall₂ T xs) := by
  induction xs with
  | nil => exact writes_nil .nil
  | cons x xs ih =>
    rw [List.flatMap_cons]
    refine (h x List.mem_cons_self).append (ih fun y hy => h y (List.mem_cons_of_mem x hy)) ?_
    rintro _ ns' ⟨n, rfl, hn⟩ hns'
    exact .cons hn hns'

/-- What is written is a text of entries with the property. -/
theorem Writes.text (h : Writes cs P) :
    ∃ ts ns, Layout 1 ts (String.ofList cs).toList ∧ Forest ts ns ∧ P ns := by
  obtain ⟨line', ts, ns, hns, hlayout, hforest⟩ := h 1
  refine ⟨ts, ns, ?_, ?_, hns⟩
  · simpa using hlayout [] [] .nil
  · simpa using hforest [] [] .nil

end ZigbeeGateway.Info
