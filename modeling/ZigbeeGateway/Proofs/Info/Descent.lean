-- Reading by descent and reading token by token give the same entries and the same errors.
import ZigbeeGateway.Info.Descent
import ZigbeeGateway.Proofs.Info.Grammar
namespace ZigbeeGateway.Info

namespace Descent

variable {ts inner : List Placed} {line : Nat} {key data : String} {opened : Option Nat}

/-! ## What is read, without the bounds -/

/-- The entries of a block, and the tokens that are left. -/
def entries (opened : Option Nat) (ts : List Placed) :
    Except DescentFault (List Node × List Placed) :=
  (readEntries opened ts).map fun (nodes, rest) => (nodes, rest.val)

/-- The entry of a key, and the tokens that are left. -/
def entry (line : Nat) (key : String) (ts : List Placed) :
    Except DescentFault (Node × List Placed) :=
  (readEntry line key ts).map fun (node, rest) => (node, rest.val)

theorem entries_eq (opened : Option Nat) (ts : List Placed) :
    entries opened ts = match skipBreaks ts with
      | [] =>
        match opened with
        | some line => .error (.schema (.atLine line .unclosedBrace))
        | none => .ok ([], [])
      | ⟨.closing, line⟩ :: rest =>
        match opened with
        | some _ => .ok ([], rest)
        | none => .error (.schema (.atLine line .unmatchedBrace))
      | ⟨.opening, line⟩ :: _ => .error (.schema (.atLine line .braceWithoutKey))
      | ⟨.lineBreak, _⟩ :: _ => .error .lineBreakLeft
      | ⟨.text key, line⟩ :: rest => do
        let (node, rest) ← entry line key rest
        let (nodes, rest) ← entries opened rest
        return (node :: nodes, rest) := by
  rw [entries, readEntries.eq_def]
  split
  all_goals rename_i hskip
  all_goals simp only [hskip]
  · cases opened <;> rfl
  · cases opened <;> rfl
  · rfl
  · rfl
  · rename_i rest
    unfold entry
    cases readEntry _ _ rest with
    | error => rfl
    | ok p =>
      obtain ⟨node, rest, hrest⟩ := p
      change Except.map _ ((readEntries opened rest).bind _) = (entries opened rest).bind _
      unfold entries
      cases readEntries opened rest <;> rfl

theorem entry_of_data_error {e : DescentFault} (h : readData line ts = .error e) (key : String) :
    entry line key ts = .error e := by
  rw [entry, readEntry.eq_def, h]
  rfl

theorem entry_plain {rest : Left ts} (h : readData line ts = .ok (data, rest))
    (hskip : ∀ opened inner, skipBreaks rest.val ≠ ⟨.opening, opened⟩ :: inner) (key : String) :
    entry line key ts = .ok (⟨line, key, data, []⟩, rest.val) := by
  rw [entry, readEntry.eq_def, h]
  simp only [bind, Except.bind]
  rfl

theorem entry_block {rest : Left ts} {opened : Nat} (h : readData line ts = .ok (data, rest))
    (hskip : skipBreaks rest.val = ⟨.opening, opened⟩ :: inner) (key : String) :
    entry line key ts =
      (entries (some opened) inner).map fun (nodes, rest) => (⟨line, key, data, nodes⟩, rest) := by
  rw [entry, readEntry.eq_def, h]
  simp only [bind, Except.bind]
  split
  next hopening =>
    rw [hskip] at hopening
    cases hopening
    unfold entries
    cases readEntries (some opened) inner <;> rfl
  next hno => exact absurd hskip (hno _ _)

theorem length_entry_le {rest : List Placed} {node : Node}
    (h : entry line key ts = .ok (node, rest)) : rest.length ≤ ts.length := by
  unfold entry at h
  cases hread : readEntry line key ts with
  | error => rw [hread] at h; cases h
  | ok p =>
    rw [hread] at h
    cases h
    exact p.2.property

theorem length_inner_le {rest : Left ts} {opened : Nat}
    (hskip : skipBreaks rest.val = ⟨.opening, opened⟩ :: inner) : inner.length ≤ ts.length :=
  Nat.le_trans (Nat.le_of_lt (length_lt_of_skipBreaks hskip)) rest.property

/-! ## What an entry is read from -/

/-- Behind its data an entry has a block, which is read too, or none. -/
theorem entry_eq_ok {rest : List Placed} {node : Node} (h : entry line key ts = .ok (node, rest)) :
    ∃ data, ∃ behind : Left ts, readData line ts = .ok (data, behind) ∧
      ((∃ opened inner children, skipBreaks behind.val = ⟨.opening, opened⟩ :: inner ∧
          entries (some opened) inner = .ok (children, rest) ∧
          node = ⟨line, key, data, children⟩) ∨
        (∀ opened inner, skipBreaks behind.val ≠ ⟨.opening, opened⟩ :: inner) ∧
          rest = behind.val ∧ node = ⟨line, key, data, []⟩) := by
  cases hread : readData line ts with
  | error e =>
    rw [entry_of_data_error hread] at h
    cases h
  | ok p =>
    obtain ⟨data, behind⟩ := p
    refine ⟨data, behind, rfl, ?_⟩
    by_cases hskip : ∃ opened inner, skipBreaks behind.val = ⟨.opening, opened⟩ :: inner
    · obtain ⟨opened, inner, hskip⟩ := hskip
      rw [entry_block hread hskip] at h
      cases hentries : entries (some opened) inner with
      | error e =>
        rw [hentries] at h
        cases h
      | ok p =>
        rw [hentries] at h
        cases h
        exact .inl ⟨opened, inner, p.1, hskip, hentries, rfl⟩
    · simp only [not_exists] at hskip
      rw [entry_plain hread hskip] at h
      cases h
      exact .inr ⟨hskip, rfl, rfl⟩

/-- Where a text stands, an entry is read, and then the others. -/
theorem entries_eq_ok_of_text {rest left : List Placed} {nodes : List Node}
    (hskip : skipBreaks ts = ⟨.text key, line⟩ :: left)
    (h : entries opened ts = .ok (nodes, rest)) :
    ∃ node behind more, entry line key left = .ok (node, behind) ∧
      entries opened behind = .ok (more, rest) ∧ nodes = node :: more := by
  rw [entries_eq, hskip] at h
  cases hentry : entry line key left with
  | error e =>
    simp only [hentry] at h
    cases h
  | ok p =>
    obtain ⟨node, behind⟩ := p
    simp only [hentry] at h
    change (entries opened behind).bind _ = _ at h
    cases hentries : entries opened behind with
    | error e =>
      rw [hentries] at h
      cases h
    | ok p =>
      rw [hentries] at h
      cases h
      exact ⟨node, behind, p.1, rfl, hentries, rfl⟩

/-! ## Line breaks and texts in front -/

/-- Tokens that do not begin with a text. -/
def NoText (ts : List Placed) : Prop := ∀ s line rest, ts ≠ ⟨.text s, line⟩ :: rest

theorem skipBreaks_lineBreak (line : Nat) (ts : List Placed) :
    skipBreaks (⟨.lineBreak, line⟩ :: ts) = skipBreaks ts := rfl

theorem skipBreaks_of_ne {t : Placed} (h : t.token ≠ .lineBreak) (ts : List Placed) :
    skipBreaks (t :: ts) = t :: ts := by
  unfold skipBreaks
  rw [List.dropWhile_cons_of_neg]
  simpa using h

/-- The line breaks that are skipped are all of them, so that none is left. -/
theorem skipBreaks_ne_lineBreak (ts : List Placed) (line : Nat) (rest : List Placed) :
    skipBreaks ts ≠ ⟨.lineBreak, line⟩ :: rest := by
  induction ts with
  | nil => exact (List.cons_ne_nil _ _).symm
  | cons t ts ih =>
    by_cases h : t.token = .lineBreak
    · obtain ⟨_, l⟩ := t
      obtain rfl := h
      exact ih
    · rw [skipBreaks_of_ne h]
      rintro ⟨⟩
      exact h rfl

/-- What stands behind a key: one text of data too many, the data, or none. -/
theorem readData_cases (line : Nat) (ts : List Placed) :
    (∃ data dataLine extra extraLine rest,
      ts = ⟨.text data, dataLine⟩ :: ⟨.text extra, extraLine⟩ :: rest ∧
      readData line ts = .error (.schema (.atLine line (.textAfterData extra)))) ∨
    (∃ data dataLine, ∃ rest : Left ts, ts = ⟨.text data, dataLine⟩ :: rest.val ∧
      NoText rest.val ∧ readData line ts = .ok (data, rest)) ∨
    ∃ rest : Left ts, ts = rest.val ∧ NoText ts ∧ readData line ts = .ok ("", rest) := by
  match ts with
  | [] => exact .inr (.inr ⟨⟨[], Nat.le_refl _⟩, rfl, by simp [NoText], rfl⟩)
  | ⟨.lineBreak, l⟩ :: rest | ⟨.opening, l⟩ :: rest | ⟨.closing, l⟩ :: rest =>
    exact .inr (.inr ⟨⟨_, Nat.le_refl _⟩, rfl, by simp [NoText], rfl⟩)
  | [⟨.text data, l⟩] =>
    exact .inr (.inl ⟨data, l, ⟨[], Nat.zero_le _⟩, rfl, by simp [NoText], rfl⟩)
  | ⟨.text data, l⟩ :: ⟨.text extra, l'⟩ :: rest => exact .inl ⟨data, l, extra, l', rest, rfl, rfl⟩
  | ⟨.text data, l⟩ :: ⟨.lineBreak, l'⟩ :: rest | ⟨.text data, l⟩ :: ⟨.opening, l'⟩ :: rest
  | ⟨.text data, l⟩ :: ⟨.closing, l'⟩ :: rest =>
    exact .inr (.inl ⟨data, l, ⟨_, Nat.le_succ _⟩, rfl, by simp [NoText], rfl⟩)

end Descent

/-! ## Token by token -/

namespace Build

variable {b : Build} {line : Nat} {key data : String} {ts : List Placed}

/-- The entries, when the tokens that are left are read one after the other. -/
def run (b : Build) (ts : List Placed) : Except SchemaError (List Node) := do
  (← ts.foldlM step b).finish

theorem run_cons {b' : Build} {t : Placed} (h : b.step t = .ok b') (ts : List Placed) :
    b.run (t :: ts) = b'.run ts := by
  unfold run
  rw [List.foldlM_cons, h]
  rfl

/-- Line breaks behind a whole line change nothing. -/
theorem run_skipBreaks (h : b.LineOver) (ts : List Placed) :
    b.run ts = b.run (Descent.skipBreaks ts) := by
  induction ts with
  | nil => rfl
  | cons t ts ih =>
    by_cases ht : t.token = .lineBreak
    · obtain ⟨_, l⟩ := t
      obtain rfl := ht
      have hstep : b.step ⟨.lineBreak, l⟩ = .ok b := by
        obtain ⟨blocks, nodes, pending⟩ := b
        rcases h with h | ⟨_, _, _, h⟩ <;> obtain rfl := h <;> rfl
      rw [run_cons hstep, ih, Descent.skipBreaks_lineBreak]
    · rw [Descent.skipBreaks_of_ne ht]

/-- Where no text follows, it is all the same how an entry awaits its block. -/
theorem run_of_awaits (h : b.Awaits line key data) (hts : Descent.NoText ts) :
    b.run ts = run ⟨b.blocks, b.nodes, .rested line key data⟩ (Descent.skipBreaks ts) := by
  have hrested : LineOver ⟨b.blocks, b.nodes, .rested line key data⟩ := .inr ⟨_, _, _, rfl⟩
  obtain ⟨blocks, nodes, pending⟩ := b
  match ts with
  | [] => rcases h with ⟨h, rfl⟩ | h | h <;> obtain rfl := h <;> rfl
  | ⟨.text s, l⟩ :: rest => exact absurd rfl (hts s l rest)
  | ⟨.lineBreak, l⟩ :: rest =>
    rw [Descent.skipBreaks_lineBreak, ← run_skipBreaks hrested]
    rcases h with ⟨h, rfl⟩ | h | h <;> obtain rfl := h <;> rfl
  | ⟨.opening, l⟩ :: rest | ⟨.closing, l⟩ :: rest =>
    rcases h with ⟨h, rfl⟩ | h | h <;> obtain rfl := h <;> rfl

/-- An entry without a block is over. -/
theorem run_rested {blocks : List Open} {nodes : List Node}
    (h : ∀ opened inner, Descent.skipBreaks ts ≠ ⟨.opening, opened⟩ :: inner) :
    run ⟨blocks, nodes, .rested line key data⟩ (Descent.skipBreaks ts) =
      run ⟨blocks, ⟨line, key, data, []⟩ :: nodes, .fresh⟩ ts := by
  rw [run_skipBreaks (.inl rfl) ts]
  have hno := Descent.skipBreaks_ne_lineBreak ts
  generalize Descent.skipBreaks ts = ts at *
  match ts with
  | [] => rfl
  | ⟨.opening, l⟩ :: rest => exact absurd rfl (h l rest)
  | ⟨.lineBreak, l⟩ :: rest => exact absurd rfl (hno l rest)
  | ⟨.text s, l⟩ :: rest | ⟨.closing, l⟩ :: rest => rfl

/-- The innermost block ends with some more entries, or all of the tokens do. -/
def resume (blocks : List Open) (nodes : List Node) (more : List Node) (rest : List Placed) :
    Except SchemaError (List Node) :=
  match blocks with
  | [] => .ok (nodes.reverse ++ more)
  | o :: outer =>
    run ⟨outer, ⟨o.line, o.key, o.data, nodes.reverse ++ more⟩ :: o.before, .fresh⟩ rest

theorem resume_cons (blocks : List Open) (nodes : List Node) (node : Node) (more : List Node)
    (rest : List Placed) :
    resume blocks nodes (node :: more) rest = resume blocks (node :: nodes) more rest := by
  cases blocks <;> simp [resume]

end Build

/-! ## The two ways agree -/

namespace Descent

open Build

/-- Reading the entries of a block at once comes to the same as reading its tokens one by one. -/
def EntriesAgree (ts : List Placed) : Prop :=
  ∀ blocks nodes, (run ⟨blocks, nodes, .fresh⟩ ts).mapError .schema =
    (entries (blocks.head?.map Open.opened) ts).bind fun p =>
      (resume blocks nodes p.1 p.2).mapError .schema

/-- It comes to the same for an entry whose data is read, if it does for the tokens of its block. -/
theorem entry_agrees_of_awaits {b : Build} {rest : Left ts}
    (ih : ∀ inner : List Placed, inner.length ≤ ts.length → EntriesAgree inner)
    (hb : b.Awaits line key data) (hno : NoText rest.val)
    (hread : readData line ts = .ok (data, rest)) :
    (b.run rest.val).mapError .schema = (entry line key ts).bind fun p =>
      (run ⟨b.blocks, p.1 :: b.nodes, .fresh⟩ p.2).mapError .schema := by
  rw [run_of_awaits hb hno]
  by_cases hskip : ∃ opened inner, skipBreaks rest.val = ⟨.opening, opened⟩ :: inner
  · obtain ⟨opened, inner, hskip⟩ := hskip
    rw [entry_block hread hskip, hskip, run_cons (step_opening (.inr (.inr rfl))), Build.enter,
      ih inner (length_inner_le hskip)]
    change (entries (some opened) inner).bind _ = _
    cases entries (some opened) inner <;> rfl
  · simp only [not_exists] at hskip
    rw [entry_plain hread hskip, run_rested hskip]
    rfl

theorem entry_agrees (ih : ∀ inner : List Placed, inner.length ≤ ts.length → EntriesAgree inner)
    (blocks : List Open) (nodes : List Node) (line : Nat) (key : String) :
    (run ⟨blocks, nodes, .keyed line key⟩ ts).mapError .schema =
      (entry line key ts).bind fun p =>
        (run ⟨blocks, p.1 :: nodes, .fresh⟩ p.2).mapError .schema := by
  rcases readData_cases line ts with ⟨data, l, extra, l', rest, rfl, herror⟩ |
    ⟨data, l, rest, hts, hno, hread⟩ | ⟨rest, hts, hno, hread⟩
  · rw [entry_of_data_error herror]
    rfl
  · have hfull : run ⟨blocks, nodes, .keyed line key⟩ ts =
        run ⟨blocks, nodes, .full line key data⟩ rest.val := (congrArg (run _) hts).trans rfl
    rw [hfull, entry_agrees_of_awaits ih (.inr (.inl rfl)) hno hread]
  · have hkeyed : run ⟨blocks, nodes, .keyed line key⟩ ts =
        run ⟨blocks, nodes, .keyed line key⟩ rest.val := congrArg (run _) hts
    rw [hkeyed, entry_agrees_of_awaits ih (.inl ⟨rfl, rfl⟩) (hts ▸ hno) hread]

/-- The induction is on the number of tokens: an entry leaves fewer than it was read from. -/
theorem entries_agree (ts : List Placed) : EntriesAgree ts := by
  induction ts using (measure List.length).wf.induction with
  | _ ts ih =>
    intro blocks nodes
    rw [run_skipBreaks (.inl rfl), entries_eq]
    match hskip : skipBreaks ts with
    | [] =>
      cases blocks with
      | nil =>
        change Except.ok nodes.reverse = Except.ok (nodes.reverse ++ [])
        rw [List.append_nil]
      | cons => rfl
    | ⟨.lineBreak, l⟩ :: rest => exact absurd hskip (skipBreaks_ne_lineBreak ts l rest)
    | ⟨.opening, l⟩ :: rest => rfl
    | ⟨.closing, l⟩ :: rest =>
      cases blocks with
      | nil => rfl
      | cons o outer =>
        change _ = (resume (o :: outer) nodes [] rest).mapError DescentFault.schema
        rw [run_cons (step_closing rfl l), resume, List.append_nil]
        rfl
    | ⟨.text key, l⟩ :: rest =>
      have hrest := length_lt_of_skipBreaks hskip
      rw [run_cons rfl]
      change (run ⟨blocks, nodes, .keyed l key⟩ rest).mapError DescentFault.schema = _
      rw [entry_agrees fun inner hinner => ih inner (Nat.lt_of_le_of_lt hinner hrest)]
      dsimp only
      cases hentry : entry l key rest with
      | error e => rfl
      | ok p =>
        obtain ⟨node, left⟩ := p
        have hleft := ih left (Nat.lt_of_le_of_lt (length_entry_le hentry) hrest)
        change (run ⟨blocks, node :: nodes, .fresh⟩ left).mapError .schema =
          ((entries (blocks.head?.map Open.opened) left).bind _).bind _
        rw [hleft]
        cases entries (blocks.head?.map Open.opened) left with
        | error => rfl
        | ok p => exact congrArg (Except.mapError DescentFault.schema) (resume_cons ..).symm

/-- Reading by descent gives what reading token by token gives, the errors included, and never
comes to a line break where it skipped them all. -/
theorem descend_eq (ts : List Placed) : descend ts = (nodes ts).mapError .schema := by
  have h := entries_agree ts [] []
  change (nodes ts).mapError .schema = (entries none ts).bind _ at h
  rw [h]
  unfold descend entries
  cases readEntries none ts <;> rfl

end Descent

end ZigbeeGateway.Info
