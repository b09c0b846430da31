-- Entries by their grammar: tokens are read if and only if they can be taken apart into entries,
-- and there is one way only to do so.
import ZigbeeGateway.Proofs.Info.Descent
namespace ZigbeeGateway.Info

/-! ## Derivations -/

/-- The texts at the front of an entry: its key, and data, which may be missing. -/
structure Heading where
  line : Nat
  key : String
  /-- Data with its own line. -/
  data : Option (String × Nat)
deriving DecidableEq, Repr

/-- How tokens are taken apart: a line break, an entry without a block, or one with a block behind
line breaks, and what follows. -/
inductive Derivation where
  | done
  | lineBreak (line : Nat) (rest : Derivation)
  | plain (heading : Heading) (rest : Derivation)
  | block (heading : Heading) (breaks : List Nat) (opened : Nat) (inner : Derivation)
      (closed : Nat) (rest : Derivation)
deriving DecidableEq, Repr

namespace Heading

def tokens : Heading → List Placed
  | ⟨line, key, none⟩ => [⟨.text key, line⟩]
  | ⟨line, key, some (data, dataLine)⟩ => [⟨.text key, line⟩, ⟨.text data, dataLine⟩]

/-- Missing data is the empty text. -/
def node (h : Heading) (children : List Node) : Node :=
  ⟨h.line, h.key, (h.data.map (·.1)).getD "", children⟩

end Heading

/-- Whether line breaks, if there are any, lead to an opening brace. -/
def leadsToOpening : List Placed → Bool
  | ⟨.lineBreak, _⟩ :: ts => leadsToOpening ts
  | ⟨.opening, _⟩ :: _ => true
  | _ => false

/-- Whether an entry without a block may be over in front of tokens: at their end, at a closing
brace, or at a line break that does not lead over further ones to an opening brace. -/
def endsEntry : List Placed → Bool
  | [] => true
  | ⟨.closing, _⟩ :: _ => true
  | ⟨.lineBreak, _⟩ :: ts => !leadsToOpening ts
  | _ => false

namespace Derivation

def tokens : Derivation → List Placed
  | done => []
  | lineBreak line rest => ⟨.lineBreak, line⟩ :: rest.tokens
  | plain heading rest => heading.tokens ++ rest.tokens
  | block heading breaks opened inner closed rest =>
    heading.tokens ++ (breaks.map (⟨.lineBreak, ·⟩) ++
      ⟨.opening, opened⟩ :: (inner.tokens ++ ⟨.closing, closed⟩ :: rest.tokens))

/-- The trees of the entries. -/
def nodes : Derivation → List Node
  | done => []
  | lineBreak _ rest => rest.nodes
  | plain heading rest => heading.node [] :: rest.nodes
  | block heading _ _ inner _ rest => heading.node inner.nodes :: rest.nodes

/-- In front of the tokens `after`, each entry without a block ends where it may. -/
def Lawful : Derivation → (after : List Placed) → Prop
  | done, _ => True
  | lineBreak _ rest, after => rest.Lawful after
  | plain _ rest, after => endsEntry (rest.tokens ++ after) ∧ rest.Lawful after
  | block _ _ _ inner closed rest, after =>
    inner.Lawful (⟨.closing, closed⟩ :: (rest.tokens ++ after)) ∧ rest.Lawful after

/-- The derivation takes apart exactly the given tokens. -/
def Derives (d : Derivation) (ts : List Placed) : Prop := d.Lawful [] ∧ d.tokens = ts

end Derivation

/-! ## Derivations give what is read -/

theorem Heading.head (h : Heading) :
    Head h.line h.key ((h.data.map (·.1)).getD "") h.tokens := by
  obtain ⟨line, key, _ | ⟨data, dataLine⟩⟩ := h
  · exact .key
  · exact .keyAndData

namespace Derivation

variable {d : Derivation} {ts after : List Placed}

/-- An entry without a block has a line break behind it, or no more entries. -/
theorem lineBreak_of_endsEntry (h : endsEntry (d.tokens ++ after)) :
    ∀ t ∈ d.tokens.head?, t.token = .lineBreak := by
  match d with
  | done => simp [tokens]
  | lineBreak line rest => simp [tokens]
  | plain ⟨_, _, none⟩ _ | plain ⟨_, _, some _⟩ _ | block ⟨_, _, none⟩ ..
  | block ⟨_, _, some _⟩ .. =>
    simp [tokens, Heading.tokens, endsEntry] at h

theorem forest (h : d.Lawful after) : Forest d.tokens d.nodes := by
  induction d generalizing after with
  | done => exact .nil
  | lineBreak line rest ih => exact .lineBreak (ih h)
  | plain heading rest ih => exact .plain heading.head (lineBreak_of_endsEntry h.1) (ih h.2)
  | block heading breaks opened inner closed rest ihinner ih =>
    have hbreaks : ∀ t ∈ breaks.map (⟨.lineBreak, ·⟩ : Nat → Placed), t.token = .lineBreak := by
      simp
    have hforest : Forest (heading.tokens ++ breaks.map _ ++ ⟨.opening, opened⟩ :: inner.tokens ++
        ⟨.closing, closed⟩ :: rest.tokens) _ :=
      .block heading.head hbreaks (ihinner h.1) (ih h.2)
    rw [tokens, nodes, Heading.node]
    simpa using hforest

end Derivation

/-! ## What is read has a derivation -/

namespace Descent

variable {ts rest : List Placed} {opened : Option Nat} {line : Nat} {key : String}

theorem exists_breaks (ts : List Placed) :
    ∃ breaks : List Nat, ts = breaks.map (⟨.lineBreak, ·⟩) ++ skipBreaks ts := by
  induction ts with
  | nil => exact ⟨[], rfl⟩
  | cons t ts ih =>
    by_cases h : t.token = .lineBreak
    · obtain ⟨_, l⟩ := t
      obtain rfl := h
      obtain ⟨breaks, hbreaks⟩ := ih
      exact ⟨l :: breaks, congrArg (⟨.lineBreak, l⟩ :: ·) hbreaks⟩
    · exact ⟨[], (skipBreaks_of_ne h ts).symm⟩

theorem skipBreaks_of_leadsToOpening (h : leadsToOpening ts) :
    ∃ opened inner, skipBreaks ts = ⟨.opening, opened⟩ :: inner := by
  induction ts with
  | nil => cases h
  | cons t ts ih =>
    match t with
    | ⟨.lineBreak, _⟩ => exact ih h
    | ⟨.opening, opened⟩ => exact ⟨opened, ts, rfl⟩
    | ⟨.text _, _⟩ | ⟨.closing, _⟩ => cases h

theorem endsEntry_of_skipBreaks (hno : NoText ts)
    (hskip : ∀ opened inner, skipBreaks ts ≠ ⟨.opening, opened⟩ :: inner) : endsEntry ts := by
  match ts with
  | [] | ⟨.closing, _⟩ :: _ => rfl
  | ⟨.text s, line⟩ :: rest => exact absurd rfl (hno s line rest)
  | ⟨.opening, opened⟩ :: inner => exact absurd rfl (hskip opened inner)
  | ⟨.lineBreak, _⟩ :: ts =>
    rw [endsEntry, Bool.not_eq_true', Bool.eq_false_iff]
    intro hleads
    obtain ⟨opened, inner, h⟩ := skipBreaks_of_leadsToOpening hleads
    exact hskip opened inner h

/-- What is left when a block is read, or all of the tokens are. -/
def EndsWith (opened : Option Nat) (after rest : List Placed) : Prop :=
  match opened with
  | none => after = [] ∧ rest = []
  | some _ => ∃ closed, after = ⟨.closing, closed⟩ :: rest

/-- Entries that are read from tokens have a derivation. -/
def EntriesDerived (ts : List Placed) : Prop :=
  ∀ opened nodes rest, entries opened ts = .ok (nodes, rest) →
    ∃ (d : Derivation) (after : List Placed), ts = d.tokens ++ after ∧ d.nodes = nodes ∧
      d.Lawful after ∧ EndsWith opened after rest

/-- Data, missing or not, and its key make up a heading. -/
theorem exists_heading {data : String} {rest : Left ts} (line : Nat) (key : String)
    (h : readData line ts = .ok (data, rest)) :
    ∃ heading : Heading, ⟨.text key, line⟩ :: ts = heading.tokens ++ rest.val ∧
      (∀ children, heading.node children = ⟨line, key, data, children⟩) ∧ NoText rest.val := by
  rcases readData_cases line ts with ⟨_, _, _, _, _, _, herror⟩ |
    ⟨data', dataLine, rest', hts, hno, hread⟩ | ⟨rest', hts, hno, hread⟩
  · rw [herror] at h
    cases h
  · rw [hread] at h
    cases h
    exact ⟨⟨line, key, some (data, dataLine)⟩, congrArg _ hts, fun _ => rfl, hno⟩
  · rw [hread] at h
    cases h
    exact ⟨⟨line, key, none⟩, congrArg _ hts, fun _ => rfl, hts ▸ hno⟩

/-- An entry that is read stands in front of every derivation of what follows. -/
theorem entry_derived {node : Node} {after : List Placed} {d : Derivation}
    (ih : ∀ inner : List Placed, inner.length ≤ ts.length → EntriesDerived inner)
    (h : entry line key ts = .ok (node, rest)) (hrest : rest = d.tokens ++ after)
    (hd : d.Lawful after) :
    ∃ d' : Derivation, ⟨.text key, line⟩ :: ts = d'.tokens ++ after ∧ d'.nodes = node :: d.nodes ∧
      d'.Lawful after := by
  obtain ⟨data, behind, hread, ⟨opened, inner, children, hskip, hentries, rfl⟩ |
    ⟨hskip, hbehind, rfl⟩⟩ := entry_eq_ok h
  all_goals obtain ⟨heading, htokens, hnode, hno⟩ := exists_heading line key hread
  · obtain ⟨d₁, _, hinner, rfl, hlawful, closed, rfl⟩ :=
      ih inner (length_inner_le hskip) _ _ _ hentries
    obtain ⟨breaks, hbreaks⟩ := exists_breaks behind.val
    refine ⟨.block heading breaks opened d₁ closed d, ?_, ?_, ?_, hd⟩
    · rw [htokens, hbreaks, hskip, hinner, hrest]
      simp [Derivation.tokens]
    · rw [Derivation.nodes, hnode]
    · rwa [hrest] at hlawful
  · refine ⟨.plain heading d, ?_, ?_, ?_, hd⟩
    · rw [htokens, ← hbehind, hrest, Derivation.tokens, List.append_assoc]
    · rw [Derivation.nodes, hnode]
    · rw [← hrest, hbehind]
      exact endsEntry_of_skipBreaks hno hskip

/-- Line breaks may stand in front of every derivation. -/
theorem exists_derivation_of_breaks (breaks : List Nat) {after : List Placed} {d : Derivation}
    (hd : d.Lawful after) :
    ∃ d' : Derivation, breaks.map (⟨.lineBreak, ·⟩) ++ d.tokens = d'.tokens ∧
      d'.nodes = d.nodes ∧ d'.Lawful after := by
  induction breaks with
  | nil => exact ⟨d, rfl, rfl, hd⟩
  | cons l breaks ih =>
    obtain ⟨d', htokens, hnodes, hlawful⟩ := ih
    refine ⟨.lineBreak l d', ?_, hnodes, hlawful⟩
    rw [List.map_cons, List.cons_append, htokens, Derivation.tokens]

theorem entries_derived (ts : List Placed) : EntriesDerived ts := by
  induction ts using (measure List.length).wf.induction with
  | _ ts ih =>
    intro opened nodes rest h
    -- Once the line breaks in front are skipped, they can be put back.
    suffices ∃ (d : Derivation) (after : List Placed), skipBreaks ts = d.tokens ++ after ∧
        d.nodes = nodes ∧ d.Lawful after ∧ EndsWith opened after rest by
      obtain ⟨d, after, htokens, hnodes, hlawful, hends⟩ := this
      obtain ⟨breaks, hbreaks⟩ := exists_breaks ts
      obtain ⟨d', htokens', hnodes', hlawful'⟩ := exists_derivation_of_breaks breaks hlawful
      refine ⟨d', after, ?_, hnodes'.trans hnodes, hlawful', hends⟩
      rw [hbreaks, htokens, ← List.append_assoc, htokens']
    match hskip : skipBreaks ts with
    | [] =>
      rw [entries_eq, hskip] at h
      cases opened with
      | some line => cases h
      | none =>
        cases h
        exact ⟨.done, [], rfl, rfl, trivial, rfl, rfl⟩
    | ⟨.closing, l⟩ :: left =>
      rw [entries_eq, hskip] at h
      cases opened with
      | none => cases h
      | some line =>
        cases h
        exact ⟨.done, _, rfl, rfl, trivial, l, rfl⟩
    | ⟨.opening, l⟩ :: left =>
      rw [entries_eq, hskip] at h
      cases h
    | ⟨.lineBreak, l⟩ :: left => exact absurd hskip (skipBreaks_ne_lineBreak ts l left)
    | ⟨.text key, l⟩ :: left =>
      have hleft := length_lt_of_skipBreaks hskip
      obtain ⟨node, behind, more, hentry, hentries, rfl⟩ := entries_eq_ok_of_text hskip h
      have hbehind := Nat.lt_of_le_of_lt (length_entry_le hentry) hleft
      obtain ⟨d, after, htokens, hnodes, hlawful, hends⟩ := ih behind hbehind _ _ _ hentries
      obtain ⟨d', htokens', hnodes', hlawful'⟩ := entry_derived
        (fun inner hinner => ih inner (Nat.lt_of_le_of_lt hinner hleft)) hentry htokens hlawful
      exact ⟨d', after, htokens', hnodes' ▸ congrArg _ hnodes, hlawful', hends⟩

/-- Tokens that are read have a derivation, and its trees are what is read. -/
theorem exists_derivation {nodes : List Node} (h : Info.nodes ts = .ok nodes) :
    ∃ d : Derivation, d.Derives ts ∧ d.nodes = nodes := by
  have hdescend := descend_eq ts
  rw [h] at hdescend
  cases hread : readEntries none ts with
  | error e =>
    rw [descend, hread] at hdescend
    cases hdescend
  | ok p =>
    rw [descend, hread] at hdescend
    cases hdescend
    have hentries : entries none ts = .ok (p.1, p.2.val) := by
      rw [entries, hread]
      rfl
    obtain ⟨d, _, htokens, hnodes, hlawful, rfl, -⟩ :=
      entries_derived ts _ _ _ hentries
    rw [List.append_nil] at htokens
    exact ⟨d, ⟨hlawful, htokens.symm⟩, hnodes⟩

end Descent

/-! ## There is one derivation only -/

theorem Heading.tokens_append_inj {h h' : Heading} {ts ts' : List Placed}
    (hts : Descent.NoText ts) (hts' : Descent.NoText ts')
    (heq : h.tokens ++ ts = h'.tokens ++ ts') : h = h' ∧ ts = ts' := by
  obtain ⟨line, key, _ | ⟨data, dataLine⟩⟩ := h <;>
    obtain ⟨line', key', _ | ⟨data', dataLine'⟩⟩ := h'
  · simp only [tokens, List.cons_append, List.nil_append, List.cons.injEq, Placed.mk.injEq,
      Token.text.injEq] at heq
    obtain ⟨⟨rfl, rfl⟩, rfl⟩ := heq
    exact ⟨rfl, rfl⟩
  · simp only [tokens, List.cons_append, List.nil_append, List.cons.injEq] at heq
    exact absurd heq.2 (hts _ _ _)
  · simp only [tokens, List.cons_append, List.nil_append, List.cons.injEq] at heq
    exact absurd heq.2.symm (hts' _ _ _)
  · simp only [tokens, List.cons_append, List.nil_append, List.cons.injEq, Placed.mk.injEq,
      Token.text.injEq] at heq
    obtain ⟨⟨rfl, rfl⟩, ⟨rfl, rfl⟩, rfl⟩ := heq
    exact ⟨rfl, rfl⟩

theorem noText_of_endsEntry {ts : List Placed} (h : endsEntry ts) : Descent.NoText ts := by
  rintro s line rest rfl
  cases h

theorem leadsToOpening_breaks (breaks : List Nat) (opened : Nat) (ts : List Placed) :
    leadsToOpening (breaks.map (⟨.lineBreak, ·⟩) ++ ⟨.opening, opened⟩ :: ts) := by
  induction breaks with
  | nil => rfl
  | cons _ _ ih => exact ih

theorem not_endsEntry_breaks (breaks : List Nat) (opened : Nat) (ts : List Placed) :
    ¬endsEntry (breaks.map (⟨.lineBreak, ·⟩) ++ ⟨.opening, opened⟩ :: ts) := by
  cases breaks with
  | nil => exact Bool.false_ne_true
  | cons l breaks => simp [endsEntry, leadsToOpening_breaks]

theorem noText_breaks (breaks : List Nat) (opened : Nat) (ts : List Placed) :
    Descent.NoText (breaks.map (⟨.lineBreak, ·⟩) ++ ⟨.opening, opened⟩ :: ts) := by
  cases breaks <;> simp [Descent.NoText]

theorem breaks_append_inj {breaks breaks' : List Nat} {opened opened' : Nat} {ts ts' : List Placed}
    (h : breaks.map (⟨.lineBreak, ·⟩) ++ ⟨.opening, opened⟩ :: ts =
      breaks'.map (⟨.lineBreak, ·⟩) ++ ⟨.opening, opened'⟩ :: ts') :
    breaks = breaks' ∧ opened = opened' ∧ ts = ts' := by
  induction breaks generalizing breaks' with
  | nil =>
    cases breaks' with
    | nil => simpa using h
    | cons => simp at h
  | cons l breaks ih =>
    cases breaks' with
    | nil => simp at h
    | cons l' breaks' =>
      simp only [List.map_cons, List.cons_append, List.cons.injEq, Placed.mk.injEq, true_and] at h
      obtain ⟨rfl, h⟩ := h
      obtain ⟨rfl, hrest⟩ := ih h
      exact ⟨rfl, hrest⟩

namespace Derivation

/-- What may follow entries: nothing, or the brace that closes their block. -/
def Stops (after : List Placed) : Prop := ∀ t ∈ after.head?, t.token = .closing

/-- The first token tells how a derivation begins. -/
def front : Derivation → Option Token
  | done => none
  | lineBreak .. => some .lineBreak
  | plain heading _ => some (.text heading.key)
  | block heading .. => some (.text heading.key)

theorem front_eq (d : Derivation) (hstops : Stops after) :
    ((d.tokens ++ after).head?.map (·.token)).filter (· ≠ .closing) = d.front := by
  match d with
  | done =>
    cases after with
    | nil => rfl
    | cons t after => simp [tokens, front, hstops t rfl]
  | lineBreak .. => rfl
  | plain ⟨_, _, none⟩ _ | plain ⟨_, _, some _⟩ _ | block ⟨_, _, none⟩ ..
  | block ⟨_, _, some _⟩ .. => rfl

theorem front_congr {d d' : Derivation} {after after' : List Placed} (hstops : Stops after)
    (hstops' : Stops after') (heq : d.tokens ++ after = d'.tokens ++ after') :
    d.front = d'.front := by
  rw [← front_eq d hstops, heq, front_eq d' hstops']

/-- Entries that are taken apart in a second way are taken apart in the same way. -/
theorem unique {d d' : Derivation} {after after' : List Placed} (h : d.Lawful after)
    (h' : d'.Lawful after') (hstops : Stops after) (hstops' : Stops after')
    (heq : d.tokens ++ after = d'.tokens ++ after') : d = d' ∧ after = after' := by
  induction d generalizing d' after after' with
  | done =>
    have hfront := front_congr hstops hstops' heq
    cases d' with
    | done => exact ⟨rfl, heq⟩
    | lineBreak | plain | block => cases hfront
  | lineBreak line rest ih =>
    have hfront := front_congr hstops hstops' heq
    cases d' with
    | lineBreak line' rest' =>
      simp only [tokens, List.cons_append, List.cons.injEq, Placed.mk.injEq, true_and] at heq
      obtain ⟨rfl, hrest⟩ := heq
      obtain ⟨rfl, rfl⟩ := ih h (show rest'.Lawful after' from h') hstops hstops' hrest
      exact ⟨rfl, rfl⟩
    | done | plain | block => cases hfront
  | plain heading rest ih =>
    have hfront := front_congr hstops hstops' heq
    cases d' with
    | done | lineBreak => cases hfront
    | plain heading' rest' =>
      rw [tokens, tokens, List.append_assoc, List.append_assoc] at heq
      obtain ⟨rfl, hrest⟩ := Heading.tokens_append_inj (noText_of_endsEntry h.1)
        (noText_of_endsEntry h'.1) heq
      obtain ⟨rfl, rfl⟩ := ih h.2 h'.2 hstops hstops' hrest
      exact ⟨rfl, rfl⟩
    | block heading' breaks' opened' inner' closed' rest' =>
      rw [tokens, tokens, List.append_assoc, List.append_assoc, List.append_assoc] at heq
      obtain ⟨-, hrest⟩ := Heading.tokens_append_inj (noText_of_endsEntry h.1)
        (noText_breaks _ _ _) heq
      exact absurd (hrest ▸ h.1) (not_endsEntry_breaks _ _ _)
  | block heading breaks opened inner closed rest ihinner ih =>
    have hfront := front_congr hstops hstops' heq
    cases d' with
    | done | lineBreak => cases hfront
    | plain heading' rest' =>
      rw [tokens, tokens, List.append_assoc, List.append_assoc, List.append_assoc] at heq
      obtain ⟨-, hrest⟩ := Heading.tokens_append_inj (noText_breaks _ _ _)
        (noText_of_endsEntry h'.1) heq
      exact absurd (hrest ▸ h'.1) (not_endsEntry_breaks _ _ _)
    | block heading' breaks' opened' inner' closed' rest' =>
      rw [tokens, tokens] at heq
      simp only [List.append_assoc, List.cons_append] at heq
      obtain ⟨rfl, hblock⟩ := Heading.tokens_append_inj (noText_breaks _ _ _)
        (noText_breaks _ _ _) heq
      obtain ⟨rfl, rfl, hwithin⟩ := breaks_append_inj hblock
      have hclosing : ∀ closed ts, Stops (⟨.closing, closed⟩ :: ts) := by simp [Stops]
      obtain ⟨rfl, hbehind⟩ := ihinner h.1 h'.1 (hclosing _ _) (hclosing _ _) hwithin
      simp only [List.cons.injEq, Placed.mk.injEq, true_and] at hbehind
      obtain ⟨rfl, hrest⟩ := hbehind
      obtain ⟨rfl, rfl⟩ := ih h.2 h'.2 hstops hstops' hrest
      exact ⟨rfl, rfl⟩

/-- Tokens have one derivation only. -/
theorem Derives.unique {d d' : Derivation} {ts : List Placed} (h : d.Derives ts)
    (h' : d'.Derives ts) : d = d' := by
  have heq : d.tokens ++ [] = d'.tokens ++ [] := by rw [h.2, h'.2]
  exact (Derivation.unique h.1 h'.1 (by simp [Stops]) (by simp [Stops]) heq).1

end Derivation

end ZigbeeGateway.Info
