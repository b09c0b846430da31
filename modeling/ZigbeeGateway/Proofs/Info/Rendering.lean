-- Texts of trees in a free layout. Blanks, blank lines, comments and the place of a brace are the
-- writer's choice, and so are quotes around a text and breaks inside them. Whatever the choice,
-- the trees are read back, each entry with the line of its key.
import Mathlib.Data.List.Count
import ZigbeeGateway.Proofs.Info.Writing
namespace ZigbeeGateway.Info

/-! ## Renderings -/

/-- The end of a line: blanks, a comment if there is one, and the line break. -/
inductive LineEnd : List Char → Prop
  | plain {blanks : List Char} : (∀ c ∈ blanks, isBlank c) → LineEnd (blanks ++ ['\n'])
  | comment {blanks remark : List Char} :
      (∀ c ∈ blanks, isBlank c) → '\n' ∉ remark → LineEnd (blanks ++ ';' :: remark ++ ['\n'])

/-- What may stand in front of an opening brace: ends of lines, as many as one likes, and blanks. -/
inductive Gap : List Char → Prop
  | blanks {blanks : List Char} : (∀ c ∈ blanks, isBlank c) → Gap blanks
  | lineEnd {ends gap : List Char} : LineEnd ends → Gap gap → Gap (ends ++ gap)

/-- A text as a bare word or in quotes. -/
inductive Spelling (text : String) : List Char → Prop
  | bare : Bare text.toList → Spelling text text.toList
  | quoted {breaks : Nat} {chars : List Char} :
      Quoted breaks text.toList chars → Spelling text ('"' :: chars)

/-- A key, and data behind at least one blank. Empty data may be left out. -/
inductive HeadText (key : String) : (data : String) → List Char → Prop
  | key {k : List Char} : Spelling key k → HeadText key "" k
  | keyAndData {data : String} {k blanks d : List Char} :
      Spelling key k → blanks ≠ [] → (∀ c ∈ blanks, isBlank c) → Spelling data d →
      HeadText key data (k ++ blanks ++ d)

/-- The line that comes after some characters, counted from 1. -/
def lineAfter (before : List Char) : Nat := 1 + before.count '\n'

/-- The characters that render trees behind other characters. The flag tells whether an entry may
start here: behind an entry its line has to end first. -/
inductive Rendering : (free : Bool) → (before : List Char) → List Node → List Char → Prop
  | done {free : Bool} {before blanks : List Char} :
      (∀ c ∈ blanks, isBlank c) → Rendering free before [] blanks
  | lineEnd {free : Bool} {before ends cs : List Char} {nodes : List Node} :
      LineEnd ends → Rendering true (before ++ ends) nodes cs →
      Rendering free before nodes (ends ++ cs)
  | plain {before indent head cs : List Char} {key data : String} {nodes : List Node} :
      (∀ c ∈ indent, isBlank c) → HeadText key data head →
      Rendering false (before ++ (indent ++ head)) nodes cs →
      Rendering true before (⟨lineAfter (before ++ indent), key, data, []⟩ :: nodes)
        (indent ++ head ++ cs)
  | block {before indent head gap inner cs : List Char} {key data : String}
      {children nodes : List Node} :
      (∀ c ∈ indent, isBlank c) → HeadText key data head → Gap gap →
      Rendering true (before ++ (indent ++ head ++ gap ++ ['\x7b'])) children inner →
      Rendering false (before ++ (indent ++ head ++ gap ++ '\x7b' :: inner ++ ['\x7d'])) nodes cs →
      Rendering true before (⟨lineAfter (before ++ indent), key, data, children⟩ :: nodes)
        (indent ++ head ++ gap ++ '\x7b' :: inner ++ '\x7d' :: cs)

/-- A text renders trees. The line of each entry is the one where its key starts. -/
def RenderedAs (nodes : List Node) (text : String) : Prop := Rendering true [] nodes text.toList

theorem no_blanks : ∀ c ∈ ([] : List Char), isBlank c := by simp

theorem blank_alone {b : Char} (h : isBlank b) : ∀ c ∈ [b], isBlank c :=
  List.forall_mem_singleton.mpr h

theorem lineEnd_break : LineEnd ['\n'] := .plain no_blanks

/-! ## Counting lines -/

theorem lineAfter_append (before cs : List Char) :
    lineAfter (before ++ cs) = lineAfter before + cs.count '\n' := by
  unfold lineAfter
  rw [List.count_append, Nat.add_assoc]

theorem lineAfter_snoc (before : List Char) {c : Char} (h : c ≠ '\n') :
    lineAfter (before ++ [c]) = lineAfter before := by
  rw [lineAfter_append, List.count_cons_of_ne h, List.count_nil, Nat.add_zero]

theorem count_blanks {blanks : List Char} (h : ∀ c ∈ blanks, isBlank c) :
    blanks.count '\n' = 0 := by
  rw [List.count_eq_zero]
  intro hmem
  exact absurd (h _ hmem) (by decide)

theorem LineEnd.count {ends : List Char} (h : LineEnd ends) : ends.count '\n' = 1 := by
  cases h with
  | plain hblanks => simp [count_blanks hblanks]
  | comment hblanks hremark => simp [count_blanks hblanks, List.count_eq_zero.mpr hremark]

theorem Bare.count {w : List Char} (h : Bare w) : w.count '\n' = 0 := by
  rw [List.count_eq_zero]
  intro hmem
  exact absurd (h.inside _ hmem) (by decide)

theorem Quoted.count {breaks : Nat} {text chars : List Char} (h : Quoted breaks text chars) :
    chars.count '\n' = breaks := by
  induction h with
  | close => rfl
  | plain hbreak _ _ _ ih => simp [ih, hbreak]
  | @escape n c e text cs hescaped _ ih =>
    have he : e ≠ '\n' := by
      rintro rfl
      cases hescaped
    simp [ih, he]
  | goOn hbefore hbehind hindent _ ih =>
    simp [ih, count_blanks hbefore, count_blanks hbehind, count_blanks hindent]

/-! ## Layouts of the pieces -/

namespace Layout

variable {line : Nat} {ts : List Placed} {cs : List Char}

theorem blanks {blanks : List Char} (hblanks : ∀ c ∈ blanks, isBlank c)
    (h : Layout line ts cs) : Layout line ts (blanks ++ cs) := by
  induction blanks with
  | nil => exact h
  | cons c blanks ih =>
    refine .blank (hblanks c List.mem_cons_self) (ih fun d hd => ?_)
    exact hblanks d (List.mem_cons_of_mem c hd)

theorem lineEnd {ends : List Char} (hends : LineEnd ends) (h : Layout (line + 1) ts cs) :
    Layout line (⟨.lineBreak, line⟩ :: ts) (ends ++ cs) := by
  cases hends with
  | plain hblanks =>
    rw [List.append_assoc]
    exact .blanks hblanks (.lineBreak h)
  | comment hblanks hremark =>
    rw [List.append_assoc, List.append_assoc]
    exact .blanks hblanks (.comment hremark (by simp) (.lineBreak h))

theorem gap {gap : List Char} (hgap : Gap gap) (h : Layout (line + gap.count '\n') ts cs) :
    ∃ breaks : List Placed, (∀ t ∈ breaks, t.token = .lineBreak) ∧
      Layout line (breaks ++ ts) (gap ++ cs) := by
  induction hgap generalizing line with
  | blanks hblanks =>
    rw [count_blanks hblanks] at h
    exact ⟨[], by simp, .blanks hblanks h⟩
  | @lineEnd ends gap hends _ ih =>
    rw [List.count_append, hends.count, ← Nat.add_assoc] at h
    obtain ⟨breaks, hbreaks, hlayout⟩ := ih h
    refine ⟨⟨.lineBreak, line⟩ :: breaks, ?_, ?_⟩
    · intro t ht
      rcases List.mem_cons.mp ht with rfl | ht
      · rfl
      · exact hbreaks t ht
    · rw [List.append_assoc]
      exact .lineEnd hends hlayout

theorem spelling {text : String} {chars : List Char} (hchars : Spelling text chars)
    (hcs : ∀ c ∈ cs.head?, endsWord c) (h : Layout (line + chars.count '\n') ts cs) :
    Layout line (⟨.text text, line⟩ :: ts) (chars ++ cs) := by
  cases hchars with
  | bare hbare =>
    rw [hbare.count] at h
    simpa using Layout.word hbare hcs h
  | @quoted breaks chars hquoted =>
    have hcount : ('"' :: chars).count '\n' = breaks := by
      rw [List.count_cons_of_ne (by decide), hquoted.count]
    rw [hcount] at h
    simpa using Layout.quotes hquoted h

theorem head {key data : String} {chars : List Char} (hchars : HeadText key data chars)
    (hcs : ∀ c ∈ cs.head?, endsWord c) (h : Layout (line + chars.count '\n') ts cs) :
    ∃ head, Head line key data head ∧ Layout line (head ++ ts) (chars ++ cs) := by
  cases hchars with
  | key hkey => exact ⟨_, .key, .spelling hkey hcs h⟩
  | @keyAndData data k blanks d hkey hne hblanks hdata =>
    have hends : ∀ c ∈ (blanks ++ (d ++ cs)).head?, endsWord c := by
      obtain ⟨b, rest, rfl⟩ := List.exists_cons_of_ne_nil hne
      simpa using endsWord_of_blank (hblanks b List.mem_cons_self)
    rw [List.count_append, List.count_append, count_blanks hblanks, Nat.add_zero,
      ← Nat.add_assoc] at h
    refine ⟨[⟨.text key, line⟩, ⟨.text data, line + k.count '\n'⟩], .keyAndData, ?_⟩
    rw [List.append_assoc, List.append_assoc]
    exact .spelling hkey hends (.blanks hblanks (.spelling hdata hcs h))

end Layout

/-! ## Layouts of renderings -/

theorem endsWord_head_blanks {blanks cs : List Char} (hblanks : ∀ c ∈ blanks, isBlank c)
    (hcs : ∀ c ∈ cs.head?, endsWord c) : ∀ c ∈ (blanks ++ cs).head?, endsWord c := by
  cases blanks with
  | nil => exact hcs
  | cons b blanks => simpa using endsWord_of_blank (hblanks b List.mem_cons_self)

theorem LineEnd.endsWord_head {ends : List Char} (h : LineEnd ends) (cs : List Char) :
    ∀ c ∈ (ends ++ cs).head?, endsWord c := by
  cases h with
  | plain hblanks =>
    rw [List.append_assoc]
    exact endsWord_head_blanks hblanks (by simp; decide)
  | comment hblanks _ =>
    rw [List.append_assoc, List.append_assoc]
    exact endsWord_head_blanks hblanks (by simp; decide)

theorem Gap.endsWord_head {gap cs : List Char} (h : Gap gap) (hcs : ∀ c ∈ cs.head?, endsWord c) :
    ∀ c ∈ (gap ++ cs).head?, endsWord c := by
  cases h with
  | blanks hblanks => exact endsWord_head_blanks hblanks hcs
  | lineEnd hends _ =>
    rw [List.append_assoc]
    exact hends.endsWord_head _

variable {free : Bool} {before cs : List Char} {nodes : List Node}

/-- A word in front of a rendering that has to end a line first ends there. -/
theorem Rendering.endsWord_head (h : Rendering false before nodes cs) {cs' : List Char}
    (hcs' : ∀ c ∈ cs'.head?, endsWord c) : ∀ c ∈ (cs ++ cs').head?, endsWord c := by
  cases h with
  | done hblanks => exact endsWord_head_blanks hblanks hcs'
  | lineEnd hends _ =>
    rw [List.append_assoc]
    exact hends.endsWord_head _

/-- The tokens of a rendering are in the grammar, in front of whatever ends the last word. -/
theorem Rendering.layout (h : Rendering free before nodes cs) {ts' : List Placed} {cs' : List Char}
    (hcs' : ∀ c ∈ cs'.head?, endsWord c) (h' : Layout (lineAfter (before ++ cs)) ts' cs') :
    ∃ ts, Layout (lineAfter before) (ts ++ ts') (cs ++ cs') ∧ Forest ts nodes ∧
      (free = false → ∀ t ∈ ts.head?, t.token = .lineBreak) := by
  induction h generalizing ts' cs' with
  | @done free before blanks hblanks =>
    rw [lineAfter_append, count_blanks hblanks] at h'
    exact ⟨[], .blanks hblanks h', .nil, by simp⟩
  | @lineEnd free before ends cs nodes hends h ih =>
    rw [← List.append_assoc] at h'
    obtain ⟨ts, hlayout, hforest, -⟩ := ih hcs' h'
    rw [lineAfter_append, hends.count] at hlayout
    refine ⟨⟨.lineBreak, lineAfter before⟩ :: ts, ?_, hforest.lineBreak, by simp⟩
    rw [List.append_assoc]
    exact .lineEnd hends hlayout
  | @plain before indent head cs key data nodes hindent hhead h ih =>
    rw [← List.append_assoc] at h'
    obtain ⟨ts, hlayout, hforest, hbreak⟩ := ih hcs' h'
    rw [← List.append_assoc, lineAfter_append] at hlayout
    obtain ⟨front, hfront, hlayout⟩ := hlayout.head hhead (h.endsWord_head hcs')
    refine ⟨front ++ ts, ?_, .plain hfront (hbreak rfl) hforest, by simp⟩
    rw [lineAfter_append, count_blanks hindent, Nat.add_zero] at hlayout
    simpa using hlayout.blanks hindent
  | @block before indent head gap inner cs key data children nodes hindent hhead hgap hinner h
      ihinner ih =>
    have hbehind : before ++ (indent ++ head ++ gap ++ '\x7b' :: inner ++ '\x7d' :: cs) =
        before ++ (indent ++ head ++ gap ++ '\x7b' :: inner ++ ['\x7d']) ++ cs := by simp
    rw [hbehind] at h'
    obtain ⟨ts, hlayout, hforest, -⟩ := ih hcs' h'
    have hclosing : before ++ (indent ++ head ++ gap ++ '\x7b' :: inner ++ ['\x7d']) =
        before ++ (indent ++ head ++ gap ++ ['\x7b']) ++ inner ++ ['\x7d'] := by simp
    rw [hclosing, lineAfter_snoc _ (by decide)] at hlayout
    obtain ⟨within, hlayout, hwithin, -⟩ := ihinner (by simp; decide) hlayout.closing
    generalize lineAfter (before ++ (indent ++ head ++ gap ++ ['\x7b']) ++ inner) = closed
      at hlayout
    have hopening : before ++ (indent ++ head ++ gap ++ ['\x7b']) =
        before ++ indent ++ head ++ gap ++ ['\x7b'] := by simp
    rw [hopening, lineAfter_snoc _ (by decide), lineAfter_append] at hlayout
    obtain ⟨breaks, hbreaks, hlayout⟩ := hlayout.opening.gap hgap
    generalize lineAfter (before ++ indent ++ head) + gap.count '\n' = opened at hlayout
    rw [lineAfter_append] at hlayout
    obtain ⟨front, hfront, hlayout⟩ :=
      hlayout.head hhead (hgap.endsWord_head (by simp; decide))
    rw [lineAfter_append, count_blanks hindent, Nat.add_zero] at hlayout
    refine ⟨front ++ breaks ++ ⟨.opening, opened⟩ :: within ++ ⟨.closing, closed⟩ :: ts, ?_, ?_,
      by simp⟩
    · simpa using hlayout.blanks hindent
    · rw [lineAfter_append, count_blanks hindent, Nat.add_zero] at hfront ⊢
      exact .block hfront hbreaks hwithin hforest

/-! ## Trees without lines -/

/-- An entry without its place in a text. -/
inductive Tree where
  | entry (key data : String) (children : List Tree)

mutual

/-- What an entry says, wherever it stands. -/
def Node.tree : Node → Tree
  | ⟨_, key, data, children⟩ => .entry key data (trees children)

def trees : List Node → List Tree
  | [] => []
  | node :: nodes => node.tree :: trees nodes

end

mutual

/-- One way to write a tree. -/
def Tree.chars : Tree → List Char
  | .entry key data children => entry key data (some (forestChars children))

def forestChars : List Tree → List Char
  | [] => []
  | tree :: rest => tree.chars ++ forestChars rest

end

theorem spelling_put (text : String) : Spelling text (put text.toList) := by
  unfold put
  split
  next hbare => exact .bare (bare_of_isBare hbare)
  next => exact .quoted (quoted_escape text.toList)

theorem headText_put (key data : String) :
    HeadText key data (put key.toList ++ [' '] ++ put data.toList) :=
  .keyAndData (spelling_put key) (by simp) (blank_alone rfl) (spelling_put data)

theorem forestChars_cons (key data : String) (children rest : List Tree) :
    forestChars (.entry key data children :: rest) =
      [] ++ (put key.toList ++ [' '] ++ put data.toList) ++ [' '] ++
        '\x7b' :: (['\n'] ++ forestChars children) ++ '\x7d' :: (['\n'] ++ forestChars rest) := by
  simp [forestChars, Tree.chars, Info.entry]

/-- Every forest can be written, behind whatever stands there already. -/
theorem exists_rendering (before : List Char) : ∀ forest : List Tree,
    ∃ nodes, trees nodes = forest ∧ Rendering true before nodes (forestChars forest)
  | [] => by
    rw [forestChars]
    exact ⟨[], rfl, .done no_blanks⟩
  | .entry key data children :: rest => by
    obtain ⟨inner, hinner, hchildren⟩ := exists_rendering
      (before ++ ([] ++ (put key.toList ++ [' '] ++ put data.toList) ++ [' '] ++ ['\x7b']) ++
        ['\n']) children
    obtain ⟨nodes, hnodes, hrest⟩ := exists_rendering
      (before ++ ([] ++ (put key.toList ++ [' '] ++ put data.toList) ++ [' '] ++
        '\x7b' :: (['\n'] ++ forestChars children) ++ ['\x7d']) ++ ['\n']) rest
    refine ⟨⟨lineAfter (before ++ []), key, data, inner⟩ :: nodes, ?_, ?_⟩
    · simp [trees, Node.tree, hinner, hnodes]
    · rw [forestChars_cons]
      exact .block no_blanks (headText_put key data) (.blanks (blank_alone rfl))
        (.lineEnd lineEnd_break hchildren) (.lineEnd lineEnd_break hrest)

/-! ## The law -/

/-- Every forest has renderings, and whichever text renders it is read as the forest, each entry
with the line of its key: blanks, blank lines, comments, the places of braces, quotes and the breaks
inside them make no difference. -/
theorem the_layout_of_a_text_does_not_show :
    (∀ forest : List Tree, ∃ text nodes, RenderedAs nodes text ∧ trees nodes = forest) ∧
    ∀ nodes text, RenderedAs nodes text → parse text = .ok nodes := by
  refine ⟨fun forest => ?_, fun nodes text h => ?_⟩
  · obtain ⟨nodes, htrees, hrender⟩ := exists_rendering [] forest
    refine ⟨String.ofList (forestChars forest), nodes, ?_, htrees⟩
    rw [RenderedAs, String.toList_ofList]
    exact hrender
  · have hend : ∀ c ∈ ([] : List Char).head?, endsWord c := by simp
    obtain ⟨ts, hlayout, hforest, -⟩ := h.layout hend .nil
    rw [List.append_nil, List.append_nil] at hlayout
    exact parse_layout hlayout hforest

/-- A comment first, data in two pieces, the brace two lines below its key. -/
def spreadOut : String :=
  String.ofList <| [';', 't', 'o', 'p', '\n'] ++
    (['\t'] ++ ['a', ' ', '"', 'x', '\\', '"', '"', '\\', '\n', ' ', '"', 'y', '"'] ++
      [' ', ';', 'w', 'h', 'y', '\r', '\n', '\n', ' '] ++ '\x7b' :: ['b', '\n'] ++ '\x7d' :: [])

theorem renderedAs_spreadOut : RenderedAs [⟨2, "a", "x\"y", [⟨5, "b", "", []⟩]⟩] spreadOut := by
  have htop : LineEnd ([] ++ ';' :: ['t', 'o', 'p'] ++ ['\n']) := .comment no_blanks (by decide)
  have hwhy : LineEnd ([' '] ++ ';' :: ['w', 'h', 'y', '\r'] ++ ['\n']) :=
    .comment (blank_alone rfl) (by decide)
  have hgap : Gap (_ ++ (_ ++ [' '])) :=
    .lineEnd hwhy (.lineEnd lineEnd_break (.blanks (blank_alone rfl)))
  have hy : Quoted 0 ['y'] ['y', '"'] := .plain (by decide) (by decide) (by decide) .close
  have hsplit : Quoted 1 ['y'] ('"' :: [] ++ '\\' :: [] ++ '\n' :: [' '] ++ '"' :: ['y', '"']) :=
    .goOn no_blanks no_blanks (blank_alone rfl) hy
  have hquote : escaped? '"' = some '"' := rfl
  have hwhole : Quoted 1 ['x', '"', 'y'] _ :=
    .plain (by decide) (by decide) (by decide) (.escape hquote hsplit)
  have hdata : Spelling "x\"y" _ := .quoted hwhole
  have ha : Spelling "a" ['a'] := .bare (bare_of_isBare (by decide))
  have hb : Spelling "b" ['b'] := .bare (bare_of_isBare (by decide))
  have hhead : HeadText "a" "x\"y" (_ ++ [' '] ++ _) :=
    .keyAndData ha (by decide) (blank_alone rfl) hdata
  have hinner : ∀ before,
      Rendering true before [⟨lineAfter (before ++ []), "b", "", []⟩] ['b', '\n'] :=
    fun before => .plain no_blanks (.key hb) (.lineEnd lineEnd_break (.done no_blanks))
  have hindent : ∀ c ∈ ['\t'], isBlank c := blank_alone rfl
  unfold RenderedAs spreadOut
  rw [String.toList_ofList]
  exact .lineEnd htop (.block hindent hhead hgap (hinner _) (.done no_blanks))

theorem a_spread_out_text_is_read_back :
    parse spreadOut = .ok [⟨2, "a", "x\"y", [⟨5, "b", "", []⟩]⟩] :=
  the_layout_of_a_text_does_not_show.2 _ _ renderedAs_spreadOut

end ZigbeeGateway.Info
