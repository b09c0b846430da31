-- What becomes of tokens: each text and each brace of them has its entry, and each entry its node.
import Mathlib.Data.List.Forall2
import ZigbeeGateway.Proofs.Info.Derivations
namespace ZigbeeGateway.Info

/-! ## Texts, braces and nodes -/

def Placed.isText (t : Placed) : Bool :=
  match t.token with
  | .text _ => true
  | _ => false

/-- Where a token stands among others, counted on from a start. -/
def places (token : Token) (start : Nat) : List Placed → List Nat
  | [] => []
  | t :: ts =>
    if t.token = token then start :: places token (start + 1) ts else places token (start + 1) ts

theorem places_append (token : Token) (start : Nat) (ts ts' : List Placed) :
    places token start (ts ++ ts') =
      places token start ts ++ places token (start + ts.length) ts' := by
  induction ts generalizing start with
  | nil => rfl
  | cons t ts ih =>
    have hstart : start + 1 + ts.length = start + (t :: ts).length := by
      rw [List.length_cons, Nat.add_comm ts.length, Nat.add_assoc]
    rw [List.cons_append, places, places, ih, hstart]
    split <;> rfl

/-- An entry with the places of the braces around its block. -/
structure Entry where
  heading : Heading
  braces : Option (Nat × Nat)
deriving DecidableEq, Repr

/-- A node shows its entry. Without braces it has no children. -/
def Entry.ShownBy (e : Entry) (node : Node) : Prop :=
  node = e.heading.node node.children ∧ (e.braces = none → node.children = [])

/-- The entries of a derivation from a place on, each in front of those in its block. -/
def Derivation.entries (start : Nat) : Derivation → List Entry
  | done => []
  | lineBreak _ rest => rest.entries (start + 1)
  | plain heading rest => ⟨heading, none⟩ :: rest.entries (start + heading.tokens.length)
  | block heading breaks _ inner _ rest =>
    let opened := start + heading.tokens.length + breaks.length
    let closed := opened + 1 + inner.tokens.length
    ⟨heading, some (opened, closed)⟩ :: (inner.entries (opened + 1) ++ rest.entries (closed + 1))

mutual

/-- A node in front of those in its block. -/
def Node.preorder : Node → List Node
  | ⟨line, key, data, children⟩ => ⟨line, key, data, children⟩ :: preorder children

def preorder : List Node → List Node
  | [] => []
  | node :: nodes => node.preorder ++ preorder nodes

end

/-- The texts of tokens are those of the headings, in their order; each brace stands around the
block of one entry; and the nodes show the entries, one after the other. -/
structure Derivation.Accounts (d : Derivation) (ts : List Placed) : Prop where
  texts : ts.filter (·.isText) = (d.entries 0).flatMap (·.heading.tokens)
  openings : places .opening 0 ts = (d.entries 0).filterMap (·.braces.map Prod.fst)
  closings : (places .closing 0 ts).Perm ((d.entries 0).filterMap (·.braces.map Prod.snd))
  nodes : List.Forall₂ Entry.ShownBy (d.entries 0) (preorder d.nodes)

namespace Heading

theorem filter_isText (h : Heading) : h.tokens.filter (·.isText) = h.tokens := by
  obtain ⟨_, _, _ | _⟩ := h <;> rfl

theorem places_tokens (h : Heading) {token : Token} (htoken : ∀ s, token ≠ .text s) (start : Nat) :
    places token start h.tokens = [] := by
  obtain ⟨_, _, _ | _⟩ := h <;> simp [tokens, places, (htoken _).symm]

end Heading

theorem places_breaks {token : Token} (htoken : token ≠ .lineBreak) (start : Nat)
    (breaks : List Nat) : places token start (breaks.map (⟨.lineBreak, ·⟩)) = [] := by
  induction breaks generalizing start with
  | nil => rfl
  | cons l breaks ih => simp [places, htoken.symm, ih]

namespace Derivation

theorem texts_eq (d : Derivation) (start : Nat) :
    d.tokens.filter (·.isText) = (d.entries start).flatMap (·.heading.tokens) := by
  induction d generalizing start with
  | done => rfl
  | lineBreak line rest ih => exact ih (start + 1)
  | plain heading rest ih =>
    rw [tokens, List.filter_append, heading.filter_isText, entries, List.flatMap_cons]
    exact congrArg _ (ih _)
  | block heading breaks opened inner closed rest ihinner ih =>
    have hbreaks : (breaks.map (⟨.lineBreak, ·⟩ : Nat → Placed)).filter (·.isText) = [] := by
      simp [Placed.isText]
    rw [tokens, List.filter_append, heading.filter_isText, List.filter_append, hbreaks, entries,
      List.flatMap_cons, List.flatMap_append, ← ihinner, ← ih]
    simp [Placed.isText]

/-- The places of a brace in an entry with a block: one is around the block, the others are in it
or behind it. -/
theorem places_block {token : Token} (htext : ∀ s, token ≠ .text s) (hbreak : token ≠ .lineBreak)
    (start : Nat) (heading : Heading) (breaks : List Nat) (opened closed : Nat)
    (inner rest : Derivation) :
    let first := start + heading.tokens.length + breaks.length
    let last := first + 1 + inner.tokens.length
    places token start (block heading breaks opened inner closed rest).tokens =
      (if Token.opening = token then [first] else []) ++ places token (first + 1) inner.tokens ++
        (if Token.closing = token then [last] else []) ++ places token (last + 1) rest.tokens := by
  intro first last
  rw [tokens, places_append, heading.places_tokens htext, places_append,
    places_breaks hbreak, List.length_map, places, places_append, places]
  split <;> split <;> simp [first, last]

theorem openings_eq (d : Derivation) (start : Nat) :
    places .opening start d.tokens = (d.entries start).filterMap (·.braces.map Prod.fst) := by
  induction d generalizing start with
  | done => rfl
  | lineBreak line rest ih => exact ih (start + 1)
  | plain heading rest ih =>
    rw [tokens, places_append, heading.places_tokens (by simp), entries]
    exact ih _
  | block heading breaks opened inner closed rest ihinner ih =>
    rw [places_block (by simp) (by simp), entries, ihinner, ih]
    simp

theorem closings_perm (d : Derivation) (start : Nat) :
    (places .closing start d.tokens).Perm
      ((d.entries start).filterMap (·.braces.map Prod.snd)) := by
  induction d generalizing start with
  | done => exact .nil
  | lineBreak line rest ih => exact ih (start + 1)
  | plain heading rest ih =>
    rw [tokens, places_append, heading.places_tokens (by simp), entries]
    exact ih _
  | block heading breaks opened inner closed rest ihinner ih =>
    rw [places_block (by simp) (by simp), entries]
    -- The closing brace stands behind the block, its entry in front of it.
    simpa using List.perm_middle.trans (.cons _ ((ihinner _).append (ih _)))

theorem nodes_shown (d : Derivation) (start : Nat) :
    List.Forall₂ Entry.ShownBy (d.entries start) (preorder d.nodes) := by
  induction d generalizing start with
  | done => exact .nil
  | lineBreak line rest ih => exact ih (start + 1)
  | plain heading rest ih => exact .cons ⟨rfl, fun _ => rfl⟩ (ih _)
  | block heading breaks opened inner closed rest ihinner ih =>
    exact .cons ⟨rfl, fun h => nomatch h⟩ (List.rel_append (ihinner _) (ih _))

theorem accounts (d : Derivation) : d.Accounts d.tokens :=
  ⟨d.texts_eq 0, d.openings_eq 0, d.closings_perm 0, d.nodes_shown 0⟩

end Derivation

/-! ## The law -/

/-- The grammar is what is read, and nothing is lost. A text is read if and only if its tokens have a
derivation, which is then the only one and gives the trees; every text among the tokens is the key
or the data of one node, in their order, and every pair of braces stands around the block of one.
All other tokens are refused, and a descent never comes to a line break behind those it skipped. -/
theorem a_text_is_read_by_its_only_derivation {text : String} {ts : List Placed}
    (h : tokens text.toList = .ok ts) :
    (∀ ns, parse text = .ok ns ↔ ∃ d : Derivation, d.Derives ts ∧ d.nodes = ns) ∧
      (∀ d d' : Derivation, d.Derives ts → d'.Derives ts → d = d') ∧
      (∀ d : Derivation, d.Derives ts → d.Accounts ts) ∧
      ((¬∃ d : Derivation, d.Derives ts) → ∃ e, parse text = .error e) ∧
      descend ts = (parse text).mapError .schema ∧ descend ts ≠ .error .lineBreakLeft := by
  have hparse : parse text = nodes ts := by
    rw [parse, h]
    rfl
  have hread : ∀ ns, nodes ts = .ok ns ↔ ∃ d : Derivation, d.Derives ts ∧ d.nodes = ns := by
    refine fun ns => ⟨Descent.exists_derivation, ?_⟩
    rintro ⟨d, ⟨hlawful, rfl⟩, rfl⟩
    exact (Derivation.forest hlawful).nodes_eq
  rw [hparse, Descent.descend_eq]
  refine ⟨hread, fun d d' hd hd' => hd.unique hd', ?_, fun hno => ?_, rfl, ?_⟩
  · rintro d ⟨-, rfl⟩
    exact d.accounts
  · cases hnodes : nodes ts with
    | error e => exact ⟨e, rfl⟩
    | ok ns => exact absurd ((hread ns).mp hnodes |>.imp fun _ => And.left) hno
  · cases nodes ts with
    | error e => exact fun he => nomatch he
    | ok ns => exact fun he => nomatch he

/-- A block in the line below its key, and an entry behind it. -/
theorem an_entry_with_its_block_below_is_read :
    tokens "a b\n\x7b c \x7d\nd".toList = .ok [⟨.text "a", 1⟩, ⟨.text "b", 1⟩, ⟨.lineBreak, 1⟩,
        ⟨.opening, 2⟩, ⟨.text "c", 2⟩, ⟨.closing, 2⟩, ⟨.lineBreak, 2⟩, ⟨.text "d", 3⟩] ∧
      parse "a b\n\x7b c \x7d\nd" = .ok [⟨1, "a", "b", [⟨2, "c", "", []⟩]⟩, ⟨3, "d", "", []⟩] := by
  have htokens : tokens "a b\n\x7b c \x7d\nd".toList = .ok [⟨.text "a", 1⟩, ⟨.text "b", 1⟩,
      ⟨.lineBreak, 1⟩, ⟨.opening, 2⟩, ⟨.text "c", 2⟩, ⟨.closing, 2⟩, ⟨.lineBreak, 2⟩,
      ⟨.text "d", 3⟩] := by
    decide +kernel
  have hderives : Derivation.Derives (.block ⟨1, "a", some ("b", 1)⟩ [1] 2
      (.plain ⟨2, "c", none⟩ .done) 2 (.lineBreak 2 (.plain ⟨3, "d", none⟩ .done))) _ :=
    ⟨⟨⟨rfl, trivial⟩, rfl, trivial⟩, rfl⟩
  exact ⟨htokens, ((a_text_is_read_by_its_only_derivation htokens).1 _).mpr ⟨_, hderives, rfl⟩⟩

end ZigbeeGateway.Info
