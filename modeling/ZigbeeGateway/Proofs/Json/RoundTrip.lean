-- A value survives being written as JSON text and read again, as far as JSON can hold it. The
-- text of a value is read as a tree, and the tree means the value.
import ZigbeeGateway.Proofs.Json.Meaning
import ZigbeeGateway.Proofs.Json.Nesting
import ZigbeeGateway.Proofs.Json.NumberTexts
import ZigbeeGateway.Proofs.Json.Printing
import ZigbeeGateway.Proofs.Json.Strings
namespace ZigbeeGateway

namespace Json

/-! ## Where a value starts -/

theorem skipBlanks_cons {c : Char} (h : isBlank c = false) (cs : List Char) :
    skipBlanks (c :: cs) = c :: cs := by
  rw [skipBlanks, List.dropWhile_cons, h]
  rfl

theorem isBlank_of_isDigit {c : Char} (h : c.isDigit = true) : isBlank c = false := by
  by_contra hblank
  simp only [isBlank, Bool.not_eq_false, Bool.or_eq_true, beq_iff_eq] at hblank
  rcases hblank with ((rfl | rfl) | rfl) | rfl <;> cases h

/-- A text starts, and with neither a blank nor the end of a list. -/
def Starts (cs : List Char) : Prop := ∃ c tail, cs = c :: tail ∧ isBlank c = false ∧ c ≠ ']'

namespace Number

/-- A number starts with its sign or a digit. -/
theorem text_head {n : Number} (h : n.Legal) :
    ∃ c tail, n.text = c :: tail ∧ (c = '-' ∨ c.isDigit = true) := by
  unfold text
  split
  · exact ⟨'-', _, rfl, Or.inl rfl⟩
  · obtain ⟨c, tail, hc⟩ := List.exists_cons_of_ne_nil h.whole.1
    refine ⟨c, _, by rw [magnitudeText, hc]; rfl, Or.inr (h.whole.2 c ?_)⟩
    rw [hc]
    exact List.mem_cons_self

theorem starts_text {n : Number} (h : n.Legal) : Starts n.text := by
  obtain ⟨c, tail, htext, hc⟩ := text_head h
  refine ⟨c, tail, htext, ?_, ?_⟩
  · rcases hc with rfl | hc
    · rfl
    · exact isBlank_of_isDigit hc
  · rintro rfl
    rcases hc with hc | hc <;> cases hc

end Number

/-- What starts with a sign or a digit is read as a number. -/
theorem value?_of_number {c : Char} (h : c = '-' ∨ c.isDigit = true) (fuel : Nat)
    (cs : List Char) :
    value? (fuel + 1) (c :: cs) =
      (number? (c :: cs)).map fun (n, rest) => (.number n, rest) := by
  have hblank : isBlank c = false := by
    rcases h with rfl | h
    · rfl
    · exact isBlank_of_isDigit h
  rw [value?, skipBlanks_cons hblank]
  split <;> first
  | rfl
  | rename_i heq
    obtain ⟨rfl, -⟩ := List.cons.inj heq
    rcases h with h | h <;> cases h

/-! ## Reading a value -/

/-- The text of a value is read as a tree, with one step of reading for each character and one
more, and the tree means the value if arrays and objects may nest as deep as it does. -/
structure Prints (v : Value) (tree : Tree) : Prop where
  starts : Starts (chars v)
  reads : ∀ fuel rest, (chars v).length < fuel → Ends rest →
    value? fuel (chars v ++ rest) = some (tree, rest)
  means : ∀ room, v.nesting ≤ room → tree.toValue? room = some v.asJson

theorem ends_comma (rest : List Char) : Ends (',' :: rest) := by
  rintro c ⟨⟩
  exact Or.inl rfl

theorem ends_bracket (rest : List Char) : Ends (']' :: rest) := by
  rintro c ⟨⟩
  exact Or.inr (Or.inl rfl)

theorem ends_brace (rest : List Char) : Ends ('\x7d' :: rest) := by
  rintro c ⟨⟩
  exact Or.inr (Or.inr rfl)

theorem prints_number {v : Value} {n : Number} (hlegal : n.Legal) (htext : chars v = n.text)
    (hv : n.toValue? = some v.asJson) : Prints v (.number n) where
  starts := htext ▸ Number.starts_text hlegal
  reads := by
    intro fuel rest hfuel hrest
    obtain ⟨c, tail, hcons, hc⟩ := Number.text_head hlegal
    have hnumber := Number.number?_text hlegal hrest
    obtain ⟨fuel, rfl⟩ := Nat.exists_eq_add_one_of_ne_zero (Nat.ne_zero_of_lt hfuel)
    rw [htext]
    rw [hcons, List.cons_append] at hnumber ⊢
    rw [value?_of_number hc, hnumber]
    rfl
  means := by
    intro room _
    rw [Tree.toValue?.eq_def]
    exact hv

theorem prints_text {v : Value} {s : String} (htext : chars v = quoted s)
    (hv : v.asJson = .text s) : Prints v (.string (s.toList.map partOf)) where
  starts := ⟨'"', _, htext, rfl, by decide⟩
  reads := by
    intro fuel rest hfuel _
    obtain ⟨tail, hquoted, hparts⟩ := stringParts_quoted s rest
    obtain ⟨fuel, rfl⟩ := Nat.exists_eq_add_one_of_ne_zero (Nat.ne_zero_of_lt hfuel)
    rw [htext, hquoted, value?, skipBlanks_cons rfl]
    simp only [hparts, Option.map_some]
  means := by
    intro room _
    rw [Tree.toValue?.eq_def]
    simp only [text?_parts, Option.map_some, hv]

theorem prints_null {v : Value} (htext : chars v = "null".toList) (hv : v.asJson = .null) :
    Prints v .null where
  starts := ⟨'n', _, htext, rfl, by decide⟩
  reads := by
    intro fuel rest hfuel _
    obtain ⟨fuel, rfl⟩ := Nat.exists_eq_add_one_of_ne_zero (Nat.ne_zero_of_lt hfuel)
    rw [htext]
    rfl
  means := by
    intro room _
    rw [Tree.toValue?.eq_def, hv]

theorem prints_bool (b : Bool) : Prints (.bool b) (.bool b) where
  starts := by
    cases b
    · exact ⟨'f', _, rfl, rfl, by decide⟩
    · exact ⟨'t', _, rfl, rfl, by decide⟩
  reads := by
    intro fuel rest hfuel _
    obtain ⟨fuel, rfl⟩ := Nat.exists_eq_add_one_of_ne_zero (Nat.ne_zero_of_lt hfuel)
    cases b <;> rfl
  means := by
    intro room _
    rw [Tree.toValue?.eq_def, Value.asJson]

/-! ## Reading a list -/

/-- Items are read up to the end of the list, one step of reading each. -/
theorem items?_chars {v : Value} {vs : List Value} {tree : Tree} {trees : List Tree}
    (hv : Prints v tree) (hvs : List.Forall₂ Prints vs trees) {fuel : Nat}
    (hfuel : (chars v ++ itemChars vs).length + 1 < fuel) (before : List Tree)
    (rest : List Char) :
    items? fuel before (chars v ++ (itemChars vs ++ ']' :: rest)) =
      some (.array (before.reverse ++ tree :: trees), rest) := by
  induction hvs generalizing v tree fuel before with
  | nil =>
    obtain ⟨fuel, rfl⟩ := Nat.exists_eq_add_one_of_ne_zero (Nat.ne_zero_of_lt hfuel)
    rw [itemChars, List.append_nil] at hfuel
    rw [items?, itemChars, List.nil_append, hv.reads fuel _ (by omega) (ends_bracket rest)]
    simp [skipBlanks_cons (show isBlank ']' = false from rfl)]
  | cons hv' _ ih =>
    obtain ⟨fuel, rfl⟩ := Nat.exists_eq_add_one_of_ne_zero (Nat.ne_zero_of_lt hfuel)
    simp only [itemChars, List.length_append, List.length_cons] at hfuel
    simp only [itemChars, List.cons_append, List.append_assoc]
    rw [items?, hv.reads fuel _ (by omega) (ends_comma _)]
    simp only [skipBlanks_cons (show isBlank ',' = false from rfl)]
    rw [ih hv' (by rw [List.length_append]; omega)]
    simp

theorem itemValues?_trees {vs : List Value} {trees : List Tree} (h : List.Forall₂ Prints vs trees)
    {room : Nat} (hroom : Value.itemNesting vs ≤ room) (before : List Value) :
    itemValues? room before trees = some (before.reverse ++ Value.itemsAsJson vs) := by
  induction h generalizing before with
  | nil => simp [itemValues?, Value.itemsAsJson]
  | cons hv _ ih =>
    rw [Value.itemNesting, Nat.max_le] at hroom
    simp [itemValues?, hv.means room hroom.1, ih hroom.2, Value.itemsAsJson]

theorem prints_list {vs : List Value} {trees : List Tree} (h : List.Forall₂ Prints vs trees) :
    Prints (.list vs) (.array trees) where
  starts := by
    cases vs with
    | nil => exact ⟨'[', _, rfl, rfl, by decide⟩
    | cons v vs => exact ⟨'[', _, by rw [chars], rfl, by decide⟩
  reads := by
    intro fuel rest hfuel _
    obtain ⟨fuel, rfl⟩ := Nat.exists_eq_add_one_of_ne_zero (Nat.ne_zero_of_lt hfuel)
    cases h with
    | nil => rfl
    | @cons v tree vs trees hv hvs =>
      obtain ⟨c, tail, hc, hblank, hbracket⟩ := hv.starts
      simp only [chars, List.length_append, List.length_cons, List.length_nil] at hfuel
      have hfuel' : (chars v ++ itemChars vs).length + 1 < fuel := by
        rw [List.length_append]
        omega
      have hitems := items?_chars hv hvs hfuel' [] rest
      simp only [chars, List.cons_append, List.append_assoc, List.nil_append]
      rw [value?, skipBlanks_cons rfl]
      rw [hc, List.cons_append] at hitems ⊢
      simp only [skipBlanks_cons hblank]
      -- no value starts like the end of a list, so this is not taken for the empty list
      split
      · rename_i heq
        exact absurd (List.cons.inj heq).1 hbracket
      · exact hitems
  means := by
    intro room hroom
    rw [Value.nesting] at hroom
    obtain ⟨room, rfl⟩ := Nat.exists_eq_add_one_of_ne_zero (Nat.ne_zero_of_lt hroom)
    rw [Tree.toValue?, itemValues?_trees h (by omega), Value.asJson]
    rfl

/-! ## Reading a record -/

/-- A member of an object is a field: the name is written in quotes, and the value is. -/
def PrintsField (entry : String × Value) (field : List StringPart × Tree) : Prop :=
  field.1 = entry.1.toList.map partOf ∧ Prints entry.2 field.2

/-- Fields are read up to the end of the record, one step of reading each. -/
theorem members?_chars (name : String) {v : Value} {fields : List (String × Value)} {tree : Tree}
    {trees : List (List StringPart × Tree)} (hv : Prints v tree)
    (hfields : List.Forall₂ PrintsField fields trees) {fuel : Nat}
    (hfuel : (chars v ++ fieldChars fields).length + 1 < fuel)
    (before : List (List StringPart × Tree)) (rest : List Char) :
    members? fuel before
        (quoted name ++ ':' :: (chars v ++ (fieldChars fields ++ '\x7d' :: rest))) =
      some (.object (before.reverse ++ (name.toList.map partOf, tree) :: trees), rest) := by
  induction hfields generalizing name v tree fuel before with
  | nil =>
    obtain ⟨fuel, rfl⟩ := Nat.exists_eq_add_one_of_ne_zero (Nat.ne_zero_of_lt hfuel)
    obtain ⟨tail, hquoted, hparts⟩ := stringParts_quoted name (':' :: (chars v ++ '\x7d' :: rest))
    rw [fieldChars, List.append_nil] at hfuel
    rw [members?, fieldChars, List.nil_append, hquoted, skipBlanks_cons rfl]
    simp only [hparts, skipBlanks_cons (show isBlank ':' = false from rfl)]
    rw [hv.reads fuel _ (by omega) (ends_brace rest)]
    simp [skipBlanks_cons (show isBlank '\x7d' = false from rfl)]
  | @cons entry field fields trees hentry _ ih =>
    obtain ⟨name', v'⟩ := entry
    obtain ⟨parts', tree'⟩ := field
    obtain ⟨hname, hv'⟩ : parts' = name'.toList.map partOf ∧ Prints v' tree' := hentry
    obtain ⟨fuel, rfl⟩ := Nat.exists_eq_add_one_of_ne_zero (Nat.ne_zero_of_lt hfuel)
    obtain ⟨tail, hquoted, hparts⟩ := stringParts_quoted name
      (':' :: (chars v ++ (fieldChars ((name', v') :: fields) ++ '\x7d' :: rest)))
    simp only [fieldChars, List.length_append, List.length_cons] at hfuel
    rw [members?, hquoted, skipBlanks_cons rfl]
    simp only [hparts, skipBlanks_cons (show isBlank ':' = false from rfl)]
    simp only [fieldChars, List.cons_append, List.append_assoc]
    rw [hv.reads fuel _ (by omega) (ends_comma _)]
    simp only [skipBlanks_cons (show isBlank ',' = false from rfl)]
    rw [ih name' hv' (by rw [List.length_append]; omega)]
    cases hname
    simp

theorem memberValues?_trees {fields : List (String × Value)}
    {trees : List (List StringPart × Tree)} (h : List.Forall₂ PrintsField fields trees)
    {room : Nat} (hroom : Value.fieldNesting fields ≤ room) (before : Fields Value) :
    memberValues? room before trees =
      some (Fields.setAll (Value.fieldsAsJson fields) before) := by
  induction h generalizing before with
  | nil => simp [memberValues?, Value.fieldsAsJson, Fields.setAll]
  | @cons entry field fields trees hentry _ ih =>
    obtain ⟨name, v⟩ := entry
    obtain ⟨parts, tree⟩ := field
    obtain ⟨hname, hv⟩ := hentry
    cases hname
    rw [Value.fieldNesting, Nat.max_le] at hroom
    simp [memberValues?, text?_parts, hv.means room hroom.1, ih hroom.2, Value.fieldsAsJson,
      Fields.setAll_cons]

theorem prints_record {fields : List (String × Value)} {trees : List (List StringPart × Tree)}
    (h : List.Forall₂ PrintsField fields trees) : Prints (.record fields) (.object trees) where
  starts := by
    cases fields with
    | nil => exact ⟨'\x7b', _, rfl, rfl, by decide⟩
    | cons entry fields => exact ⟨'\x7b', _, by rw [chars], rfl, by decide⟩
  reads := by
    intro fuel rest hfuel _
    obtain ⟨fuel, rfl⟩ := Nat.exists_eq_add_one_of_ne_zero (Nat.ne_zero_of_lt hfuel)
    cases h with
    | nil => rfl
    | @cons entry field fields trees hentry hfields =>
      obtain ⟨name, v⟩ := entry
      obtain ⟨parts, tree⟩ := field
      obtain ⟨hname, hv⟩ : parts = name.toList.map partOf ∧ Prints v tree := hentry
      cases hname
      simp only [chars, List.length_append, List.length_cons, List.length_nil] at hfuel
      have hfuel' : (chars v ++ fieldChars fields).length + 1 < fuel := by
        rw [List.length_append]
        omega
      have hmembers := members?_chars name hv hfields hfuel' [] rest
      obtain ⟨tail, hquoted, -⟩ := stringParts_quoted name
        (':' :: (chars v ++ (fieldChars fields ++ '\x7d' :: rest)))
      simp only [chars, List.cons_append, List.append_assoc, List.nil_append]
      rw [value?, skipBlanks_cons rfl]
      rw [hquoted] at hmembers ⊢
      simp only [skipBlanks_cons (show isBlank '"' = false from rfl)]
      exact hmembers
  means := by
    intro room hroom
    rw [Value.nesting] at hroom
    obtain ⟨room, rfl⟩ := Nat.exists_eq_add_one_of_ne_zero (Nat.ne_zero_of_lt hroom)
    rw [Tree.toValue?, memberValues?_trees h (by omega), Value.asJson]
    rfl

/-! ## Reading any value -/

theorem exists_tree_of_double (x : Double) : ∃ tree, Prints (.float x) tree := by
  by_cases hnan : x.isNaN = true
  · have htext : chars (.float x) = "null".toList := by rw [chars, doubleText, if_pos hnan]
    exact ⟨_, prints_null htext (by rw [Value.asJson, if_pos hnan])⟩
  · by_cases hinfinite : x.isInfinite = true
    · have htext : chars (.float x) = quoted (if x.isNegative then "-inf" else "inf") := by
        rw [chars, doubleText, if_neg hnan, if_pos hinfinite]
        cases x.isNegative <;> rfl
      refine ⟨_, prints_text htext ?_⟩
      rw [Value.asJson, if_neg hnan, if_pos hinfinite]
    · obtain ⟨n, htext, hlegal, hvalue⟩ := Number.exists_number_of_double
        (Bool.not_eq_true _ ▸ hnan) (Bool.not_eq_true _ ▸ hinfinite)
      refine ⟨_, prints_number hlegal ?_ ?_⟩
      · rw [chars, doubleText, if_neg hnan, if_neg hinfinite, htext]
      · rw [hvalue, Value.asJson, if_neg hnan, if_neg hinfinite]

mutual

/-- The text of every value is read, and as what the value is in JSON. -/
theorem exists_tree : (v : Value) → ∃ tree, Prints v tree
  | .null => ⟨_, prints_null rfl rfl⟩
  | .bool b => ⟨_, prints_bool b⟩
  | .int n => ⟨_, prints_number (Number.legal_ofInt n.toInt) (Number.text_ofInt n.toInt).symm
      (Number.toValue?_ofInt n)⟩
  | .uint n => ⟨_, prints_number (Number.legal_ofInt n.toNat) (Number.text_ofInt n.toNat).symm
      (Number.toValue?_ofNat n)⟩
  | .float x => exists_tree_of_double x
  | .text s => ⟨_, prints_text rfl rfl⟩
  | .list items => by
    obtain ⟨trees, h⟩ := exists_item_trees items
    exact ⟨_, prints_list h⟩
  | .record fields => by
    obtain ⟨trees, h⟩ := exists_field_trees fields
    exact ⟨_, prints_record h⟩

theorem exists_item_trees : (vs : List Value) → ∃ trees, List.Forall₂ Prints vs trees
  | [] => ⟨[], .nil⟩
  | v :: vs => by
    obtain ⟨tree, hv⟩ := exists_tree v
    obtain ⟨trees, hvs⟩ := exists_item_trees vs
    exact ⟨tree :: trees, .cons hv hvs⟩

theorem exists_field_trees :
    (fields : List (String × Value)) → ∃ trees, List.Forall₂ PrintsField fields trees
  | [] => ⟨[], .nil⟩
  | (name, v) :: fields => by
    obtain ⟨tree, hv⟩ := exists_tree v
    obtain ⟨trees, hfields⟩ := exists_field_trees fields
    exact ⟨(name.toList.map partOf, tree) :: trees, .cons ⟨rfl, hv⟩ hfields⟩

end

/-- A value that does not nest too deep survives its JSON text, as what it is in JSON. -/
theorem read?_compact {v : Value} (h : v.nesting < nestingLimit) :
    read? (compact v) = some v.asJson := by
  obtain ⟨tree, hv⟩ := exists_tree v
  have hends : Ends [] := by rintro c ⟨⟩
  have hvalue := hv.reads (2 * (chars v).length + 2) [] (by omega) hends
  rw [List.append_nil] at hvalue
  have hparse : parse? (chars v) = some tree := by rw [parse?, hvalue]; rfl
  rw [read?, readChars?, toList_compact, hparse]
  exact hv.means _ (Nat.le_pred_of_lt h)

end Json

end ZigbeeGateway
