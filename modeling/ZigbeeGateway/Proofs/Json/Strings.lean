-- Strings in JSON text. Every text comes back from between its quotes, whichever of its
-- characters were escaped.
import ZigbeeGateway.Json.Read
import ZigbeeGateway.Json.Write
namespace ZigbeeGateway.Json

/-- The part of a string that an escaped character is read as. -/
def partOf (c : Char) : StringPart :=
  if c.toNat < 0x20 ∧ c ∉ ['\x08', '\x0c', '\n', '\r', '\t'] then .unit c.toNat else .char c

theorem hex_control : ∀ n < 0x20, (Numeral.hex 4 n).length = 4 ∧
    Numeral.ofDigits? 16 (Numeral.hex 4 n) = some n := by
  decide +kernel

theorem stringParts_unit {n : Nat} (h : n < 0x20) (before : List StringPart) (rest : List Char) :
    stringParts before ('\\' :: 'u' :: Numeral.hex 4 n ++ rest) =
      stringParts (.unit n :: before) rest := by
  obtain ⟨hlen, hdigits⟩ := hex_control n h
  match hex : Numeral.hex 4 n with
  | [a, b, c, d] =>
    rw [hex] at hdigits
    simp only [List.cons_append, List.nil_append, stringParts, hdigits]
  | [] | [_] | [_, _] | [_, _, _] | _ :: _ :: _ :: _ :: _ :: _ =>
    rw [hex] at hlen
    simp at hlen

/-- An escaped character is read as one part. -/
theorem stringParts_escape (c : Char) (before : List StringPart) (rest : List Char) :
    stringParts before (escape c ++ rest) = stringParts (partOf c :: before) rest := by
  by_cases hquote : c = '"'
  · subst hquote
    rfl
  by_cases hslash : c = '\\'
  · subst hslash
    rfl
  by_cases hshort : c ∈ ['\x08', '\x0c', '\n', '\r', '\t']
  · simp only [List.mem_cons, List.not_mem_nil, or_false] at hshort
    rcases hshort with rfl | rfl | rfl | rfl | rfl <;> rfl
  · simp only [partOf, hshort, not_false_eq_true, and_true]
    simp only [List.mem_cons, List.not_mem_nil, or_false, not_or] at hshort
    obtain ⟨h1, h2, h3, h4, h5⟩ := hshort
    simp only [escape, if_neg hquote, if_neg hslash, if_neg h1, if_neg h2, if_neg h3, if_neg h4,
      if_neg h5]
    by_cases hcontrol : c.toNat < 0x20
    · rw [if_pos hcontrol, if_pos hcontrol]
      exact stringParts_unit hcontrol before rest
    · rw [if_neg hcontrol, if_neg hcontrol, List.singleton_append]
      simp [stringParts, hslash, hcontrol]

theorem stringParts_text (cs : List Char) (before : List StringPart) (rest : List Char) :
    stringParts before (cs.flatMap escape ++ '"' :: rest) =
      some (before.reverse ++ cs.map partOf, rest) := by
  induction cs generalizing before with
  | nil => simp [stringParts]
  | cons c cs ih =>
    rw [List.flatMap_cons, List.append_assoc, stringParts_escape, ih, List.reverse_cons,
      List.append_assoc, List.map_cons, List.singleton_append]

theorem ofUnits?_unit {n : Nat} (h : n < 0xd800) (rest : List StringPart) :
    ofUnits? (.unit n :: rest) = (ofUnits? rest).map (Char.ofNat n :: ·) := by
  conv => lhs; unfold ofUnits?
  rw [if_pos (Or.inl h)]

/-- The parts of characters mean these characters. -/
theorem ofUnits?_map (cs : List Char) : ofUnits? (cs.map partOf) = some cs := by
  induction cs with
  | nil => rfl
  | cons c cs ih =>
    rw [List.map_cons, partOf]
    split
    · rename_i hcontrol
      rw [ofUnits?_unit (by omega), ih, Option.map_some, Char.ofNat_toNat]
    · rw [ofUnits?, ih]
      rfl

/-- A text is read as the parts of its characters, and these mean the text again. -/
theorem stringParts_quoted (s : String) (rest : List Char) :
    ∃ tail, quoted s ++ rest = '"' :: tail ∧
      stringParts [] tail = some (s.toList.map partOf, rest) := by
  refine ⟨s.toList.flatMap escape ++ '"' :: rest, by simp [quoted], ?_⟩
  rw [stringParts_text]
  rfl

theorem text?_parts (s : String) : text? (s.toList.map partOf) = some s := by
  rw [text?, ofUnits?_map, Option.map_some, String.ofList_toList]

end ZigbeeGateway.Json
