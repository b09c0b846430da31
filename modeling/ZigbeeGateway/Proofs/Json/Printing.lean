-- The characters of a value's text. The text is built by adding to what is there already, so
-- it is first said what is added.
import ZigbeeGateway.Json.Write
namespace ZigbeeGateway.Json

/-! ## Adding characters -/

theorem add_add (out : String) (cs ds : List Char) : add (add out cs) ds = add out (cs ++ ds) :=
  List.foldl_append.symm

theorem push_eq_add (out : String) (c : Char) : out.push c = add out [c] := rfl

theorem toList_add (out : String) (cs : List Char) : (add out cs).toList = out.toList ++ cs := by
  induction cs generalizing out with
  | nil => simp [add]
  | cons c cs ih =>
    rw [← List.singleton_append, ← add_add, ih, ← push_eq_add, String.toList_push,
      List.append_assoc]

/-! ## What a value adds -/

mutual

/-- The characters of a value on one line. -/
def chars : Value → List Char
  | .null => "null".toList
  | .bool b => if b then "true".toList else "false".toList
  | .int n => Numeral.signedDecimal n.toInt
  | .uint n => Numeral.decimal n.toNat
  | .float x => doubleText x
  | .text s => quoted s
  | .list [] => ['[', ']']
  | .list (v :: vs) => '[' :: (chars v ++ (itemChars vs ++ [']']))
  | .record [] => ['\x7b', '\x7d']
  | .record ((name, v) :: fields) =>
    '\x7b' :: (quoted name ++ ':' :: (chars v ++ (fieldChars fields ++ ['\x7d'])))

/-- Further items, each after a comma. -/
def itemChars : List Value → List Char
  | [] => []
  | v :: vs => ',' :: (chars v ++ itemChars vs)

/-- Further fields, each after a comma. -/
def fieldChars : List (String × Value) → List Char
  | [] => []
  | (name, v) :: fields => ',' :: (quoted name ++ ':' :: (chars v ++ fieldChars fields))

end

mutual

theorem addValue_eq (out : String) : (v : Value) → addValue out v = add out (chars v)
  | .null | .bool _ | .int _ | .uint _ | .float _ | .text _ | .list [] | .record [] => by
    simp only [addValue, chars]
  | .list (v :: vs) => by
    rw [addValue, addItems_eq _ vs, addValue_eq _ v, push_eq_add, push_eq_add, add_add, add_add,
      add_add, chars]
    simp
  | .record ((name, v) :: fields) => by
    rw [addValue, addFields_eq _ fields, addValue_eq _ v, push_eq_add, push_eq_add, add_add,
      add_add, add_add, add_add, chars]
    simp

theorem addItems_eq (out : String) : (vs : List Value) → addItems out vs = add out (itemChars vs)
  | [] => rfl
  | v :: vs => by
    rw [addItems, addItems_eq _ vs, addValue_eq _ v, push_eq_add, add_add, add_add, itemChars]
    simp

theorem addFields_eq (out : String) :
    (fields : List (String × Value)) → addFields out fields = add out (fieldChars fields)
  | [] => rfl
  | (name, v) :: fields => by
    rw [addFields, addFields_eq _ fields, addValue_eq _ v, push_eq_add, add_add, add_add, add_add,
      fieldChars]
    simp

end

theorem toList_compact (v : Value) : (compact v).toList = chars v := by
  rw [compact, addValue_eq, toList_add]
  rfl

end ZigbeeGateway.Json
