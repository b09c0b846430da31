-- The types of command payloads: scalars, and what is built from them.
import ZigbeeGateway.Datatype
import ZigbeeGateway.Schema.Error
namespace ZigbeeGateway

/-- The type of a payload or a part of it. -/
inductive PayloadType where
  /-- A value that names its own datatype by a tag byte in front of it. -/
  | variant
  | scalar (t : Datatype)
  /-- Named properties, in the order in which they are sent. -/
  | object (properties : List (String × PayloadType))
  /-- Items up to the end of the message. -/
  | repeated (item : PayloadType)
  /-- A status byte, and after it a value only if the status is zero. -/
  | errorOr (inner : PayloadType)
deriving Repr, Inhabited

/-- The properties of an object type. -/
abbrev Properties := List (String × PayloadType)

namespace PayloadType

/-! ## As text -/

mutual

/-- The text of a type: wrappers as a lead and a colon, an object with its properties in braces. -/
def text : PayloadType → String
  | variant => "variant"
  | scalar t => t.name
  | object properties => "object\x7b" ++ propertiesText properties ++ "\x7d"
  | repeated item => "repeated:" ++ item.text
  | errorOr inner => "error_or:" ++ inner.text

/-- Properties with their types, with a comma between them. -/
def propertiesText : List (String × PayloadType) → String
  | [] => ""
  | [(name, type)] => name ++ ": " ++ type.text
  | (name, type) :: next :: rest =>
    name ++ ": " ++ type.text ++ ", " ++ propertiesText (next :: rest)

end

/-! ## Where repetitions may stand -/

mutual

/-- Whether a repetition stands anywhere in a type. -/
def hasRepeated : PayloadType → Bool
  | variant => false
  | scalar _ => false
  | object properties => anyRepeated properties
  | repeated _ => true
  | errorOr inner => inner.hasRepeated

/-- Whether a repetition stands in one of the properties. -/
def anyRepeated : List (String × PayloadType) → Bool
  | [] => false
  | (_, type) :: rest => type.hasRepeated || anyRepeated rest

end

mutual

/-- Checks a type: property names are distinct in every object, no repetition stands inside
another, and a property with a repetition is the last of its object, because only the end of the
message ends it. -/
def check : PayloadType → Except SchemaError Unit
  | variant => .ok ()
  | scalar _ => .ok ()
  | object properties => checkProperties [] properties
  | repeated item => if item.hasRepeated then .error .repeatedInRepeated else item.check
  | errorOr inner => inner.check

/-- Checks properties against the names before them and each other. -/
def checkProperties (before : List String) : List (String × PayloadType) → Except SchemaError Unit
  | [] => .ok ()
  | (name, type) :: rest =>
    if before.contains name then .error (.duplicateProperty name)
    else if type.hasRepeated && !rest.isEmpty then .error (.repeatedNotLast name)
    else
      match type.check with
      | .error e => .error (.inProperty e name)
      | .ok () => checkProperties (name :: before) rest

end

end PayloadType

end ZigbeeGateway
