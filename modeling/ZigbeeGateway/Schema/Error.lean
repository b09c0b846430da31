-- What can be wrong with a schema text, and with the types and tables made from it.
import ZigbeeGateway.Text.Wording
namespace ZigbeeGateway

/-- What is wrong at one place of a schema text. -/
inductive TextFault where
  | unterminatedString
  | invalidEscape (c : Char)
  | noLineBreakAfterBackslash
  | noStringAfterBackslash
  /-- White space between tokens that is no blank. The reading never gets past it, so a text with it
  is neither read nor refused, and nobody is told of the fault. -/
  | endlessSpace (c : Char)
  | unclosedBrace
  | unmatchedBrace
  | braceWithoutKey
  | textAfterData (extra : String)
  | unknownGlobalSection (name : String)
  | unknownSectionInGlobal (key : String)
  | unknownSection (key cluster : String)
  | commandsDirection (cluster direction : String)
  | invalidId (what literal name : String)
  | unexpectedProperty (key attr cluster : String)
  | unknownAttributeType (type attr cluster : String)
  | unknownPropertyType (type property owner : String)
  | noChildrenAllowed (type property owner : String)
deriving DecidableEq, Repr

/-- Why a schema, a type or a table is refused. -/
inductive SchemaError where
  | unknownDatatype (name : String)
  | duplicateProperty (name : String)
  | repeatedNotLast (name : String)
  | repeatedInRepeated
  /-- The error lies in the type of a property. -/
  | inProperty (inner : SchemaError) (name : String)
  | duplicateId (id : Nat) (newName oldName : String)
  | duplicateName (name : String) (id : Nat)
  /-- The error lies in a table or command of an owner. -/
  | inOwner (inner : SchemaError) (owner : String)
  | atLine (line : Nat) (fault : TextFault)
deriving DecidableEq, Repr

/-- The wording of a fault. -/
def TextFault.message : TextFault → String
  | unterminatedString => "unterminated string"
  | invalidEscape c => "invalid escape '\\" ++ c.toString ++ "'"
  | noLineBreakAfterBackslash => "expected line break after '\\'"
  | noStringAfterBackslash => "expected quoted string after line continuation"
  | endlessSpace c => "endless white space '" ++ c.toString ++ "'"
  | unclosedBrace => "unclosed '\x7b'"
  | unmatchedBrace => "unmatched '\x7d'"
  | braceWithoutKey => "'\x7b' without a key"
  | textAfterData extra => "unexpected " ++ inQuotes extra ++ " after data"
  | unknownGlobalSection name => "unknown global section " ++ inQuotes name
  | unknownSectionInGlobal key => "unknown section " ++ inQuotes key ++ " in global"
  | unknownSection key cluster =>
    "unknown section " ++ inQuotes key ++ " in cluster " ++ inQuotes cluster
  | commandsDirection cluster direction =>
    "commands section of " ++ inQuotes cluster ++ " must be 'in' or 'out', got " ++
      inQuotes direction
  | invalidId what literal name =>
    "invalid " ++ what ++ " id " ++ inQuotes literal ++ " for " ++ inQuotes name
  | unexpectedProperty key attr cluster =>
    "unexpected " ++ inQuotes key ++ " in attribute " ++ inQuotes attr ++ " of " ++
      inQuotes cluster
  | unknownAttributeType type attr cluster =>
    "unknown type " ++ inQuotes type ++ " for attribute " ++ inQuotes attr ++ " of " ++
      inQuotes cluster
  | unknownPropertyType type property owner =>
    "unknown type " ++ inQuotes type ++ " for " ++ inQuotes property ++ " in " ++ inQuotes owner
  | noChildrenAllowed type property owner =>
    "type " ++ inQuotes type ++ " of " ++ inQuotes property ++ " in " ++ inQuotes owner ++
      " takes no children"

/-- The wording of an error without the lead that all schema errors share. -/
def SchemaError.reason : SchemaError → String
  | unknownDatatype name => "unknown datatype " ++ inQuotes name
  | duplicateProperty name => "duplicate property name " ++ inQuotes name
  | repeatedNotLast name => "repeated property " ++ inQuotes name ++ " must be the last property"
  | repeatedInRepeated => "repeated element may not itself be repeated"
  | inProperty inner name => inner.reason ++ " (in " ++ inQuotes name ++ ")"
  | duplicateId id newName oldName =>
    "duplicate id " ++ inHex 1 id ++ ": " ++ inQuotes newName ++
      " conflicts with " ++ inQuotes oldName
  | duplicateName name id =>
    "duplicate name " ++ inQuotes name ++ " (id " ++ inHex 1 id ++ ")"
  | inOwner inner owner => inner.reason ++ " in " ++ inQuotes owner
  | atLine line fault => "line " ++ inDecimal line ++ ": " ++ fault.message

/-- The wording of an error. -/
def SchemaError.message (e : SchemaError) : String := "schema error: " ++ e.reason

end ZigbeeGateway
