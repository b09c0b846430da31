-- Why a value cannot be written as bytes.
import ZigbeeGateway.Json.Write
import ZigbeeGateway.Payload.ReadError
import ZigbeeGateway.Text.Shown
namespace ZigbeeGateway

/-- Why a value is refused. -/
inductive WriteError where
  /-- The value is of the wrong kind for its type. -/
  | mismatch (type : PayloadType) (expected kind : String)
  | notAnObject (kind : String)
  | bitCount (type : Datatype) (expected count : Nat)
  | byteCount (type : Datatype) (expected count : Nat)
  | doesNotFit (n : Int) (bits : Nat)
  /-- The value has the bytes that stand for null. -/
  | reservedForNull (type : Datatype) (value : Value)
  | notAByte (type : Datatype) (value : Value)
  | characterTooLarge (type : Datatype) (c : Char)
  | tooLong (type : Datatype) (length limit : Nat)
  | noElementType (type : Datatype)
  | unknownElementType (type : Datatype) (name : String)
  | noKnownElementType (type : Datatype)
  | tooManyElements (type : Datatype)
  | tooManyMembers
  | noCluster (attr : String)
  | noAttribute (cluster attr : String)
  | invalidAttributeId (value : Value)
  | fieldOutOfRange (type : Datatype) (field : String) (value : Value)
  | notAnAddress (text : String)
  | variantNotAnObject (kind : String)
  | variantWithoutType
  | variantUnknownType (name : String)
  | variantNoKnownType
  | invalidStatus (type : PayloadType) (value : Value)
  | nestingTooDeep
  /-- The error lies in a field, or in the payload of a command. -/
  | inside (name : String) (inner : WriteError)
deriving Repr

namespace WriteError

/-- The wording of an error without the lead that all of them share. -/
def reason : WriteError → String
  | mismatch type expected kind => type.text ++ ": expected " ++ expected ++ ", got " ++ kind
  | notAnObject kind => "expected object, got " ++ kind
  | bitCount type expected count =>
    type.name ++ ": expected " ++ inDecimal expected ++ " bits, got " ++ inDecimal count
  | byteCount type expected count =>
    type.name ++ ": expected " ++ inDecimal expected ++ " bytes, got " ++ inDecimal count
  | doesNotFit n bits =>
    "Value " ++ String.ofList (Numeral.signedDecimal n) ++ " does not fit in " ++
      inDecimal bits ++ " bits"
  | reservedForNull type value =>
    type.name ++ ": value " ++ Json.compact value ++ " is reserved for null"
  | notAByte type value => type.name ++ ": expected byte, got " ++ Json.compact value
  | characterTooLarge type c =>
    type.name ++ ": character " ++ String.ofList (shown c) ++ " is outside 0..=255"
  | tooLong type length limit =>
    type.name ++ ": length " ++ inDecimal length ++ " exceeds " ++ inDecimal limit
  | noElementType type => type.name ++ ": missing string 'element_type'"
  | unknownElementType type name => type.name ++ ": unknown element type " ++ inQuotes name
  | noKnownElementType type => type.name ++ ": missing or unknown 'element_type'"
  | tooManyElements type => type.name ++ ": too many elements"
  | tooManyMembers => "struct: too many members"
  | noCluster attr =>
    "attribId: cannot resolve " ++ inQuotes attr ++ " without a cluster context"
  | noAttribute cluster attr =>
    "attribId: cluster " ++ inQuotes cluster ++ " has no attribute " ++ inQuotes attr
  | invalidAttributeId value => "attribId: invalid attribute id " ++ Json.compact value
  | fieldOutOfRange type field value =>
    type.name ++ ": field " ++ inQuotes field ++ " out of range: " ++ Json.compact value
  | notAnAddress text => "EUI64: expected 16 hex digits, got " ++ inQuotes text
  | variantNotAnObject kind => "variant: expected object with 'type', got " ++ kind
  | variantWithoutType => "variant: missing string 'type'"
  | variantUnknownType name => "variant: unknown type " ++ inQuotes name
  | variantNoKnownType => "variant: missing or unknown 'type'"
  | invalidStatus type value => type.text ++ ": invalid status " ++ Json.compact value
  | nestingTooDeep => "nesting too deep (limit " ++ inDecimal maxNesting ++ ")"
  | inside name inner => name ++ ": " ++ inner.reason

/-- The wording of an error. -/
def message (e : WriteError) : String := "encode error: " ++ e.reason

end WriteError

end ZigbeeGateway
