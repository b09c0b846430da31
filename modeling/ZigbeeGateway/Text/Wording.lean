-- What messages are made of besides words: texts in quotes, and numbers.
import ZigbeeGateway.Text.Numeral
namespace ZigbeeGateway

/-- A text in single quotes. -/
def inQuotes (s : String) : String := "'" ++ s ++ "'"

/-- A number in decimal. -/
def inDecimal (n : Nat) : String := String.ofList (Numeral.decimal n)

/-- A number in hex with at least `width` digits. -/
def inHex (width n : Nat) : String := "0x" ++ String.ofList (Numeral.hex width n)

end ZigbeeGateway
