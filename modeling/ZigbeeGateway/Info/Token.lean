-- The tokens of an INFO text: words, quoted strings, braces and line breaks. Comments run
-- from a semicolon to the end of the line. A quoted string may go on in the next line after
-- a backslash.
import ZigbeeGateway.Schema.Error
import ZigbeeGateway.Text.Blank
namespace ZigbeeGateway.Info

inductive Token where
  | text (s : String)
  | opening
  | closing
  | lineBreak
deriving DecidableEq, Repr

/-- A token and the line where it starts, counted from 1. -/
structure Placed where
  token : Token
  line : Nat
deriving DecidableEq, Repr

/-- What the reading of tokens is in the middle of. Texts are kept in reverse. -/
inductive Amid where
  /-- Between tokens. -/
  | gap
  | comment
  | word (line : Nat) (text : List Char)
  /-- Inside quotes that were opened in the line `opened`. -/
  | quoted (line opened : Nat) (text : List Char)
  /-- After a backslash inside quotes. -/
  | escape (line opened : Nat) (text : List Char)
  /-- After closing quotes. -/
  | closed (line : Nat) (text : List Char)
  /-- After the backslash that follows closing quotes. -/
  | broken (line : Nat) (text : List Char)
  /-- In the line after that backslash, before the next quotes. -/
  | resumed (line : Nat) (text : List Char)
deriving DecidableEq, Repr

/-- Where the reading of tokens stands: the current line, what it is amid, and the tokens so far
in reverse. -/
structure Scan where
  line : Nat
  amid : Amid
  tokens : List Placed
deriving DecidableEq, Repr

/-- What a character after a backslash in quotes stands for. -/
def escaped? : Char → Option Char
  | '0' => some '\x00'
  | 'a' => some '\x07'
  | 'b' => some '\x08'
  | 'f' => some '\x0c'
  | 'n' => some '\n'
  | 'r' => some '\r'
  | 't' => some '\t'
  | 'v' => some '\x0b'
  | '"' => some '"'
  | '\'' => some '\''
  | '\\' => some '\\'
  | _ => none

/-- Space, tab and carriage return: they part tokens and mean nothing else. -/
def isBlank (c : Char) : Bool := c == ' ' || c == '\t' || c == '\r'

/-- Whether a character ends a word. -/
def endsWord (c : Char) : Bool :=
  isWhiteSpace c || c == '\x7b' || c == '\x7d' || c == ';' || c == '"'

namespace Scan

/-- The start of a text. -/
def start : Scan := ⟨1, .gap, []⟩

def add (s : Scan) (token : Token) (line : Nat) : Scan :=
  { s with tokens := ⟨token, line⟩ :: s.tokens }

/-- A text that ends here becomes a token. -/
def endText (s : Scan) (line : Nat) (text : List Char) : Scan :=
  { s.add (.text (String.ofList text.reverse)) line with amid := .gap }

/-- A line break that is a token. -/
def breakLine (s : Scan) : Scan :=
  { s.add .lineBreak s.line with line := s.line + 1, amid := .gap }

/-- A character between tokens. White space that is no blank is none of them and starts none, and
the reading stays in front of it for ever. -/
def stepGap (s : Scan) (c : Char) : Except SchemaError Scan :=
  if c = '\n' then .ok s.breakLine
  else if c = ';' then .ok { s with amid := .comment }
  else if c = '\x7b' then .ok (s.add .opening s.line)
  else if c = '\x7d' then .ok (s.add .closing s.line)
  else if c = '"' then .ok { s with amid := .quoted s.line s.line [] }
  else if isBlank c then .ok s
  else if isWhiteSpace c then .error (.atLine s.line (.endlessSpace c))
  else .ok { s with amid := .word s.line [c] }

/-- The next character. -/
def step (s : Scan) (c : Char) : Except SchemaError Scan :=
  match s.amid with
  | .gap => s.stepGap c
  | .comment => .ok (if c = '\n' then s.breakLine else s)
  | .word line text =>
    if endsWord c then (s.endText line text).stepGap c
    else .ok { s with amid := .word line (c :: text) }
  | .quoted line opened text =>
    if c = '\n' then .error (.atLine opened .unterminatedString)
    else if c = '"' then .ok { s with amid := .closed line text }
    else if c = '\\' then .ok { s with amid := .escape line opened text }
    else .ok { s with amid := .quoted line opened (c :: text) }
  | .escape line opened text =>
    match escaped? c with
    | some e => .ok { s with amid := .quoted line opened (e :: text) }
    | none => .error (.atLine opened (.invalidEscape c))
  | .closed line text =>
    if isBlank c then .ok s
    else if c = '\\' then .ok { s with amid := .broken line text }
    else (s.endText line text).stepGap c
  | .broken line text =>
    if isBlank c then .ok s
    else if c = '\n' then .ok { s with line := s.line + 1, amid := .resumed line text }
    else .error (.atLine s.line .noLineBreakAfterBackslash)
  | .resumed line text =>
    if isBlank c then .ok s
    else if c = '"' then .ok { s with amid := .quoted line s.line text }
    else .error (.atLine s.line .noStringAfterBackslash)

/-- The tokens of a text that ends here. -/
def finish (s : Scan) : Except SchemaError (List Placed) :=
  match s.amid with
  | .gap | .comment => .ok s.tokens.reverse
  | .word line text | .closed line text => .ok (s.endText line text).tokens.reverse
  | .quoted _ opened _ | .escape _ opened _ => .error (.atLine opened .unterminatedString)
  | .broken .. => .error (.atLine s.line .noLineBreakAfterBackslash)
  | .resumed .. => .error (.atLine s.line .noStringAfterBackslash)

end Scan

/-- The tokens of a text. -/
def tokens (cs : List Char) : Except SchemaError (List Placed) := do
  (← cs.foldlM Scan.step .start).finish

end ZigbeeGateway.Info
