-- Text as UTF-8 bytes. Reading takes one character at a time; bytes that form none are
-- either refused or stand for one replacement character per broken piece.
import ZigbeeGateway.Bytes
namespace ZigbeeGateway.Utf8

/-- The bytes of a text. -/
def encode (cs : List Char) : Bytes := cs.flatMap String.utf8EncodeChar

/-- Whether a byte continues a character. -/
def isContinuation (b : UInt8) : Bool := 0x80 ≤ b && b ≤ 0xbf

/-- The six bits that a continuation byte carries. -/
def payload (b : UInt8) : Nat := b.toNat % 64

/-- Whether `second` may follow the lead byte `lead` of a character of three or four bytes. The
ranges leave out overlong forms, surrogates and numbers past the last code point. -/
def mayFollow (lead second : UInt8) : Bool :=
  if lead == 0xe0 then 0xa0 ≤ second && second ≤ 0xbf
  else if lead == 0xed then 0x80 ≤ second && second ≤ 0x9f
  else if lead == 0xf0 then 0x90 ≤ second && second ≤ 0xbf
  else if lead == 0xf4 then 0x80 ≤ second && second ≤ 0x8f
  else isContinuation second

/-- What stands at the front of some bytes. -/
inductive Piece where
  /-- A whole character. -/
  | char (c : Char)
  /-- Bytes that start no character, as far as they could have been one. -/
  | broken
deriving Repr

/-- What a byte says that may lead a character: how many bytes follow it, and its own bits. -/
def lead? (b : UInt8) : Option (Nat × Nat) :=
  if b < 0x80 then some (0, b.toNat)
  else if 0xc2 ≤ b && b ≤ 0xdf then some (1, b.toNat - 0xc0)
  else if 0xe0 ≤ b && b ≤ 0xef then some (2, b.toNat - 0xe0)
  else if 0xf0 ≤ b && b ≤ 0xf4 then some (3, b.toNat - 0xf0)
  else none

/-- The piece whose last `count` bytes are still to come, after the bits read so far. -/
def finish : (count bits : Nat) → Bytes → Piece × Bytes
  | 0, bits, rest => (.char (Char.ofNat bits), rest)
  | _ + 1, _, [] => (.broken, [])
  | count + 1, bits, b :: rest =>
    if isContinuation b then finish count (bits * 64 + payload b) rest else (.broken, b :: rest)

/-- The piece at the front of the bytes `lead :: rest`, and the bytes after it. -/
def piece (lead : UInt8) (rest : Bytes) : Piece × Bytes :=
  match lead? lead, rest with
  | none, _ => (.broken, rest)
  | some (0, bits), _ => finish 0 bits rest
  | some (_ + 1, _), [] => (.broken, [])
  | some (count + 1, bits), b :: rest' =>
    if mayFollow lead b then finish count (bits * 64 + payload b) rest' else (.broken, rest)

theorem finish_length_le (count bits : Nat) (bs : Bytes) :
    (finish count bits bs).2.length ≤ bs.length := by
  fun_induction finish count bits bs <;> simp_all
  omega

theorem piece_length_le (lead : UInt8) (rest : Bytes) :
    (piece lead rest).2.length ≤ rest.length := by
  unfold piece
  split
  · exact Nat.le_refl _
  · exact finish_length_le ..
  · simp
  · split
    · exact Nat.le_succ_of_le (finish_length_le ..)
    · exact Nat.le_refl _

/-- The pieces that bytes fall into, front to back. -/
def pieces : Bytes → List Piece
  | [] => []
  | lead :: rest => (piece lead rest).1 :: pieces (piece lead rest).2
termination_by bs => bs.length
decreasing_by
  have := piece_length_le lead rest
  simp; omega

/-- The character of a piece, if it is whole. -/
def Piece.char? : Piece → Option Char
  | .char c => some c
  | .broken => none

/-- The text that the bytes are, if every piece is whole. -/
def decode? (bs : Bytes) : Option (List Char) := (pieces bs).mapM Piece.char?

/-- The text of the bytes, with U+FFFD for each broken piece. -/
def decodeLossy (bs : Bytes) : List Char := (pieces bs).map fun p => p.char?.getD '\uFFFD'

end ZigbeeGateway.Utf8
