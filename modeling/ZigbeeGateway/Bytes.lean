-- Byte strings, and the numbers written in them. Every number on the air and on the
-- serial line is sent with its lowest byte first.
namespace ZigbeeGateway

/-- A string of bytes. -/
abbrev Bytes := List UInt8

namespace LittleEndian

/-- The number that the bytes hold, lowest byte first. -/
def value : Bytes → Nat
  | [] => 0
  | b :: rest => b.toNat + 256 * value rest

/-- The lowest `width` bytes of a number, lowest first. -/
def bytes : (width : Nat) → (n : Nat) → Bytes
  | 0, _ => []
  | width + 1, n => UInt8.ofNat n :: bytes width (n / 256)

/-- The numbers of `width` bytes are those below this one. -/
def limit (width : Nat) : Nat := Nat.pow 256 width

/-- The number whose `width` bytes are all `0xFF`. -/
def allOnes (width : Nat) : Nat := limit width - 1

@[simp] theorem length_bytes (width n : Nat) : (bytes width n).length = width := by
  induction width generalizing n with
  | zero => rfl
  | succ w ih => simp [bytes, ih]

theorem limit_zero : limit 0 = 1 := rfl

theorem limit_succ (width : Nat) : limit (width + 1) = 256 * limit width := Nat.mul_comm ..

theorem value_bytes (width n : Nat) : value (bytes width n) = n % limit width := by
  induction width generalizing n with
  | zero => simp [bytes, value, limit_zero, Nat.mod_one]
  | succ w ih => rw [limit_succ, Nat.mod_mul, bytes, value, ih, UInt8.toNat_ofNat']

theorem value_lt (bs : Bytes) : value bs < limit bs.length := by
  induction bs with
  | nil => simp [value, limit_zero]
  | cons b rest ih =>
    have hb := b.toNat_lt
    simp only [value, List.length_cons, limit_succ]
    omega

theorem limit_pos (width : Nat) : 0 < limit width := Nat.pow_pos (by decide)

/-- Bytes are told by their number and how many they are. -/
theorem bytes_value (bs : Bytes) : bytes bs.length (value bs) = bs := by
  induction bs with
  | nil => rfl
  | cons b rest ih =>
    have hb := b.toNat_lt
    have hlow : UInt8.ofNat (b.toNat + 256 * value rest) = b := by
      rw [← UInt8.toNat_inj, UInt8.toNat_ofNat']
      omega
    have hrest : (b.toNat + 256 * value rest) / 256 = value rest := by omega
    rw [List.length_cons, value, bytes, hlow, hrest, ih]

/-- A number of two bytes is the one that its bytes hold. -/
theorem value_bytes16 (n : UInt16) : UInt16.ofNat (value (bytes 2 n.toNat)) = n := by
  have hlt : n.toNat < limit 2 := n.toNat_lt
  rw [value_bytes, Nat.mod_eq_of_lt hlt, UInt16.ofNat_toNat]

/-- Two bytes are those of the number that they hold. -/
theorem bytes_value16 (low high : UInt8) :
    bytes 2 (UInt16.ofNat (value [low, high])).toNat = [low, high] := by
  have hlt : value [low, high] < limit 2 := value_lt _
  rw [UInt16.toNat_ofNat_of_lt' hlt]
  exact bytes_value [low, high]

end LittleEndian

end ZigbeeGateway
