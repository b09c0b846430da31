-- Frames survive the way over the air: from the bytes of a frame the same frame is read.
import ZigbeeGateway.Zcl.Frame
namespace ZigbeeGateway.Zcl

/-- The number of a frame type in the control byte. -/
def FrameType.code : FrameType → Nat
  | .global => 0
  | .clusterSpecific => 1

namespace Header

/-- A header as it is sent: of the reserved bits only three go into the control byte. -/
def sent (h : Header) : Header := { h with reserved := h.reserved % 8 }

/-! ## The control byte -/

/-- The fields of a control byte stand side by side. -/
theorem control_toNat (h : Header) :
    h.control.toNat = h.frameType.code + 4 * h.manufacturer.isSome.toNat +
      8 * (decide (h.direction = .serverToClient)).toNat + 16 * h.disableDefaultResponse.toNat +
      32 * (h.reserved.toNat % 8) := by
  obtain ⟨frameType, manufacturer, direction, quiet, reserved, transaction, command⟩ := h
  have hreserved : reserved.toNat % 8 < 8 := Nat.mod_lt _ (by decide)
  cases frameType <;> cases manufacturer <;> cases direction <;> cases quiet <;>
    simp [control, FrameType.code, UInt8.toNat_add, UInt8.toNat_mul, UInt8.toNat_mod] <;> omega

theorem code_lt (t : FrameType) : t.code < 4 := by
  cases t <;> decide

theorem control_frameType (h : Header) : h.control.toNat % 4 = h.frameType.code := by
  have hcode := code_lt h.frameType
  rw [control_toNat]
  omega

theorem control_manufacturer (h : Header) :
    h.control.toNat.testBit 2 = h.manufacturer.isSome := by
  have hcode := code_lt h.frameType
  rw [Nat.testBit_eq_decide_div_mod_eq, control_toNat]
  cases h.manufacturer.isSome <;> simp <;> omega

theorem control_direction (h : Header) :
    h.control.toNat.testBit 3 = decide (h.direction = .serverToClient) := by
  have hcode := code_lt h.frameType
  have hcarry := Bool.toNat_lt h.manufacturer.isSome
  rw [Nat.testBit_eq_decide_div_mod_eq, control_toNat]
  cases decide (h.direction = .serverToClient) <;> simp <;> omega

theorem control_disableDefaultResponse (h : Header) :
    h.control.toNat.testBit 4 = h.disableDefaultResponse := by
  have hcode := code_lt h.frameType
  have hcarry := Bool.toNat_lt h.manufacturer.isSome
  have hcarry' := Bool.toNat_lt (decide (h.direction = .serverToClient))
  rw [Nat.testBit_eq_decide_div_mod_eq, control_toNat]
  cases h.disableDefaultResponse <;> simp <;> omega

theorem control_reserved (h : Header) : h.control / 32 = h.reserved % 8 := by
  have hcode := code_lt h.frameType
  have hcarry := Bool.toNat_lt h.manufacturer.isSome
  have hcarry' := Bool.toNat_lt (decide (h.direction = .serverToClient))
  have hcarry'' := Bool.toNat_lt h.disableDefaultResponse
  rw [← UInt8.toNat_inj, UInt8.toNat_div, UInt8.toNat_mod, control_toNat]
  simp
  omega

/-- From the control byte and the bytes around it the header comes back. -/
theorem ofControl_control (h : Header) (transaction command : UInt8) (code : Option UInt16) :
    ofControl h.control code transaction command =
      .ok { h.sent with manufacturer := code, transaction, command } := by
  have hdirection : (if decide (h.direction = .serverToClient) = true then Direction.serverToClient
      else .clientToServer) = h.direction := by
    cases h.direction <;> rfl
  unfold ofControl
  rw [control_frameType, control_direction, control_disableDefaultResponse, control_reserved,
    hdirection]
  cases hframe : h.frameType <;> simp [FrameType.code, sent, hframe]

end Header

/-! ## Whole frames -/

namespace Frame

/-- A frame is read from its bytes, with its header as it is sent. -/
theorem decode_encode (f : Frame) : decode f.encode = .ok ⟨f.header.sent, f.payload⟩ := by
  obtain ⟨⟨frameType, manufacturer, direction, quiet, reserved, transaction, command⟩, payload⟩ := f
  unfold encode Header.encode
  generalize hh : Header.mk frameType manufacturer direction quiet reserved transaction command = h
  have hbit := h.control_manufacturer
  have hcontrol := h.ofControl_control
  cases manufacturer with
  | none =>
    subst hh
    simp only [Option.isSome_none] at hbit
    simp only [Option.elim_none, List.nil_append, List.cons_append, decode, hbit, hcontrol]
    rfl
  | some code =>
    have hvalue := LittleEndian.value_bytes16 code
    subst hh
    simp only [Option.isSome_some] at hbit
    simp only [LittleEndian.bytes] at hvalue
    simp only [Option.elim_some, LittleEndian.bytes, List.nil_append, List.cons_append, decode,
      hbit, hcontrol, hvalue]
    rfl

/-- A header without reserved bits comes back as it is. -/
theorem decode_encode_plain (frameType : FrameType) (transaction command : UInt8)
    (payload : Bytes) :
    decode (encode ⟨.plain frameType transaction command, payload⟩) =
      .ok ⟨.plain frameType transaction command, payload⟩ :=
  decode_encode _

end Frame

end ZigbeeGateway.Zcl
