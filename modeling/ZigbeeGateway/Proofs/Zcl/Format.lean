-- The format of frames, from the side of the bytes. Exactly the byte strings in the format are
-- read, each as a frame whose bytes it is, and a frame whose reserved bits fit comes back from its
-- bytes.
import ZigbeeGateway.Proofs.Zcl.Frames
namespace ZigbeeGateway.Zcl

/-- Bytes in the format of frames: the frame type is none of the reserved ones, and the header is
there as a whole, with two bytes more if the control byte announces a manufacturer. -/
def InFormat (bs : Bytes) : Prop :=
  ∃ control, bs.head? = some control ∧ control.toNat % 4 ≤ 1 ∧
    (if control.toNat.testBit 2 then 5 else 3) ≤ bs.length

namespace Header

/-! ## Headers of a control byte -/

/-- A byte is what its fields say. -/
theorem toNat_eq_fields (control : UInt8) :
    control.toNat = control.toNat % 4 + 4 * (control.toNat.testBit 2).toNat +
      8 * (control.toNat.testBit 3).toNat + 16 * (control.toNat.testBit 4).toNat +
      32 * (control.toNat / 32) := by
  simp only [Nat.toNat_testBit]
  omega

theorem ofControl_isOk {control : UInt8} (h : control.toNat % 4 ≤ 1) (code : Option UInt16)
    (transaction command : UInt8) :
    ∃ header, ofControl control code transaction command = .ok header := by
  unfold ofControl
  obtain h | h : control.toNat % 4 = 0 ∨ control.toNat % 4 = 1 := by omega
  · rw [h]
    exact ⟨_, rfl⟩
  · rw [h]
    exact ⟨_, rfl⟩

/-- A header that is read has the fields that it is read from. -/
theorem fields_of_ofControl {control transaction command : UInt8} {code : Option UInt16}
    {header : Header} (h : ofControl control code transaction command = .ok header) :
    header.frameType.code = control.toNat % 4 ∧ header.manufacturer = code ∧
      decide (header.direction = .serverToClient) = control.toNat.testBit 3 ∧
      header.disableDefaultResponse = control.toNat.testBit 4 ∧ header.reserved = control / 32 ∧
      header.transaction = transaction ∧ header.command = command := by
  unfold ofControl at h
  have hdirection : decide ((if control.toNat.testBit 3 then Direction.serverToClient else
      .clientToServer) = .serverToClient) = control.toNat.testBit 3 := by
    cases control.toNat.testBit 3 <;> rfl
  rcases htype : control.toNat % 4 with _ | _ | reserved
  · simp only [htype] at h
    cases h
    exact ⟨rfl, rfl, hdirection, rfl, rfl, rfl, rfl⟩
  · simp only [htype] at h
    cases h
    exact ⟨rfl, rfl, hdirection, rfl, rfl, rfl, rfl⟩
  · simp only [htype] at h
    cases h

/-- A header that is read has the control byte that it is read from, if it has a manufacturer when
the byte says so. -/
theorem control_of_ofControl {control transaction command : UInt8} {code : Option UInt16}
    {header : Header} (h : ofControl control code transaction command = .ok header)
    (hcode : control.toNat.testBit 2 = code.isSome) : header.control = control := by
  obtain ⟨htype, hmanufacturer, hdirection, hquiet, hreserved, -, -⟩ := fields_of_ofControl h
  have hlt := control.toNat_lt
  have hsmall : header.reserved.toNat % 8 = control.toNat / 32 := by
    rw [hreserved, UInt8.toNat_div]
    simp only [UInt8.toNat_ofNat, Nat.reducePow, Nat.reduceMod]
    omega
  rw [← UInt8.toNat_inj, control_toNat, htype, hmanufacturer, hdirection, hquiet, hsmall, ← hcode,
    ← toNat_eq_fields]

theorem length_encode (h : Header) : h.encode.length = h.size := by
  unfold encode size
  cases h.manufacturer <;> simp

end Header

namespace Frame

/-! ## Whole frames -/

theorem inFormat_encode (f : Frame) : InFormat f.encode := by
  refine ⟨f.header.control, rfl, ?_, ?_⟩
  · rw [Header.control_frameType]
    cases f.header.frameType <;> decide
  · rw [Header.control_manufacturer, encode, List.length_append, Header.length_encode]
    exact Nat.le_add_right _ _

theorem header_of_ok {header : Except ReadError Header} {payload : Bytes} {f : Frame}
    (h : (do return ⟨← header, payload⟩ : Except ReadError Frame) = .ok f) :
    header = .ok f.header ∧ payload = f.payload := by
  cases header with
  | error e => cases h
  | ok header =>
    cases h
    exact ⟨rfl, rfl⟩

/-- A frame that is read stands in the bytes: its header around the manufacturer code, if there is
one, and then its payload. -/
theorem decode_eq_ok {bs : Bytes} {f : Frame} (h : decode bs = .ok f) :
    ∃ (control transaction command : UInt8) (code : Option UInt16),
      control.toNat.testBit 2 = code.isSome ∧
      Header.ofControl control code transaction command = .ok f.header ∧
      bs = control :: (code.elim [] fun code => LittleEndian.bytes 2 code.toNat) ++
        transaction :: command :: f.payload := by
  unfold decode at h
  split at h
  · cases h
  · rename_i control rest
    rcases hfirst : Header.ofControl control none 0 0 with e | plain
    · rw [hfirst] at h
      cases h
    · rw [hfirst] at h
      change (if _ then _ else _) = _ at h
      split at h
      · rename_i hbit
        split at h
        · rename_i low high transaction command payload
          obtain ⟨hheader, rfl⟩ := header_of_ok h
          refine ⟨control, transaction, command, some (.ofNat (LittleEndian.value [low, high])),
            hbit, hheader, ?_⟩
          rw [Option.elim_some, LittleEndian.bytes_value16]
          rfl
        · cases h
      · rename_i hbit
        split at h
        · rename_i transaction command payload
          obtain ⟨hheader, rfl⟩ := header_of_ok h
          exact ⟨control, transaction, command, none, by simpa using hbit, hheader, rfl⟩
        · cases h

/-- A frame that is read has the bytes that it is read from. -/
theorem encode_of_decode {bs : Bytes} {f : Frame} (h : decode bs = .ok f) : f.encode = bs := by
  obtain ⟨control, transaction, command, code, hbit, hheader, hbs⟩ := decode_eq_ok h
  have hcontrol := Header.control_of_ofControl hheader hbit
  obtain ⟨-, hmanufacturer, -, -, -, htransaction, hcommand⟩ := Header.fields_of_ofControl hheader
  rw [encode, Header.encode, hcontrol, hmanufacturer, htransaction, hcommand, hbs]
  simp

/-- Bytes in the format are read. -/
theorem decode_isOk {bs : Bytes} (h : InFormat bs) : ∃ f, decode bs = .ok f := by
  obtain ⟨control, hhead, htype, hlength⟩ := h
  obtain ⟨rest, rfl⟩ := List.head?_eq_some_iff.mp hhead
  obtain ⟨plain, hplain⟩ := Header.ofControl_isOk htype none 0 0
  rcases hbit : control.toNat.testBit 2
  · obtain _ | ⟨transaction, _ | ⟨command, payload⟩⟩ := rest
    · simp [hbit] at hlength
    · simp [hbit] at hlength
    · obtain ⟨header, hheader⟩ := Header.ofControl_isOk htype none transaction command
      refine ⟨⟨header, payload⟩, ?_⟩
      simp only [decode, hplain, hbit, hheader]
      rfl
  · obtain _ | ⟨low, _ | ⟨high, _ | ⟨transaction, _ | ⟨command, payload⟩⟩⟩⟩ := rest
    · simp [hbit] at hlength
    · simp [hbit] at hlength
    · simp [hbit] at hlength
    · simp [hbit] at hlength
    · let code := UInt16.ofNat (LittleEndian.value [low, high])
      obtain ⟨header, hheader⟩ := Header.ofControl_isOk htype (some code) transaction command
      refine ⟨⟨header, payload⟩, ?_⟩
      simp only [decode, hplain, hbit, code] at hheader ⊢
      simp only [hheader]
      rfl

/-! ## The law -/

/-- Exactly the bytes in the format are read, and the frame that is read is written as the same
bytes again. From the bytes of a frame its payload comes back and its header as it is sent, with the
reserved bits cut to three; a header whose reserved bits fit into three comes back as it is. -/
theorem frames_and_bytes_in_the_format_correspond :
    (∀ bs, (∃ f, decode bs = .ok f) ↔ InFormat bs) ∧
      (∀ bs f, decode bs = .ok f → f.encode = bs) ∧
      ∀ f : Frame,
        decode f.encode = .ok ⟨{ f.header with reserved := f.header.reserved % 8 }, f.payload⟩ ∧
          (f.header.reserved ≤ 7 → decode f.encode = .ok f) := by
  refine ⟨fun bs => ⟨?_, decode_isOk⟩, fun bs f => encode_of_decode, fun f => ?_⟩
  · rintro ⟨f, hf⟩
    rw [← encode_of_decode hf]
    exact f.inFormat_encode
  · refine ⟨f.decode_encode, fun hreserved => ?_⟩
    have hfits : f.header.reserved % 8 = f.header.reserved :=
      UInt8.mod_eq_of_lt (UInt8.lt_of_le_of_lt hreserved (by decide))
    rw [f.decode_encode, Header.sent, hfits]

/-- A frame with a manufacturer code and every reserved bit, and its bytes. -/
theorem a_frame_full_of_reserved_bits :
    let f : Frame := ⟨⟨.clusterSpecific, some 0x115f, .serverToClient, true, 7, 0x2a, 0x02⟩, [0xaa]⟩
    let bs : Bytes := [0xfd, 0x5f, 0x11, 0x2a, 0x02, 0xaa]
    f.header.reserved ≤ 7 ∧ decode f.encode = .ok f ∧ decode bs = .ok f ∧ f.encode = bs := by
  intro f bs
  have hreserved : f.header.reserved ≤ 7 := by decide
  have hdecode : decode bs = .ok f := by cbv
  obtain ⟨-, hwrites, hreads⟩ := frames_and_bytes_in_the_format_correspond
  exact ⟨hreserved, (hreads f).2 hreserved, hdecode, hwrites bs f hdecode⟩

end Frame

end ZigbeeGateway.Zcl
