-- A byte that changes on the line costs the frame that it is in and no other. The check of a packet
-- notices every change of one byte, and a packet whose start and length are left alone still ends
-- where it did, so that what comes after it is read as if nothing had happened.
import ZigbeeGateway.Proofs.Radio.Noise
namespace ZigbeeGateway.Radio

/-! ## Checks -/

theorem foldl_xor (bs : Bytes) (start : UInt8) :
    bs.foldl (· ^^^ ·) start = start ^^^ checksum bs := by
  induction bs generalizing start with
  | nil => simp [checksum]
  | cons b bs ih =>
    have hcons : checksum (b :: bs) = b ^^^ checksum bs := by
      rw [checksum, List.foldl_cons, ih, UInt8.zero_xor]
    rw [List.foldl_cons, ih, hcons, UInt8.xor_assoc]

theorem checksum_cons (b : UInt8) (bs : Bytes) : checksum (b :: bs) = b ^^^ checksum bs := by
  rw [checksum, List.foldl_cons, foldl_xor, UInt8.zero_xor]

theorem checksum_append (bs more : Bytes) :
    checksum (bs ++ more) = checksum bs ^^^ checksum more := by
  rw [checksum, List.foldl_append, foldl_xor]
  rfl

/-- A change of one byte changes the check in the same bits. -/
theorem checksum_set {bs : Bytes} {i : Nat} (h : i < bs.length) (b : UInt8) :
    checksum (bs.set i b) = checksum bs ^^^ (bs[i] ^^^ b) := by
  induction bs generalizing i with
  | nil => cases h
  | cons old bs ih =>
    cases i with
    | zero =>
      rw [List.set_cons_zero, checksum_cons, checksum_cons, List.getElem_cons_zero]
      calc b ^^^ checksum bs = (old ^^^ old) ^^^ (b ^^^ checksum bs) := by
            rw [UInt8.xor_self, UInt8.zero_xor]
        _ = (old ^^^ checksum bs) ^^^ (old ^^^ b) := by ac_rfl
    | succ i =>
      have hi : i < bs.length := Nat.lt_of_succ_lt_succ h
      rw [List.set_cons_succ, checksum_cons, checksum_cons, ih hi, List.getElem_cons_succ,
        UInt8.xor_assoc]

namespace Packet

variable {p : Packet}

/-- Over everything behind the start byte, the two checks of a packet meet. -/
theorem checksum_tail (p : Packet) : checksum p.bytes.tail = p.expected ^^^ p.check := by
  have htail : p.bytes.tail = (p.length :: p.commandByte :: p.command :: p.payload) ++ [p.check] :=
    rfl
  rw [htail, checksum_append, checksum_cons p.check, ← expected]
  simp [checksum]

/-- A packet with a changed byte, if that is not the start byte or the length, is still a packet. -/
theorem exists_set (p : Packet) {i : Nat} (hi : 2 ≤ i) (b : UInt8) :
    ∃ q : Packet, q.bytes = p.bytes.set i b := by
  obtain ⟨j, rfl⟩ := Nat.exists_eq_add_of_le' hi
  let rest := p.commandByte :: p.command :: (p.payload ++ [p.check])
  have hbytes : p.bytes = startByte :: p.length :: rest := rfl
  have hrest : (rest.set j b).length = p.length.toNat + 3 := by
    simp [rest, p.length_payload]
  obtain ⟨q, after, hlength, hq⟩ := exists_of_length_le (Nat.le_of_eq hrest.symm)
  -- As many bytes as before stand behind the same length, so the packet takes all of them.
  have hafter : after = [] := by
    have hcount := congrArg List.length hq
    rw [List.length_append, length_bytes, hlength, List.length_cons, List.length_cons, hrest]
      at hcount
    exact List.eq_nil_of_length_eq_zero (by omega)
  refine ⟨q, ?_⟩
  rw [hafter, List.append_nil] at hq
  rw [hbytes, List.set_cons_succ, List.set_cons_succ, hq]

/-- The checks of a changed packet differ in the bits that were changed. -/
theorem expected_xor_check {q : Packet} {i : Nat} {b : UInt8} (hgood : p.expected = p.check)
    (hi : 2 ≤ i) (hlt : i < p.bytes.length) (hq : q.bytes = p.bytes.set i b) :
    q.expected ^^^ q.check = p.bytes[i] ^^^ b := by
  obtain ⟨j, rfl⟩ := Nat.exists_eq_add_of_le' (Nat.le_of_succ_le hi)
  have hj : j < p.bytes.tail.length := by
    rw [List.length_tail]
    omega
  have htail : q.bytes.tail = p.bytes.tail.set j b := by
    rw [hq, bytes, List.set_cons_succ, List.tail_cons, List.tail_cons]
  rw [← checksum_tail, htail, checksum_set hj, checksum_tail, hgood, UInt8.xor_self,
    UInt8.zero_xor, List.getElem_tail]

/-- A good packet with a changed byte is still a packet, but one that is read as damaged. -/
theorem exists_damaged (hgood : p.expected = p.check) {i : Nat} (hi : 2 ≤ i)
    (hlt : i < p.bytes.length) {b : UInt8} (hb : b ≠ p.bytes[i]) :
    ∃ q : Packet, q.bytes = p.bytes.set i b ∧
      q.frame = .error (.checksum q.expected q.check) ∧
      q.expected ^^^ q.check = p.bytes[i] ^^^ b := by
  obtain ⟨q, hq⟩ := p.exists_set hi b
  have hdiff := expected_xor_check hgood hi hlt hq
  refine ⟨q, hq, frame_of_ne fun heq => ?_, hdiff⟩
  rw [heq, UInt8.xor_self, eq_comm, UInt8.xor_eq_zero_iff] at hdiff
  exact hb hdiff.symm

end Packet

/-- A frame is written with the check that it asks for. -/
theorem Frame.expected_packet (f : Frame) (h : f.payload.length ≤ 255) :
    (f.packet h).expected = (f.packet h).check := rfl

namespace Stream

/-! ## Conversations -/

/-- Frames as they come over the line with nothing between them. -/
def inARow (frames : List Frame) : Except LinkError Bytes := onLine (frames.map ([], ·))

/-- Frames in a row are read whatever comes after them. -/
theorem drain_inARow {frames : List Frame} (hsize : ∀ f ∈ frames, f.payload.length ≤ 255) :
    ∃ bs, inARow frames = .ok bs ∧ ∀ more,
      drain (bs ++ more) = (frames.map .ok ++ (drain more).1, (drain more).2) := by
  have hquiet : Noise [] := List.not_mem_nil
  obtain ⟨bs, hbs, hdrain⟩ := drain_onLine hquiet (frames.map ([], ·)) (by simp [Noise])
    (by simpa using hsize)
  refine ⟨bs, hbs, fun more => ?_⟩
  rw [List.append_nil, List.map_map] at hdrain
  rw [drain_append, hdrain, List.nil_append]
  rfl

/-- If one byte of a frame in a row of them changes on the line, and that is not its start byte or
its length, then in place of the frame a damaged one is reported, whose checks differ in the bits
that were changed. All other frames are read as before, however the stream is cut into chunks. -/
theorem a_damaged_byte_costs_one_frame (before after : List Frame) (f : Frame)
    (hsize : ∀ g ∈ before ++ f :: after, g.payload.length ≤ 255) :
    ∃ front bs back, inARow before = .ok front ∧ f.encode = .ok bs ∧ inARow after = .ok back ∧
      ∀ (i : Nat) (hi : i < bs.length) (b : UInt8), 2 ≤ i → b ≠ bs[i] →
        ∃ expected actual, expected ^^^ actual = bs[i] ^^^ b ∧ ∀ chunks : List Bytes,
          chunks.flatten = front ++ bs.set i b ++ back → feed [] chunks =
            (before.map .ok ++ .error (.checksum expected actual) :: after.map .ok, []) := by
  simp only [List.forall_mem_append, List.forall_mem_cons] at hsize
  obtain ⟨hbefore, hf, hafter⟩ := hsize
  obtain ⟨front, hfront, hdrainFront⟩ := drain_inARow hbefore
  obtain ⟨back, hback, hdrainBack⟩ := drain_inARow hafter
  refine ⟨front, (f.packet hf).bytes, back, hfront, f.encode_eq hf, hback, ?_⟩
  intro i hi b hplace hb
  obtain ⟨q, hq, hframe, hdiff⟩ := Packet.exists_damaged (f.expected_packet hf) hplace hi hb
  refine ⟨q.expected, q.check, hdiff, fun chunks hchunks => ?_⟩
  have hrest := hdrainBack []
  rw [List.append_nil, drain_nil, List.append_nil] at hrest
  rw [feed_eq drain_nil, List.nil_append, hchunks, List.append_assoc, hdrainFront, ← hq,
    drain_packet, hframe, hrest]

/-- The second of three frames arrives with a start byte as its payload. -/
theorem a_start_byte_by_damage_misleads_nobody :
    let first : Frame := ⟨.response, .sys, 0x01, []⟩
    let second : Frame := ⟨.notice, .zdo, 0xc0, [0x09]⟩
    let third : Frame := ⟨.notice, .zdo, 0xc1, [0xfe]⟩
    let chunks : List Bytes := [[0xfe, 0x00, 0x61, 0x01, 0x60, 0xfe, 0x01, 0x45],
      [0xc0, 0xfe, 0x8d, 0xfe, 0x01, 0x45, 0xc1, 0xfe], [0x7b]]
    second.encode = .ok [0xfe, 0x01, 0x45, 0xc0, 0x09, 0x8d] ∧
      ∃ expected actual : UInt8, expected ^^^ actual = 0x09 ^^^ 0xfe ∧
        feed [] chunks = ([.ok first, .error (.checksum expected actual), .ok third], []) := by
  intro first second third chunks
  obtain ⟨front, bs, back, hfront, hbs, hback, hdamage⟩ :=
    a_damaged_byte_costs_one_frame [first] [third] second (by decide)
  have hfrontBytes : inARow [first] = .ok [0xfe, 0x00, 0x61, 0x01, 0x60] := by cbv
  have hbytes : second.encode = .ok [0xfe, 0x01, 0x45, 0xc0, 0x09, 0x8d] := by cbv
  have hbackBytes : inARow [third] = .ok [0xfe, 0x01, 0x45, 0xc1, 0xfe, 0x7b] := by cbv
  rw [hfrontBytes] at hfront
  rw [hbytes] at hbs
  rw [hbackBytes] at hback
  cases hfront
  cases hbs
  cases hback
  obtain ⟨expected, actual, hdiff, hfeed⟩ := hdamage 4 (by decide) 0xfe (by decide) (by decide)
  exact ⟨hbytes, expected, actual, hdiff, hfeed chunks rfl⟩

end Stream

end ZigbeeGateway.Radio
