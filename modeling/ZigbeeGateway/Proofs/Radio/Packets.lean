-- What the stream reader looks for: packets, each from a start byte to a checksum, with noise in
-- front of them. Either a whole packet is there, or the bytes held are the beginning of one.
import ZigbeeGateway.Radio.Stream
namespace ZigbeeGateway.Radio

/-- The bytes of a frame on the line, good or damaged. -/
structure Packet where
  length : UInt8
  commandByte : UInt8
  command : UInt8
  payload : Bytes
  check : UInt8
  length_payload : payload.length = length.toNat

namespace Packet

def bytes (p : Packet) : Bytes :=
  startByte :: p.length :: p.commandByte :: p.command :: (p.payload ++ [p.check])

/-- What a packet is read as. -/
def frame (p : Packet) : Except LinkError Frame :=
  Stream.readFrame p.length p.commandByte p.command p.payload p.check

/-- The check that the bytes before it ask for. -/
def expected (p : Packet) : UInt8 :=
  checksum (p.length :: p.commandByte :: p.command :: p.payload)

theorem length_bytes (p : Packet) : p.bytes.length = p.length.toNat + 5 := by
  rw [← p.length_payload]
  simp [bytes]

theorem frame_of_ne {p : Packet} (h : p.expected ≠ p.check) :
    p.frame = .error (.checksum p.expected p.check) :=
  if_neg h

theorem frame_of_eq {p : Packet} (h : p.expected = p.check) :
    p.frame = Frame.ofParts p.commandByte p.command p.payload :=
  if_pos h

/-- Behind a start byte and a length, enough bytes are a packet and what comes after it. -/
theorem exists_of_length_le {length : UInt8} {rest : Bytes} (h : length.toNat + 3 ≤ rest.length) :
    ∃ p : Packet, ∃ after, p.length = length ∧ startByte :: length :: rest = p.bytes ++ after := by
  obtain _ | ⟨commandByte, _ | ⟨command, rest⟩⟩ := rest
  · simp at h
  · simp at h
  · simp only [List.length_cons] at h
    have hdrop : rest.drop length.toNat ≠ [] := by
      rw [Ne, List.drop_eq_nil_iff]
      omega
    obtain ⟨check, after, hafter⟩ := List.exists_cons_of_ne_nil hdrop
    have htake : (rest.take length.toNat).length = length.toNat := by
      rw [List.length_take]
      omega
    refine ⟨⟨length, commandByte, command, rest.take length.toNat, check, htake⟩, after, rfl, ?_⟩
    simp only [bytes, List.cons_append, List.append_assoc, List.nil_append]
    rw [← hafter, List.take_append_drop]

end Packet

namespace Stream

/-- Bytes without a start byte. -/
def Noise (bs : Bytes) : Prop := startByte ∉ bs

/-- Bytes from the first start byte on. -/
def fromStart (bs : Bytes) : Bytes := bs.dropWhile (· ≠ startByte)

theorem fromStart_noise_append {noise : Bytes} (h : Noise noise) (bs : Bytes) :
    fromStart (noise ++ bs) = fromStart bs := by
  apply List.dropWhile_append_of_pos
  intro b hb
  simpa using fun heq : b = startByte => h (heq ▸ hb)

theorem fromStart_start (bs : Bytes) : fromStart (startByte :: bs) = startByte :: bs := by
  simp [fromStart]

/-- What is left after noise begins with a start byte. -/
theorem fromStart_cases (bs : Bytes) :
    fromStart bs = [] ∨ ∃ rest, fromStart bs = startByte :: rest := by
  rcases h : fromStart bs with _ | ⟨b, rest⟩
  · exact Or.inl rfl
  · have hhead := List.head?_dropWhile_not (fun b => decide (b ≠ startByte)) bs
    rw [← fromStart, h] at hhead
    have hb : b = startByte := by simpa using hhead
    exact Or.inr ⟨rest, hb ▸ rfl⟩

theorem fromStart_fromStart (bs : Bytes) : fromStart (fromStart bs) = fromStart bs := by
  rcases fromStart_cases bs with h | ⟨rest, h⟩
  · rw [h]
    rfl
  · rw [h, fromStart_start]

/-- Noise that is dropped early would have been dropped later as well. -/
theorem fromStart_append (bs more : Bytes) :
    fromStart (fromStart bs ++ more) = fromStart (bs ++ more) := by
  have happend : ∀ cs : Bytes, fromStart (cs ++ more) =
      if (fromStart cs).isEmpty then fromStart more else fromStart cs ++ more :=
    fun cs => List.dropWhile_append
  rw [happend, happend, fromStart_fromStart]

/-! ## One packet -/

theorem next_fromStart (held : Bytes) : next (fromStart held) = next held := by
  have hdrop := fromStart_fromStart held
  unfold fromStart at hdrop ⊢
  simp only [next, hdrop]

theorem next_packet (p : Packet) (after : Bytes) :
    next (p.bytes ++ after) = (some p.frame, after) := by
  have hdrop := fromStart_start (p.length :: p.commandByte :: p.command ::
    (p.payload ++ [p.check] ++ after))
  unfold fromStart at hdrop
  simp only [next, Packet.bytes, List.cons_append, hdrop]
  rw [List.append_assoc, ← p.length_payload, List.drop_left, List.take_left]
  rfl

theorem next_of_fromStart {held after : Bytes} {p : Packet}
    (h : fromStart held = p.bytes ++ after) : next held = (some p.frame, after) := by
  rw [← next_fromStart, h, next_packet]

/-- How many bytes the frame takes that begins with some bytes, as far as they tell. The smallest
frame takes five, and the second byte says how many more it takes. -/
def announced : Bytes → Nat
  | _ :: length :: _ => length.toNat + 5
  | _ => 5

/-- Bytes that have to wait for more: none at all, or a frame that is not there as a whole. -/
def Waiting (held : Bytes) : Prop :=
  held = [] ∨ held.head? = some startByte ∧ held.length < announced held

/-- A frame takes at most 260 bytes. -/
theorem Waiting.length_le {held : Bytes} (h : Waiting held) : held.length ≤ 259 := by
  rcases h with rfl | ⟨-, hlt⟩
  · simp
  · unfold announced at hlt
    split at hlt
    · rename_i length _
      have hlength := length.toNat_lt
      omega
    · omega

/-- Either a whole packet is in front, or the bytes have to wait for more. -/
theorem packet_or_waiting (held : Bytes) :
    (∃ p : Packet, ∃ after, fromStart held = p.bytes ++ after) ∨ Waiting (fromStart held) := by
  rcases fromStart_cases held with h | ⟨_ | ⟨length, rest⟩, h⟩
  · exact Or.inr (Or.inl h)
  · rw [h]
    exact Or.inr (Or.inr ⟨rfl, by simp [announced]⟩)
  · rw [h]
    by_cases hlength : length.toNat + 3 ≤ rest.length
    · obtain ⟨p, after, -, hp⟩ := Packet.exists_of_length_le hlength
      exact Or.inl ⟨p, after, hp⟩
    · refine Or.inr (Or.inr ⟨rfl, ?_⟩)
      simp only [announced, List.length_cons]
      omega

theorem next_of_waiting {held : Bytes} (h : Waiting (fromStart held)) :
    next held = (none, fromStart held) := by
  unfold next
  rw [← fromStart]
  rcases hheld : fromStart held with
    _ | ⟨start, _ | ⟨length, _ | ⟨commandByte, _ | ⟨command, rest⟩⟩⟩⟩
  · rfl
  · rfl
  · rfl
  · rfl
  · have hrest : rest.drop length.toNat = [] := by
      rw [hheld] at h
      rcases h with h | ⟨-, hlt⟩
      · cases h
      · simp only [announced, List.length_cons] at hlt
        rw [List.drop_eq_nil_iff]
        omega
    simp only [hrest]

/-- Either a whole packet is in front, or the reader waits for more bytes. -/
theorem packet_or_wait (held : Bytes) :
    (∃ p : Packet, ∃ after, fromStart held = p.bytes ++ after) ∨
      next held = (none, fromStart held) :=
  (packet_or_waiting held).imp_right next_of_waiting

/-! ## All packets -/

theorem drain_some {held rest : Bytes} {frame : Except LinkError Frame}
    (h : next held = (some frame, rest)) :
    drain held = (frame :: (drain rest).1, (drain rest).2) := by
  rw [drain]
  split
  · rename_i heq
    rw [heq] at h
    cases h
  · rename_i heq
    rw [heq] at h
    cases h
    rfl

theorem drain_none {held rest : Bytes} (h : next held = (none, rest)) :
    drain held = ([], rest) := by
  rw [drain]
  split
  · rename_i heq
    rw [heq] at h
    cases h
    rfl
  · rename_i heq
    rw [heq] at h
    cases h

theorem drain_fromStart (held : Bytes) : drain (fromStart held) = drain held := by
  rcases h : next held with ⟨_ | frame, rest⟩
  · rw [drain_none h, drain_none ((next_fromStart held).trans h)]
  · rw [drain_some h, drain_some ((next_fromStart held).trans h)]

theorem drain_packet (p : Packet) (after : Bytes) :
    drain (p.bytes ++ after) = (p.frame :: (drain after).1, (drain after).2) :=
  drain_some (next_packet p after)

end Stream

end ZigbeeGateway.Radio
