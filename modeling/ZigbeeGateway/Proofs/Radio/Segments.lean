-- Everything that is read from a stream stands in it. However a reader of the line is used, the
-- stream so far comes apart into segments that were read one after the other, noise between them,
-- and the bytes held at the end, which never hold a whole frame back.
import Mathlib.Data.List.TakeWhile
import ZigbeeGateway.Proofs.Radio.Noise
namespace ZigbeeGateway.Radio

/-! ## What a segment is read as -/

theorem Kind.code_of_ofCode? {code : UInt8} {k : Kind} (h : Kind.ofCode? code = some k) :
    k.code = code := by
  simpa using List.find?_some h

theorem Subsystem.code_of_ofCode? {code : UInt8} {s : Subsystem}
    (h : Subsystem.ofCode? code = some s) : s.code = code := by
  simpa using List.find?_some h

namespace Frame

variable {commandByte command : UInt8} {payload : Bytes}

theorem ofParts_eq_ok {f : Frame} (h : ofParts commandByte command payload = .ok f) :
    f.commandByte = commandByte ∧ f.command = command ∧ f.payload = payload := by
  unfold ofParts at h
  split at h
  · rename_i kind subsystem hkind hsubsystem
    cases h
    refine ⟨?_, rfl, rfl⟩
    rw [Frame.commandByte, Kind.code_of_ofCode? hkind, Subsystem.code_of_ofCode? hsubsystem]
    have hlt := commandByte.toNat_lt
    rw [← UInt8.toNat_inj]
    simp only [UInt8.toNat_add, UInt8.toNat_mul, UInt8.toNat_div, UInt8.toNat_mod,
      UInt8.toNat_ofNat, Nat.reducePow, Nat.reduceMod]
    omega
  · cases h

/-- The command byte of a frame is refused for no frame. -/
theorem ofParts_eq_error {e : LinkError} (h : ofParts commandByte command payload = .error e) :
    e = .unknownCommand commandByte ∧ ∀ f : Frame, f.commandByte ≠ commandByte := by
  refine ⟨?_, fun f hf => ?_⟩
  · unfold ofParts at h
    split at h
    · cases h
    · cases h
      rfl
  · have hok := ofParts_commandByte { f with command, payload }
    change ofParts f.commandByte command payload = _ at hok
    rw [hf, h] at hok
    cases hok

end Frame

/-- What a segment of a stream is read as: the frame whose bytes it is, or else a packet with the
wrong check, or with the right one but a command byte that no frame has. -/
inductive ReadAs : Bytes → Except LinkError Frame → Prop
  | frame {f : Frame} {segment : Bytes} : f.encode = .ok segment → ReadAs segment (.ok f)
  | damaged (p : Packet) : p.expected ≠ p.check →
      ReadAs p.bytes (.error (.checksum p.expected p.check))
  | unknown (p : Packet) : p.expected = p.check → (∀ f : Frame, f.commandByte ≠ p.commandByte) →
      ReadAs p.bytes (.error (.unknownCommand p.commandByte))

namespace Packet

variable {p : Packet}

/-- The frame that is read from a packet is written as the same packet again. -/
theorem encode_of_ofParts {f : Frame} (hcheck : p.expected = p.check)
    (h : Frame.ofParts p.commandByte p.command p.payload = .ok f) : f.encode = .ok p.bytes := by
  obtain ⟨hbyte, hcommand, hpayload⟩ := Frame.ofParts_eq_ok h
  have hlength : f.payload.length = p.length.toNat := by rw [hpayload, p.length_payload]
  have hsize : f.payload.length ≤ 255 := by
    have hlt := p.length.toNat_lt
    omega
  have hbody : f.body = p.length :: p.commandByte :: p.command :: p.payload := by
    rw [Frame.body, hlength, UInt8.ofNat_toNat, hbyte, hcommand, hpayload]
  rw [Frame.encode, if_pos hsize, hbody, ← Packet.expected, hcheck]
  simp [bytes]

theorem readAs (p : Packet) : ReadAs p.bytes p.frame := by
  by_cases hcheck : p.expected = p.check
  · rw [frame_of_eq hcheck]
    rcases hparts : Frame.ofParts p.commandByte p.command p.payload with e | f
    · obtain ⟨rfl, hunknown⟩ := Frame.ofParts_eq_error hparts
      exact .unknown p hcheck hunknown
    · exact .frame (encode_of_ofParts hcheck hparts)
  · rw [frame_of_ne hcheck]
    exact .damaged p hcheck

end Packet

namespace Stream

/-! ## Streams in segments -/

/-- Something that was read from a stream, with the noise in front of it. -/
structure Segment where
  noise : Bytes
  bytes : Bytes
  result : Except LinkError Frame
  isNoise : Noise noise
  readAs : ReadAs bytes result

def Segment.all (s : Segment) : Bytes := s.noise ++ s.bytes

/-- What has come out of a stream, and the bytes held. -/
structure Readout where
  results : List (Except LinkError Frame)
  held : Bytes

/-- A stream comes apart into segments, from which came the results, noise that was dropped behind
them, and the bytes held. -/
def Segmented (stream : Bytes) (r : Readout) : Prop :=
  ∃ (segments : List Segment) (dropped : Bytes), Noise dropped ∧
    stream = segments.flatMap Segment.all ++ dropped ++ r.held ∧
    r.results = segments.map Segment.result

/-- Noise stands in front of the first start byte. -/
theorem exists_noise (bs : Bytes) : ∃ noise, Noise noise ∧ bs = noise ++ fromStart bs := by
  refine ⟨bs.takeWhile (· ≠ startByte), fun hmem => ?_, List.takeWhile_append_dropWhile.symm⟩
  simpa using List.mem_takeWhile_imp hmem

theorem noise_append {noise more : Bytes} (h : Noise noise) (hmore : Noise more) :
    Noise (noise ++ more) := by
  rw [Noise, List.mem_append]
  exact not_or_intro h hmore

namespace Segmented

variable {stream : Bytes} {r : Readout}

theorem nil : Segmented [] ⟨[], []⟩ := ⟨[], [], List.not_mem_nil, rfl, rfl⟩

/-- A chunk goes behind the bytes held. -/
theorem append (h : Segmented stream r) (chunk : Bytes) :
    Segmented (stream ++ chunk) { r with held := r.held ++ chunk } := by
  obtain ⟨segments, dropped, hdropped, hstream, hresults⟩ := h
  exact ⟨segments, dropped, hdropped, by rw [hstream, List.append_assoc], hresults⟩

/-- What is read next is a segment of the bytes held; if nothing is, only noise is dropped. -/
theorem next (h : Segmented stream r) :
    Segmented stream ⟨r.results ++ (next r.held).1.toList, (next r.held).2⟩ := by
  obtain ⟨segments, dropped, hdropped, hstream, hresults⟩ := h
  obtain ⟨noise, hnoise, hheld⟩ := exists_noise r.held
  have hall := noise_append hdropped hnoise
  rcases packet_or_wait r.held with ⟨p, after, hp⟩ | hwait
  · -- The noise in front of the packet goes with all that was dropped since the last one.
    have hnext := next_of_fromStart hp
    refine ⟨segments ++ [⟨dropped ++ noise, p.bytes, p.frame, hall, p.readAs⟩], [],
      List.not_mem_nil, ?_, ?_⟩
    · rw [hp] at hheld
      rw [hnext, hstream, hheld]
      simp [Segment.all]
    · rw [hnext, hresults]
      simp
  · refine ⟨segments, dropped ++ noise, hall, ?_, ?_⟩
    · rw [hwait, hstream]
      simp only [List.append_assoc]
      rw [← hheld]
    · rw [hwait, hresults]
      simp

/-- Reading until nothing is left is reading one frame after the other. -/
theorem drain {r : Readout} (h : Segmented stream r) :
    Segmented stream ⟨r.results ++ (drain r.held).1, (drain r.held).2⟩ := by
  have hstep := h.next
  rcases hnext : Stream.next r.held with ⟨_ | result, rest⟩
  · rw [drain_none hnext]
    rwa [hnext] at hstep
  · rw [drain_some hnext, List.append_cons]
    rw [hnext] at hstep
    exact hstep.drain
termination_by r.held.length
decreasing_by exact next_length_lt hnext

/-- Chunks are read one after the other, each until nothing is left. -/
theorem feed {r : Readout} (h : Segmented stream r) (chunks : List Bytes) :
    Segmented (stream ++ chunks.flatten)
      ⟨r.results ++ (feed r.held chunks).1, (feed r.held chunks).2⟩ := by
  induction chunks generalizing stream r with
  | nil => simpa [Stream.feed] using h
  | cons chunk chunks ih =>
    have hrest := ih (h.append chunk).drain
    simpa only [Stream.feed, push, List.flatten_cons, List.append_assoc] using hrest

end Segmented

/-! ## The reader in use -/

/-- What is done with a reader of a stream. -/
inductive Use where
  | push (chunk : Bytes)
  /-- The next frame is asked for. -/
  | next

/-- The bytes that come in with a use. -/
def Use.bytes : Use → Bytes
  | push chunk => chunk
  | next => []

def Readout.use (r : Readout) : Use → Readout
  | .push chunk => { r with held := r.held ++ chunk }
  | .next => ⟨r.results ++ (next r.held).1.toList, (next r.held).2⟩

/-- What has come out of a new reader after these uses. -/
def Readout.after (uses : List Use) : Readout := uses.foldl use ⟨[], []⟩

theorem Segmented.use {stream : Bytes} {r : Readout} (h : Segmented stream r) (u : Use) :
    Segmented (stream ++ u.bytes) (r.use u) := by
  cases u with
  | push chunk => exact h.append chunk
  | next =>
    rw [Use.bytes, List.append_nil]
    exact h.next

theorem Segmented.foldl {stream : Bytes} {r : Readout} (h : Segmented stream r) (uses : List Use) :
    Segmented (stream ++ uses.flatMap Use.bytes) (uses.foldl Readout.use r) := by
  induction uses generalizing stream r with
  | nil => simpa using h
  | cons u uses ih =>
    rw [List.flatMap_cons, ← List.append_assoc, List.foldl_cons]
    exact ih (h.use u)

/-- What is held when nothing is left to be read waits for more bytes. -/
theorem waiting_of_next {held rest : Bytes} (h : next held = (none, rest)) : Waiting rest := by
  rcases packet_or_waiting held with ⟨p, after, hp⟩ | hwaiting
  · rw [next_of_fromStart hp] at h
    cases h
  · rw [next_of_waiting hwaiting] at h
    cases h
    exact hwaiting

theorem waiting_of_drain {held : Bytes} (h : drain held = ([], held)) : Waiting held := by
  rcases hnext : next held with ⟨_ | result, rest⟩
  · rw [drain_none hnext] at h
    cases h
    exact waiting_of_next hnext
  · rw [drain_some hnext] at h
    cases h

/-- What is held once a stream has nothing more to be read: the end of the stream, which waits for
the rest of its frame. -/
structure Settled (stream held : Bytes) : Prop where
  suffix : held <:+ stream
  waiting : Waiting held
  length_le : held.length ≤ 259

theorem Segmented.settled {stream : Bytes} {r : Readout} (h : Segmented stream r)
    (hwaiting : Waiting r.held) : Settled stream r.held := by
  obtain ⟨segments, dropped, -, hstream, -⟩ := h
  exact ⟨⟨segments.flatMap Segment.all ++ dropped, hstream.symm⟩, hwaiting, hwaiting.length_le⟩

/-! ## The law -/

/-- However a reader is used, the stream so far comes apart into what was read, in the order of the
results, noise between, and the bytes held: nothing is made up, and nothing but noise gets lost.
Once the reader is asked and has nothing, it holds just the end of the stream, in less than 260
bytes, which waits for the rest of its frame. The same is true of a reader that is given chunks and
asked after each until it has nothing. -/
theorem whatever_is_read_stands_in_the_stream :
    (∀ uses : List Use,
      Segmented (uses.flatMap Use.bytes) (Readout.after uses) ∧
        ∀ held, next (Readout.after uses).held = (none, held) →
          Settled (uses.flatMap Use.bytes) held) ∧
      ∀ chunks : List Bytes,
        Segmented chunks.flatten ⟨(feed [] chunks).1, (feed [] chunks).2⟩ ∧
          Settled chunks.flatten (feed [] chunks).2 := by
  refine ⟨fun uses => ?_, fun chunks => ?_⟩
  · have hsegmented : Segmented (uses.flatMap Use.bytes) (Readout.after uses) :=
      Segmented.nil.foldl uses
    refine ⟨hsegmented, fun held hnext => ?_⟩
    have hstep := hsegmented.next
    rw [hnext] at hstep
    exact hstep.settled (waiting_of_next hnext)
  · have hsegmented := Segmented.nil.feed chunks
    have hdrained : drain (feed [] chunks).2 = ([], (feed [] chunks).2) := by
      rw [feed_eq drain_nil]
      exact drain_held _
    exact ⟨hsegmented, hsegmented.settled (waiting_of_drain hdrained)⟩

/-- A reader that is asked too early and not often enough: a good frame behind noise, a damaged one,
one of an unknown command, and the beginning of a fourth. -/
theorem a_reader_asked_now_and_then :
    let uses : List Use :=
      [.push [0x13, 0xfe, 0x00], .next, .push [0x21, 0x01, 0x20, 0xfe, 0x00, 0x21, 0xfe, 0x00],
        .next, .push [0xfe, 0x00, 0x11, 0x00, 0x11, 0x99, 0xfe, 0x01], .next, .next]
    (Readout.after uses).results = [.ok ⟨.request, .sys, 0x01, []⟩, .error (.checksum 0xdf 0x00),
        .error (.unknownCommand 0x11)] ∧
      Segmented (uses.flatMap Use.bytes) (Readout.after uses) ∧
      next (Readout.after uses).held = (none, [0xfe, 0x01]) ∧
      Settled (uses.flatMap Use.bytes) [0xfe, 0x01] := by
  intro uses
  have hnext : next (Readout.after uses).held = (none, [0xfe, 0x01]) := rfl
  obtain ⟨hsegmented, hsettled⟩ := whatever_is_read_stands_in_the_stream.1 uses
  exact ⟨rfl, hsegmented, hnext, hsettled _ hnext⟩

end Stream

end ZigbeeGateway.Radio
