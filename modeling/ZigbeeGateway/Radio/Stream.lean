-- Frames out of a stream of bytes that arrives in chunks. Bytes in front of a start byte
-- are dropped. A damaged frame is reported and used up, and reading goes on after it.
import ZigbeeGateway.Radio.Frame
namespace ZigbeeGateway.Radio.Stream

/-- The frame between a start byte and a checksum. -/
def readFrame (length commandByte command : UInt8) (payload : Bytes) (actual : UInt8) :
    Except LinkError Frame :=
  let expected := checksum (length :: commandByte :: command :: payload)
  if expected = actual then Frame.ofParts commandByte command payload
  else .error (.checksum expected actual)

/-- The next frame or damaged frame in the bytes held, if it is there as a whole, and the bytes to
hold after it. -/
def next (held : Bytes) : Option (Except LinkError Frame) × Bytes :=
  let held := held.dropWhile (· ≠ startByte)
  match held with
  | _ :: length :: commandByte :: command :: rest =>
    match rest.drop length.toNat with
    | [] => (none, held)
    | actual :: after =>
      (some (readFrame length commandByte command (rest.take length.toNat) actual), after)
  | _ => (none, held)

theorem length_dropWhile_le {α : Type} (p : α → Bool) (l : List α) :
    (l.dropWhile p).length ≤ l.length := (List.dropWhile_sublist p).length_le

/-- A frame uses up bytes. -/
theorem next_length_lt {held rest : Bytes} {frame : Except LinkError Frame}
    (h : next held = (some frame, rest)) : rest.length < held.length := by
  have hle := length_dropWhile_le (· ≠ startByte) held
  simp only [next] at h
  split at h
  · rename_i heq
    rw [heq] at hle
    simp only [List.length_cons] at hle
    split at h
    · simp at h
    · rename_i hdrop
      have := congrArg List.length hdrop
      simp only [List.length_drop, List.length_cons] at this
      simp only [Prod.mk.injEq] at h
      rw [← h.2]
      omega
  · simp at h

/-- All frames and damaged frames in the bytes held, and the bytes to hold after them. -/
def drain (held : Bytes) : List (Except LinkError Frame) × Bytes :=
  match _h : next held with
  | (none, rest) => ([], rest)
  | (some frame, rest) =>
    let (frames, rest) := drain rest
    (frame :: frames, rest)
termination_by held.length
decreasing_by exact next_length_lt _h

/-- What one more chunk brings, after the bytes held so far. -/
def push (held chunk : Bytes) : List (Except LinkError Frame) × Bytes := drain (held ++ chunk)

end ZigbeeGateway.Radio.Stream
