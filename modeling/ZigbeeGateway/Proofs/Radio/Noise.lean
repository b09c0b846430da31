-- Whole conversations come through a noisy line: every frame that is written is a packet, noise
-- between packets is dropped, and start bytes inside a packet mislead nobody.
import ZigbeeGateway.Proofs.Radio.Chunks
namespace ZigbeeGateway.Radio

/-! ## Frames as packets -/

theorem Frame.ofParts_commandByte (f : Frame) :
    ofParts f.commandByte f.command f.payload = .ok f := by
  have hcodes : ∀ k ∈ Kind.all, ∀ s ∈ Subsystem.all,
      Kind.ofCode? ((k.code * 16 + s.code) / 16) = some k ∧
        Subsystem.ofCode? ((k.code * 16 + s.code) % 16) = some s := by decide
  have hkind : f.kind ∈ Kind.all := by cases f.kind <;> decide
  have hsubsystem : f.subsystem ∈ Subsystem.all := by cases f.subsystem <;> decide
  obtain ⟨hk, hs⟩ := hcodes f.kind hkind f.subsystem hsubsystem
  rw [ofParts, commandByte, hk, hs]

/-- The packet that a frame is written as. -/
def Frame.packet (f : Frame) (h : f.payload.length ≤ 255) : Packet where
  length := UInt8.ofNat f.payload.length
  commandByte := f.commandByte
  command := f.command
  payload := f.payload
  check := checksum f.body
  length_payload := by
    rw [UInt8.toNat_ofNat']
    omega

theorem Frame.encode_eq (f : Frame) (h : f.payload.length ≤ 255) :
    f.encode = .ok (f.packet h).bytes := by
  rw [encode, if_pos h]
  rfl

theorem Frame.frame_packet (f : Frame) (h : f.payload.length ≤ 255) :
    (f.packet h).frame = .ok f := by
  rw [Packet.frame, Stream.readFrame]
  simp only [packet, body, if_true]
  exact f.ofParts_commandByte

/-! ## Conversations -/

/-- Frames as they come over the line, each with noise in front of it. -/
def onLine : List (Bytes × Frame) → Except LinkError Bytes
  | [] => .ok []
  | (noise, f) :: rest => do return noise ++ (← f.encode) ++ (← onLine rest)

namespace Stream

theorem drain_noise {noise : Bytes} (h : Noise noise) (bs : Bytes) :
    drain (noise ++ bs) = drain bs := by
  rw [← drain_fromStart, fromStart_noise_append h, drain_fromStart]

/-- Every frame that comes over the line is read, and the noise behind the last one is dropped. -/
theorem drain_onLine {last : Bytes} (hlast : Noise last) (talk : List (Bytes × Frame))
    (hnoise : ∀ entry ∈ talk, Noise entry.1)
    (hsize : ∀ entry ∈ talk, entry.2.payload.length ≤ 255) :
    ∃ bs, onLine talk = .ok bs ∧ drain (bs ++ last) = (talk.map (.ok ·.2), []) := by
  induction talk with
  | nil =>
    refine ⟨[], rfl, ?_⟩
    have hdrop := drain_noise hlast []
    rwa [List.append_nil, drain_nil] at hdrop
  | cons entry rest ih =>
    obtain ⟨noise, f⟩ := entry
    have hf : f.payload.length ≤ 255 := hsize (noise, f) List.mem_cons_self
    obtain ⟨bs, hbs, hdrain⟩ := ih (fun e he => hnoise e (List.mem_cons_of_mem _ he))
      (fun e he => hsize e (List.mem_cons_of_mem _ he))
    refine ⟨noise ++ (f.packet hf).bytes ++ bs, ?_, ?_⟩
    · rw [onLine, f.encode_eq hf, hbs]
      rfl
    · rw [List.append_assoc, List.append_assoc, drain_noise (hnoise (noise, f) List.mem_cons_self),
        drain_packet, hdrain, f.frame_packet hf]
      rfl

/-- Frames that fit into packets come through, whatever noise without start bytes is before, between
and behind them, and however the stream is cut into chunks: exactly these frames are read, in this
order and undamaged, and nothing is held at the end. -/
theorem a_conversation_comes_through_noise (talk : List (Bytes × Frame)) (last : Bytes)
    (hnoise : ∀ entry ∈ talk, startByte ∉ entry.1)
    (hsize : ∀ entry ∈ talk, entry.2.payload.length ≤ 255) (hlast : startByte ∉ last) :
    ∃ bs, onLine talk = .ok bs ∧ ∀ chunks : List Bytes, chunks.flatten = bs ++ last →
      feed [] chunks = (talk.map (.ok ·.2), []) := by
  obtain ⟨bs, hbs, hdrain⟩ := drain_onLine hlast talk hnoise hsize
  refine ⟨bs, hbs, fun chunks hchunks => ?_⟩
  rw [feed_eq drain_nil, List.nil_append, hchunks, hdrain]

/-- Two frames full of start bytes, cut inside a header. -/
theorem start_bytes_inside_packets_mislead_nobody :
    let first : Frame := ⟨.notice, .zdo, 0xfe, [0xfe, 0x00]⟩
    let second : Frame := ⟨.response, .sys, 0x01, []⟩
    let chunks : List Bytes := [[0x00, 0x13, 0xfe], [0x02, 0x45, 0xfe, 0xfe, 0x00, 0x47, 0x20],
      [0xfe, 0x00, 0x61], [0x01, 0x60, 0x99]]
    feed [] chunks = ([.ok first, .ok second], []) := by
  intro first second chunks
  obtain ⟨bs, hbs, hfeed⟩ := a_conversation_comes_through_noise
    [([0x00, 0x13], first), ([0x20], second)] [0x99] (by decide) (by decide) (by decide)
  have hline : onLine [([0x00, 0x13], first), ([0x20], second)] = .ok [0x00, 0x13, 0xfe, 0x02, 0x45,
      0xfe, 0xfe, 0x00, 0x47, 0x20, 0xfe, 0x00, 0x61, 0x01, 0x60] := by cbv
  rw [hline] at hbs
  cases hbs
  exact hfeed chunks rfl

end Stream

end ZigbeeGateway.Radio
