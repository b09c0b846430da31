-- However a stream is cut into chunks, the same frames and damaged frames come out of it, in the
-- same order, and the same bytes are held at the end. So the cut, and faults of the line between
-- the chunks, make no difference to those who wait and listen.
import Mathlib.Order.Basic
import ZigbeeGateway.Proofs.Radio.Packets
import ZigbeeGateway.Radio.Session
namespace ZigbeeGateway.Radio

namespace Stream

/-- Everything that chunks bring one after the other, and the bytes held after the last. -/
def feed (held : Bytes) : List Bytes → List (Except LinkError Frame) × Bytes
  | [] => ([], held)
  | chunk :: chunks =>
    let (frames, held) := push held chunk
    let (more, held) := feed held chunks
    (frames ++ more, held)

/-- A decision that was taken on the bytes held so far is taken on more bytes as well. -/
theorem drain_append (held more : Bytes) :
    drain (held ++ more) =
      ((drain held).1 ++ (drain ((drain held).2 ++ more)).1,
        (drain ((drain held).2 ++ more)).2) := by
  have hmore : drain (held ++ more) = drain (fromStart held ++ more) := by
    rw [← drain_fromStart, ← fromStart_append, drain_fromStart]
  rcases packet_or_wait held with ⟨p, after, heq⟩ | hwait
  · have hshort : after.length < held.length := by
      have hle := length_dropWhile_le (· ≠ startByte) held
      rw [← fromStart, heq] at hle
      simp only [Packet.bytes, List.cons_append, List.length_cons, List.length_append] at hle
      omega
    rw [hmore, ← drain_fromStart held, heq, List.append_assoc, drain_packet, drain_packet,
      drain_append after more, List.cons_append]
  · rw [hmore, drain_none hwait, List.nil_append]
termination_by held.length

/-- What is held has nothing whole in it. -/
theorem drain_held (held : Bytes) : drain (drain held).2 = ([], (drain held).2) := by
  have h := drain_append held []
  rw [List.append_nil, List.append_nil, Prod.ext_iff] at h
  exact Prod.ext (List.self_eq_append_right.mp h.1) h.2.symm

theorem feed_eq {held : Bytes} (h : drain held = ([], held)) (chunks : List Bytes) :
    feed held chunks = drain (held ++ chunks.flatten) := by
  induction chunks generalizing held with
  | nil => rw [feed, List.flatten_nil, List.append_nil, h]
  | cons chunk chunks ih =>
    have hrest := ih (drain_held (held ++ chunk))
    rw [List.flatten_cons, ← List.append_assoc, drain_append, ← hrest]
    rfl

theorem drain_nil : drain [] = ([], []) := drain_none rfl

/-- The frames that are not damaged. -/
def goodFrames (frames : List (Except LinkError Frame)) : List Frame :=
  frames.filterMap Except.toOption

end Stream

/-! ## The reader of the line -/

/-- What the reader of the line is told while the stream lasts. -/
inductive Arrival where
  | chunk (bs : Bytes)
  | fault

namespace Arrival

def bytes : Arrival → Bytes
  | chunk bs => bs
  | fault => []

def event : Arrival → Event
  | chunk bs => .data bs
  | fault => .fault

end Arrival

/-- Passes frames on one after the other. -/
def Dispatcher.dispatchAll (d : Dispatcher) (frames : List Frame) : Dispatcher :=
  frames.foldl (fun d f => (d.dispatch f).2) d

theorem Client.foldl_hear (frames : List (Except LinkError Frame)) (c : Client) :
    frames.foldl hear c =
      { c with dispatcher := c.dispatcher.dispatchAll (Stream.goodFrames frames) } := by
  induction frames generalizing c with
  | nil => rfl
  | cons frame frames ih =>
    rw [List.foldl_cons, ih]
    cases frame with
    | ok f => rfl
    | error e => rfl

theorem Client.receive_eq {c : Client} (hreading : c.reading = true) (bs : Bytes) :
    c.receive bs = { c with
      dispatcher := c.dispatcher.dispatchAll (Stream.goodFrames (Stream.push c.held bs).1)
      held := (Stream.push c.held bs).2 } := by
  simp only [receive, hreading, if_true, foldl_hear]

namespace Session

/-- The session after the reader was told these things. -/
def reads (s : Session) (arrivals : List Arrival) : Session :=
  (arrivals.map Arrival.event).foldl apply s

/-- The session after the reader has passed on the good ones of these frames. -/
def passOn (s : Session) (frames : List (Except LinkError Frame)) (held : Bytes) : Session :=
  { s with client := { s.client with
      dispatcher := s.client.dispatcher.dispatchAll (Stream.goodFrames frames), held } }

theorem passOn_passOn (s : Session) (frames more : List (Except LinkError Frame))
    (held held' : Bytes) :
    (s.passOn frames held).passOn more held' = s.passOn (frames ++ more) held' := by
  simp only [passOn, Dispatcher.dispatchAll, Stream.goodFrames, List.filterMap_append,
    List.foldl_append]

theorem reads_eq {s : Session} (hreading : s.client.reading = true)
    (hheld : Stream.drain s.client.held = ([], s.client.held)) (arrivals : List Arrival) :
    s.reads arrivals =
      s.passOn (Stream.feed s.client.held (arrivals.map Arrival.bytes)).1
        (Stream.feed s.client.held (arrivals.map Arrival.bytes)).2 := by
  induction arrivals generalizing s with
  | nil => rfl
  | cons arrival arrivals ih =>
    cases arrival with
    | chunk bs =>
      have hstep : s.apply (.data bs) =
          s.passOn (Stream.push s.client.held bs).1 (Stream.push s.client.held bs).2 := by
        rw [apply, Client.receive_eq hreading]
        rfl
      have hrest := ih (s := s.passOn (Stream.push s.client.held bs).1
        (Stream.push s.client.held bs).2) hreading (Stream.drain_held _)
      rw [reads, List.map_cons, List.foldl_cons, Arrival.event, hstep, ← reads, hrest,
        passOn_passOn]
      rfl
    | fault =>
      have hpush : Stream.push s.client.held [] = ([], s.client.held) := by
        rw [Stream.push, List.append_nil, hheld]
      rw [List.map_cons, Arrival.bytes, Stream.feed, hpush]
      exact ih hreading hheld

/-- Once the stream has ended nothing that arrives makes a difference. -/
theorem reads_of_not_reading {s : Session} (hreading : s.client.reading = false)
    (arrivals : List Arrival) : s.reads arrivals = s := by
  induction arrivals with
  | nil => rfl
  | cons arrival arrivals ih =>
    have hstep : s.apply arrival.event = s := by
      cases arrival with
      | chunk bs => simp [Arrival.event, apply, Client.receive, hreading]
      | fault => rfl
    rw [reads, List.map_cons, List.foldl_cons, hstep, ← reads, ih]

end Session

/-! ## The law -/

/-- Two ways of cutting a stream into chunks bring the same frames and damaged frames in the same
order, with the same bytes held at the end. A reader that holds nothing yet passes on the good ones
of these frames, one after the other, and the session is the same after both, also if faults of the
line come between the chunks. -/
theorem the_cut_of_a_stream_does_not_show :
    (∀ chunks chunks' : List Bytes, chunks.flatten = chunks'.flatten →
      Stream.feed [] chunks = Stream.feed [] chunks') ∧
    ∀ s : Session, s.client.held = [] →
      (s.client.reading = true → ∀ arrivals, (s.reads arrivals).client.dispatcher =
        s.client.dispatcher.dispatchAll
          (Stream.goodFrames (Stream.feed [] (arrivals.map Arrival.bytes)).1)) ∧
      ∀ arrivals arrivals' : List Arrival,
        arrivals.flatMap Arrival.bytes = arrivals'.flatMap Arrival.bytes →
          s.reads arrivals = s.reads arrivals' := by
  have hfeed : ∀ chunks, Stream.feed [] chunks = Stream.drain chunks.flatten :=
    Stream.feed_eq Stream.drain_nil
  refine ⟨?_, ?_⟩
  · intro chunks chunks' h
    rw [hfeed, hfeed, h]
  · intro s hheld
    have hdrained : Stream.drain s.client.held = ([], s.client.held) := by
      rw [hheld]
      exact Stream.drain_nil
    refine ⟨fun hreading arrivals => ?_, fun arrivals arrivals' h => ?_⟩
    · rw [Session.reads_eq hreading hdrained, hheld]
      rfl
    · cases hreading : s.client.reading with
      | false => rw [Session.reads_of_not_reading hreading, Session.reads_of_not_reading hreading]
      | true =>
        rw [List.flatMap_def, List.flatMap_def] at h
        rw [Session.reads_eq hreading hdrained, Session.reads_eq hreading hdrained, hheld, hfeed,
          hfeed, h]

/-- A good frame, a damaged one and the beginning of a third, cut at two places and at none. -/
theorem two_cuts_of_a_noisy_stream :
    let chunks : List Bytes :=
      [[0x13, 0xfe, 0x00], [0x21, 0x01, 0x20, 0xfe, 0x00, 0x21, 0xfe], [0x00, 0xfe, 0x01]]
    let whole : List Bytes :=
      [[0x13, 0xfe, 0x00, 0x21, 0x01, 0x20, 0xfe, 0x00, 0x21, 0xfe, 0x00, 0xfe, 0x01]]
    chunks.flatten = whole.flatten ∧ Stream.feed [] chunks = Stream.feed [] whole ∧
      Stream.feed [] chunks =
        ([.ok ⟨.request, .sys, 0x01, []⟩, .error (.checksum 0xdf 0x00)], [0xfe, 0x01]) := by
  intro chunks whole
  have hflat : chunks.flatten = whole.flatten := by decide
  refine ⟨hflat, the_cut_of_a_stream_does_not_show.1 chunks whole hflat, ?_⟩
  cbv

end ZigbeeGateway.Radio
