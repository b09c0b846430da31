-- Conversations on a line. What a conversation does next hangs on what has become of its requests
-- and on nothing else, and the frames on the line are those of its requests, in order, less the
-- ones that could not be written.
import Mathlib.Data.List.Forall2
import ZigbeeGateway.Proofs.Radio.Chunks
import ZigbeeGateway.Radio.Conversation
namespace ZigbeeGateway.Radio

variable {α : Type}

/-! ## The fates of requests -/

/-- What becomes of a request. -/
inductive Fate where
  /-- It could not be written. -/
  | unsent (e : LinkError)
  /-- It was written, and its waiting is over. -/
  | ended (frame : Except LinkError Frame)

/-- What a conversation learns of the fate of a request. -/
def Fate.outcome (r : Request) : Fate → Except LinkError Bytes
  | unsent e => .error e
  | ended frame => frame.bind r.answer

def Fate.isWritten : Fate → Bool
  | unsent _ => false
  | ended _ => true

namespace Conversation

/-- What is left of a conversation after its first requests have met their fates. -/
def after : Conversation α → List Fate → Conversation α
  | .ask r next, f :: fates => (next (f.outcome r)).after fates
  | k, _ => k

/-- The requests that have met their fates. -/
def settled : Conversation α → List Fate → List (Request × Fate)
  | .ask r next, f :: fates => (r, f) :: (next (f.outcome r)).settled fates
  | _, _ => []

/-- The request that a conversation makes next, unless it is over. -/
def next? : Conversation α → Option Request
  | .done _ => none
  | .ask r _ => some r

/-- All requests that are tried, the last of which may not have met its fate yet. -/
def asked (k : Conversation α) (fates : List Fate) : List Request :=
  (k.settled fates).map (·.1) ++ (k.after fates).next?.toList

/-- All requests that are written, if the last one is. -/
def sent (k : Conversation α) (fates : List Fate) : List Request :=
  ((k.settled fates).filter (·.2.isWritten)).map (·.1) ++ (k.after fates).next?.toList

theorem after_append (k : Conversation α) (fates more : List Fate) :
    k.after (fates ++ more) = (k.after fates).after more := by
  induction fates generalizing k with
  | nil => cases k <;> rfl
  | cons f fates ih =>
    cases k with
    | done result => cases more <;> rfl
    | ask r next => exact ih _

theorem settled_append (k : Conversation α) (fates more : List Fate) :
    k.settled (fates ++ more) = k.settled fates ++ (k.after fates).settled more := by
  induction fates generalizing k with
  | nil => cases k <;> rfl
  | cons f fates ih =>
    cases k with
    | done result => cases more <;> rfl
    | ask r next => exact congrArg ((r, f) :: ·) (ih _)

/-- A request that was written and has met its fate is followed by what comes of its outcome. -/
theorem sent_append {k : Conversation α} {fates : List Fate} {r : Request}
    {next : Except LinkError Bytes → Conversation α} (h : k.after fates = .ask r next)
    (frame : Except LinkError Frame) (more : List Fate) :
    k.sent (fates ++ .ended frame :: more) =
      k.sent fates ++ (next (frame.bind r.answer)).sent more := by
  have hnext : k.after (fates ++ .ended frame :: more) =
      (next (frame.bind r.answer)).after more := by
    rw [after_append, h]
    rfl
  have hsettled : k.settled (fates ++ .ended frame :: more) =
      k.settled fates ++ (r, .ended frame) :: (next (frame.bind r.answer)).settled more := by
    rw [settled_append, h]
    rfl
  rw [sent, sent, sent, hnext, hsettled, h, List.filter_append, List.filter_cons_of_pos rfl]
  simp only [next?, Option.toList_some, List.map_append, List.map_cons, List.append_assoc,
    List.cons_append, List.nil_append]

/-- A reply with a property. -/
def IsReply (p : Bytes → Prop) (o : Except LinkError Bytes) : Prop := ∃ bs, o = .ok bs ∧ p bs

/-- The request at a place has got a reply with a property. -/
def Got (k : Conversation α) (fates : List Fate) (i : Nat) (p : Bytes → Prop) : Prop :=
  ∃ rf, (k.settled fates)[i]? = some rf ∧ IsReply p (rf.2.outcome rf.1)

section Steps

variable {r : Request} {next : Except LinkError Bytes → Conversation α} {f : Fate}
  {fates : List Fate} {p : Bytes → Prop}

theorem after_done (result : α) (fates : List Fate) : (done result).after fates = done result := by
  cases fates <;> rfl

theorem asked_ask : (ask r next).asked (f :: fates) = r :: (next (f.outcome r)).asked fates := rfl

theorem sent_ask (h : f.isWritten) :
    (ask r next).sent (f :: fates) = r :: (next (f.outcome r)).sent fates := by
  have hwritten : ((r, f) :: (next (f.outcome r)).settled fates).filter (·.2.isWritten) =
      (r, f) :: ((next (f.outcome r)).settled fates).filter (·.2.isWritten) :=
    List.filter_cons_of_pos h
  rw [sent, settled, hwritten]
  rfl

theorem got_ask_zero : (ask r next).Got (f :: fates) 0 p ↔ IsReply p (f.outcome r) := by
  constructor
  · rintro ⟨rf, hsettled, hreply⟩
    cases hsettled
    exact hreply
  · exact fun hreply => ⟨(r, f), rfl, hreply⟩

/-- A request that has got a reply was written. -/
theorem isWritten_of_isReply (h : IsReply p (f.outcome r)) : f.isWritten := by
  obtain ⟨bs, houtcome, -⟩ := h
  cases f with
  | unsent e => cases houtcome
  | ended frame => rfl

end Steps

/-! ## Scripts -/

/-- The requests of a script, each with the property that its reply must have. -/
abbrev Script := List (Request × (Bytes → Prop))

section Scripts

variable {ε : Type}

/-- A conversation that makes the requests of a script one after the other, as long as each of them
gets a reply with the property that the script asks for, and otherwise is over at once and fails. -/
inductive Scripted : Script → Conversation (Except ε Unit) → Prop
  | done : Scripted [] (.done (.ok ()))
  | ask {r : Request} {p : Bytes → Prop} {script : Script}
      {next : Except LinkError Bytes → Conversation (Except ε Unit)}
      (goesOn : ∀ bs, p bs → Scripted script (next (.ok bs)))
      (fails : ∀ o, ¬ IsReply p o → ∃ e, next o = .done (.error e)) :
      Scripted ((r, p) :: script) (.ask r next)

/-- How far a conversation with a script gets: it tries and sends the requests of the script in
order, goes on to the next one if and only if there is the reply that the script asks for, and
succeeds if and only if there is such a reply to the last one. -/
structure KeepsTo (k : Conversation (Except ε Unit)) (script : Script) (fates : List Fate) :
    Prop where
  asked : k.asked fates <+: script.map (·.1)
  sent : k.sent fates <+: script.map (·.1)
  goesOn : ∀ i r p, script[i]? = some (r, p) → i + 1 < script.length →
    (i + 1 < (k.asked fates).length ↔ k.Got fates i p)
  succeeds : ∀ i r p, script[i]? = some (r, p) → i + 1 = script.length →
    (k.after fates = .done (.ok ()) ↔ k.Got fates i p)

variable {script : Script} {k : Conversation (Except ε Unit)} {r : Request} {p : Bytes → Prop}
  {next : Except LinkError Bytes → Conversation (Except ε Unit)} {f : Fate} {fates : List Fate}

theorem Scripted.asked_pos (h : Scripted script k) (hscript : 0 < script.length)
    (fates : List Fate) : 0 < (k.asked fates).length := by
  cases h with
  | done => cases hscript
  | ask => cases fates <;> exact Nat.succ_pos _

theorem Scripted.eq_done (h : Scripted [] k) : k = .done (.ok ()) := by
  cases h
  rfl

/-- After the reply that the script asks for it goes on with the rest of the script. -/
theorem KeepsTo.ask (hreply : IsReply p (f.outcome r))
    (hscripted : Scripted script (next (f.outcome r)))
    (h : (next (f.outcome r)).KeepsTo script fates) :
    (ask r next).KeepsTo ((r, p) :: script) (f :: fates) := by
  refine ⟨?_, ?_, ?_, ?_⟩
  · exact List.cons_prefix_cons.mpr ⟨rfl, h.asked⟩
  · rw [sent_ask (isWritten_of_isReply hreply)]
    exact List.cons_prefix_cons.mpr ⟨rfl, h.sent⟩
  · intro i r' p' hi hmore
    rw [asked_ask, List.length_cons, Nat.add_lt_add_iff_right]
    rw [List.length_cons, Nat.add_lt_add_iff_right] at hmore
    cases i with
    | zero =>
      cases hi
      rw [got_ask_zero]
      exact iff_of_true (hscripted.asked_pos hmore fates) hreply
    | succ i => exact h.goesOn i r' p' hi hmore
  · intro i r' p' hi hlast
    rw [List.length_cons, Nat.add_right_cancel_iff] at hlast
    cases i with
    | zero =>
      cases hi
      obtain rfl := List.length_eq_zero_iff.mp hlast.symm
      have hover : (Conversation.ask r next).after (f :: fates) = .done (.ok ()) := by
        rw [after, hscripted.eq_done, after_done]
      exact iff_of_true hover (got_ask_zero.mpr hreply)
    | succ i => exact h.succeeds i r' p' hi hlast

end Scripts

end Conversation

/-! ## Runs -/

/-- What is left of a conversation on a line. -/
def Talk.rest : Talk α → Conversation α
  | .over result => .done result
  | .waiting r _ next => .ask r next

namespace Client

/-- The fates of the requests that a conversation makes before it has to wait. -/
def fates (c : Client) : Conversation α → List Fate
  | .done _ => []
  | .ask r next =>
    match c.ask r with
    | (.error e, c) => .unsent e :: c.fates (next (.error e))
    | (.ok wait, c) =>
      match c.outcome? wait with
      | none => []
      | some frame => .ended frame :: (c.giveUp wait.ticket).fates (next (frame.bind r.answer))

/-- The fates that requests meet when a conversation looks whether its waiting is over. -/
def newFates (c : Client) : Talk α → List Fate
  | .over _ => []
  | .waiting r wait next =>
    match c.outcome? wait with
    | none => []
    | some frame => .ended frame :: (c.giveUp wait.ticket).fates (next (frame.bind r.answer))

/-- Between two states of a line the frames of some requests were written, in their order. -/
def Wrote (c : Client) (rs : List Request) (c' : Client) : Prop :=
  ∃ bss, List.Forall₂ (fun r bs => r.frame.encode = .ok bs) rs bss ∧
    c'.written = bss.reverse ++ c.written

section Wrote

variable {c c' c'' : Client} {r : Request} {rs rs' : List Request}

theorem wrote_nothing (h : c'.written = c.written) : c.Wrote [] c' := ⟨[], .nil, h⟩

theorem Wrote.trans (h : c.Wrote rs c') (h' : c'.Wrote rs' c'') : c.Wrote (rs ++ rs') c'' := by
  obtain ⟨bss, hbss, hwritten⟩ := h
  obtain ⟨bss', hbss', hwritten'⟩ := h'
  refine ⟨bss ++ bss', List.rel_append hbss hbss', ?_⟩
  rw [hwritten', hwritten, List.reverse_append, List.append_assoc]

/-- Writing a frame fails and changes nothing, or its bytes are written. -/
theorem write_cases (c : Client) (f : Frame) :
    (∃ e, c.write f = (.error e, c)) ∨
      ∃ bs, f.encode = .ok bs ∧ c.write f = (.ok (), { c with written := bs :: c.written }) := by
  unfold write
  rcases hwrite : c.toWrite f with e | bs
  · exact .inl ⟨e, rfl⟩
  · have hencode : f.encode = .ok bs := by
      unfold toWrite at hwrite
      split at hwrite
      · exact hwrite
      · cases hwrite
    unfold writeBytes
    cases hfailing : c.failing with
    | some reason => exact .inl ⟨.sendFailed reason, rfl⟩
    | none => exact .inr ⟨bs, hencode, rfl⟩

/-- A request that cannot be made leaves the line as it was, less a ticket. -/
theorem wrote_of_ask_error {e : LinkError} (h : c.ask r = (.error e, c')) : c.Wrote [] c' := by
  unfold ask at h
  dsimp only at h
  rcases (c.register r.replyKey).2.write_cases r.frame with ⟨e', hwrite⟩ | ⟨bs, -, hwrite⟩
  · rw [hwrite] at h
    cases h
    exact wrote_nothing rfl
  · rw [hwrite] at h
    cases h

theorem wrote_of_ask_ok {wait : Wait} (h : c.ask r = (.ok wait, c')) : c.Wrote [r] c' := by
  unfold ask at h
  dsimp only at h
  rcases (c.register r.replyKey).2.write_cases r.frame with ⟨e', hwrite⟩ | ⟨bs, hencode, hwrite⟩
  · rw [hwrite] at h
    cases h
  · rw [hwrite] at h
    cases h
    exact ⟨[bs], .cons hencode .nil, rfl⟩

theorem written_receive (c : Client) (bs : Bytes) : (c.receive bs).written = c.written := by
  rcases hreading : c.reading with _ | _
  · rw [receive, hreading]
    rfl
  · rw [receive_eq hreading]

theorem written_endReading (c : Client) : c.endReading.written = c.written := by
  unfold endReading
  split <;> rfl

end Wrote

end Client

/-- What happens on a line while a conversation goes on. -/
inductive LineEvent where
  | data (bs : Bytes)
  /-- The stream from the radio ends. -/
  | ended
  | connected (yes : Bool)
  | failing (reason : Option String)
  | advance (milliseconds : Nat)
  /-- The conversation looks whether its waiting is over. -/
  | look

/-- A conversation on a line, and the fates that its requests have met so far. -/
structure Course (α : Type) where
  talk : Talk α
  client : Client
  fates : List Fate

namespace Course

/-- A conversation starts on a line. -/
def start (c : Client) (k : Conversation α) : Course α :=
  ⟨(c.converse k).1, (c.converse k).2, c.fates k⟩

/-- What an event changes. -/
def happen (s : Course α) : LineEvent → Course α
  | .data bs => { s with client := s.client.receive bs }
  | .ended => { s with client := s.client.endReading }
  | .connected yes => { s with client := { s.client with connected := yes } }
  | .failing reason => { s with client := { s.client with failing := reason } }
  | .advance milliseconds => { s with client := s.client.advance milliseconds }
  | .look =>
    ⟨(s.client.resume s.talk).1, (s.client.resume s.talk).2,
      s.fates ++ s.client.newFates s.talk⟩

/-- The conversation after everything in a log. -/
def after (s : Course α) (log : List LineEvent) : Course α := log.foldl happen s

/-- The course that a conversation takes from a state of the line: it stands where the fates of its
requests have led it, and the requests that it has sent were written, and nothing else. -/
structure Follows (s : Course α) (k : Conversation α) (c : Client) : Prop where
  rest : s.talk.rest = k.after s.fates
  wrote : c.Wrote (k.sent s.fates) s.client

/-- Wherever a conversation starts, it follows the fates that its requests meet at once. -/
theorem follows_start (k : Conversation α) (c : Client) : (start c k).Follows k c := by
  induction k generalizing c with
  | done result => exact ⟨rfl, Client.wrote_nothing rfl⟩
  | ask r next ih =>
    rcases hask : c.ask r with ⟨e | wait, c'⟩
    · have hstart : start c (.ask r next) = { start c' (next (.error e)) with
          fates := .unsent e :: (start c' (next (.error e))).fates } := by
        simp only [start, Client.converse, Client.fates, hask]
      rw [hstart]
      have hfollows := ih (.error e) c'
      exact ⟨hfollows.rest, (Client.wrote_of_ask_error hask).trans hfollows.wrote⟩
    · rcases hlook : c'.outcome? wait with _ | frame
      · have hstart : start c (.ask r next) = ⟨.waiting r wait next, c', []⟩ := by
          simp only [start, Client.converse, Client.fates, hask, hlook]
        rw [hstart]
        exact ⟨rfl, Client.wrote_of_ask_ok hask⟩
      · let rest := start (c'.giveUp wait.ticket) (next (frame.bind r.answer))
        have hstart : start c (.ask r next) =
            { rest with fates := .ended frame :: rest.fates } := by
          simp only [rest, start, Client.converse, Client.fates, hask, hlook]
        rw [hstart]
        have hfollows := ih (frame.bind r.answer) (c'.giveUp wait.ticket)
        have hasked := Client.wrote_of_ask_ok hask
        have hwrote : c.Wrote [r] (c'.giveUp wait.ticket) := hasked
        exact ⟨hfollows.rest, hwrote.trans hfollows.wrote⟩

/-- Looking goes on from where the conversation stands. -/
theorem Follows.look {s : Course α} {k : Conversation α} {c : Client} (h : s.Follows k c) :
    (s.happen .look).Follows k c := by
  obtain ⟨talk, client, fates⟩ := s
  rcases talk with result | ⟨r, wait, next⟩
  · have hsame : happen ⟨.over result, client, fates⟩ .look = ⟨.over result, client, fates⟩ := by
      simp only [happen, Client.resume, Client.newFates, List.append_nil]
    rwa [hsame]
  · rcases hlook : client.outcome? wait with _ | frame
    · have hsame : happen ⟨.waiting r wait next, client, fates⟩ .look =
          ⟨.waiting r wait next, client, fates⟩ := by
        simp only [happen, Client.resume, Client.newFates, hlook, List.append_nil]
      rwa [hsame]
    · let rest := start (client.giveUp wait.ticket) (next (frame.bind r.answer))
      have hnew : happen ⟨.waiting r wait next, client, fates⟩ .look =
          { rest with fates := fates ++ .ended frame :: rest.fates } := by
        simp only [happen, Client.resume, Client.newFates, hlook, rest, start]
      have hrest : k.after fates = .ask r next := h.rest.symm
      have hfollows := follows_start (next (frame.bind r.answer)) (client.giveUp wait.ticket)
      have hwrote : c.Wrote (k.sent fates) (client.giveUp wait.ticket) := h.wrote
      rw [hnew]
      constructor
      · rw [Conversation.after_append, hrest]
        exact hfollows.rest
      · rw [Conversation.sent_append hrest]
        exact hwrote.trans hfollows.wrote

theorem Follows.happen {s : Course α} {k : Conversation α} {c : Client} (h : s.Follows k c)
    (e : LineEvent) : (s.happen e).Follows k c := by
  have hquiet : ∀ client : Client, client.written = s.client.written →
      Follows { s with client } k c := by
    intro client hwritten
    have hwrote := h.wrote.trans (Client.wrote_nothing hwritten)
    rw [List.append_nil] at hwrote
    exact ⟨h.rest, hwrote⟩
  cases e with
  | data bs => exact hquiet _ (Client.written_receive _ bs)
  | ended => exact hquiet _ (Client.written_endReading _)
  | connected yes => exact hquiet _ rfl
  | failing reason => exact hquiet _ rfl
  | advance milliseconds => exact hquiet _ rfl
  | look => exact h.look

end Course

end ZigbeeGateway.Radio
