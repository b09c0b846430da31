-- The filter for repetitions over the whole life of a handler. It remembers the data of the latest
-- message of each device, let in or not, and so it drops just what is the same as the message
-- before it from the same device, whatever went to other endpoints or came from other devices.
import ZigbeeGateway.Proofs.Gateway.Runs
namespace ZigbeeGateway.Handler

open Radio (IncomingMessage)

/-! ## What is done with a handler -/

/-- What is done with a handler that changes it. -/
inductive Call where
  /-- It is asked whether a message is let in. -/
  | message (m : IncomingMessage)
  /-- It makes a command into a message for a device. -/
  | command (subject : Topic.Subject) (payload : Bytes) (short : UInt16)

/-- The messages that a handler is asked about. -/
def offered : List Call → List IncomingMessage
  | [] => []
  | .message m :: calls => m :: offered calls
  | .command .. :: calls => offered calls

/-- The handler after it was to make a command into a message. -/
def afterCommand (h : Handler) (subject : Topic.Subject) (payload : Bytes) (short : UInt16) :
    Handler :=
  match h.commandRequest subject payload short with
  | .ok (_, h') => h'
  | .error _ => h

/-- Which of the messages are let in. -/
def decisions (h : Handler) : List Call → List Bool
  | [] => []
  | .message m :: calls => (h.accept m).1 :: decisions (h.accept m).2 calls
  | .command subject payload short :: calls =>
    decisions (h.afterCommand subject payload short) calls

/-! ## What the filter remembers -/

/-- The data of the latest of some messages that are for an endpoint and from a device. -/
def latestData? (endpoint : UInt8) (source : UInt16) (ms : List IncomingMessage) : Option Bytes :=
  (ms.filter fun m => m.endpoint = endpoint ∧ m.source = source).getLast?.map (·.data)

/-- After some messages, another one is news if it is for the endpoint and has other data than the
latest of them that is for the endpoint and from the same device, if there is one. -/
def isNews (endpoint : UInt8) (earlier : List IncomingMessage) (m : IncomingMessage) : Bool :=
  m.endpoint = endpoint ∧ latestData? endpoint m.source earlier ≠ some m.data

/-- After some messages a handler for an endpoint knows the latest data of each device. -/
structure Remembers (h : Handler) (endpoint : UInt8) (ms : List IncomingMessage) : Prop where
  ours : h.endpoint = endpoint
  latest : ∀ source : UInt16, h.lastData[source]? = latestData? endpoint source ms

section Memory

variable {h : Handler} {endpoint : UInt8} {ms : List IncomingMessage}

theorem latestData?_append_self {m : IncomingMessage} (hm : m.endpoint = endpoint) :
    latestData? endpoint m.source (ms ++ [m]) = some m.data := by
  simp [latestData?, hm]

theorem latestData?_append_other {m : IncomingMessage} {source : UInt16}
    (hm : ¬ (m.endpoint = endpoint ∧ m.source = source)) :
    latestData? endpoint source (ms ++ [m]) = latestData? endpoint source ms := by
  simp [latestData?, hm]

theorem remembers_fresh (schema : Schema) (first : String) (endpoint : UInt8) :
    Remembers (fresh schema first endpoint) endpoint [] where
  ours := rfl
  latest _ := Std.TreeMap.getElem?_emptyc

theorem Remembers.afterCommand (hr : Remembers h endpoint ms) (subject : Topic.Subject)
    (payload : Bytes) (short : UInt16) :
    Remembers (h.afterCommand subject payload short) endpoint ms := by
  unfold Handler.afterCommand
  split
  · rename_i h' hrequest
    obtain ⟨hendpoint, hlast⟩ := filter_of_commandRequest hrequest
    exact ⟨hendpoint.trans hr.ours, by rw [hlast]; exact hr.latest⟩
  · exact hr

theorem Remembers.accept_fst (hr : Remembers h endpoint ms) (m : IncomingMessage) :
    (h.accept m).1 = isNews endpoint ms m := by
  rw [Bool.eq_iff_iff, accept_fst_iff, hr.ours, hr.latest, isNews, decide_eq_true_iff]

/-- Whatever becomes of a message, the latest one is remembered. -/
theorem Remembers.accept (hr : Remembers h endpoint ms) (m : IncomingMessage) :
    Remembers (h.accept m).2 endpoint (ms ++ [m]) := by
  have hfst := hr.accept_fst m
  rcases haccept : (h.accept m).1
  · rw [accept_of_refused haccept]
    refine ⟨hr.ours, fun source => ?_⟩
    rw [hr.latest]
    by_cases hm : m.endpoint = endpoint ∧ m.source = source
    · -- A repetition has the data that is remembered already.
      obtain ⟨hours, rfl⟩ := hm
      rw [latestData?_append_self hours]
      simpa [haccept, isNews, hours] using hfst
    · rw [latestData?_append_other hm]
  · rw [accept_of_accepted haccept]
    have hours : m.endpoint = endpoint := (accept_fst_iff.mp haccept).1.trans hr.ours
    refine ⟨hr.ours, fun source => ?_⟩
    by_cases hsource : m.source = source
    · subst hsource
      rw [latestData?_append_self hours]
      exact Std.TreeMap.getElem?_insert_self
    · rw [latestData?_append_other fun hm => hsource hm.2, ← hr.latest]
      simp only [Std.TreeMap.getElem?_insert, Std.compare_eq_iff_eq, hsource, if_false]

end Memory

/-! ## The law -/

/-- The decisions of a handler that has been asked about some messages before. -/
theorem Remembers.decisions_eq {endpoint : UInt8} (calls : List Call) {h : Handler}
    {ms : List IncomingMessage} (hr : Remembers h endpoint ms) :
    h.decisions calls =
      (offered calls).mapIdx fun i m => isNews endpoint (ms ++ (offered calls).take i) m := by
  induction calls generalizing h ms with
  | nil => rfl
  | cons call calls ih =>
    cases call with
    | message m =>
      rw [decisions, offered, List.mapIdx_cons, ih (hr.accept m), hr.accept_fst]
      simp only [List.take_zero, List.append_nil, List.take_succ_cons, List.append_assoc,
        List.singleton_append]
    | command subject payload short => exact ih (hr.afterCommand subject payload short)

/-- Of the messages that a handler is asked about, with commands in between, just those are let in
that are news after the messages before them: for the endpoint, and no repetition of the latest one
that was for the endpoint and from the same device. -/
theorem only_an_immediate_repetition_is_dropped (schema : Schema) (first : String)
    (endpoint : UInt8) (calls : List Call) :
    (fresh schema first endpoint).decisions calls =
      (offered calls).mapIdx fun i m => isNews endpoint ((offered calls).take i) m := by
  have heq := (remembers_fresh schema first endpoint).decisions_eq calls
  simpa only [List.nil_append] using heq

example :
    let note (source : UInt16) (endpoint : UInt8) (data : Bytes) : IncomingMessage :=
      ⟨0, 6, source, 1, endpoint, false, 0x80, false, 0, 0, data⟩
    (fresh .empty "zhub" 1).decisions [.message (note 1 1 [7]), .message (note 2 1 [7]),
      .message (note 1 2 [8]), .message (note 1 1 [7]), .message (note 1 1 [8])] =
        [true, true, false, false, true] := by decide +kernel

end ZigbeeGateway.Handler
