-- Runs of a gateway at work. Things happen one at a time and in any order: the radio sends, time
-- passes, the line changes, and the loop looks after its errand, hears a frame or takes a command.
-- What one of them changes in the memory of the gateway is said once.
import Mathlib.Tactic.Tauto
import ZigbeeGateway.Gateway.Run
import ZigbeeGateway.Proofs.Gateway.Outgoing
namespace ZigbeeGateway

open Radio (Client Frame IncomingMessage LinkError Request Wait)

/-! ## The filter -/

namespace Handler

variable {h : Handler} {m : IncomingMessage}

/-- A message is let in if it is for the endpoint and no repetition. -/
theorem accept_fst_iff :
    (h.accept m).1 = true ↔ m.endpoint = h.endpoint ∧ h.lastData[m.source]? ≠ some m.data := by
  unfold accept
  split
  · rename_i hrefuse
    simp only [Bool.false_eq_true, false_iff]
    tauto
  · rename_i haccept
    simp only [true_iff]
    tauto

theorem accept_of_accepted (haccept : (h.accept m).1 = true) :
    h.accept m = (true, { h with lastData := h.lastData.insert m.source m.data }) := by
  unfold accept at haccept ⊢
  split
  · rename_i hrefuse
    rw [if_pos hrefuse] at haccept
    cases haccept
  · rfl

theorem accept_of_refused (hrefuse : (h.accept m).1 = false) : h.accept m = (false, h) := by
  unfold accept at hrefuse ⊢
  split
  · rfl
  · rename_i haccept
    rw [if_neg haccept] at hrefuse
    cases hrefuse

/-- A command that goes out leaves the filter alone. -/
theorem filter_of_commandRequest {h' : Handler} {subject : Topic.Subject} {payload : Bytes}
    {short : UInt16} {r : Radio.DataRequest}
    (hr : h.commandRequest subject payload short = .ok (r, h')) :
    h'.endpoint = h.endpoint ∧ h'.lastData = h.lastData := by
  obtain ⟨_, _, _, _, _, -, -, -, -, rfl, -⟩ := commandRequest_eq_ok hr
  exact ⟨rfl, rfl⟩

end Handler

/-! ## What happens -/

/-- What happens to a gateway at work. -/
inductive Happening where
  | data (bs : Bytes)
  | advance (milliseconds : Nat)
  /-- The stream from the radio ends. -/
  | ended
  | connected (yes : Bool)
  | failing (reason : Option String)
  /-- The loop looks whether the errand that it waits for is over. -/
  | poll
  /-- The loop hears the next frame, unless it waits. -/
  | hear
  /-- The loop takes a command of the bus, unless it waits. -/
  | command (topic : String) (payload : Bytes)

namespace Gateway

/-- The loop hears the next frame if there is one and it need not wait. -/
def hearNext (g : Gateway) : Gateway :=
  match g.nextFrame? with
  | none => g
  | some (f, g) => g.hear f

/-- What something that happens changes. -/
def happen (g : Gateway) : Happening → Gateway
  | .data bs => { g with client := g.client.receive bs }
  | .advance milliseconds => { g with client := g.client.advance milliseconds }
  | .ended => { g with client := g.client.endReading }
  | .connected yes => { g with client := { g.client with connected := yes } }
  | .failing reason => { g with client := { g.client with failing := reason } }
  | .poll => g.poll
  | .hear => g.hearNext
  | .command topic payload => if g.pending.isSome then g else g.command topic payload

/-- The gateway after everything in a log. -/
def after (g : Gateway) (log : List Happening) : Gateway := log.foldl happen g

/-- The gateway after the first entries of a log. -/
def upTo (g : Gateway) (log : List Happening) (k : Nat) : Gateway := g.after (log.take k)

theorem upTo_succ {g : Gateway} {log : List Happening} {k : Nat} {x : Happening}
    (h : log[k]? = some x) : g.upTo log (k + 1) = (g.upTo log k).happen x := by
  simp only [upTo, after, List.take_add_one, h, Option.toList_some, List.foldl_append,
    List.foldl_cons, List.foldl_nil]

theorem upTo_succ_of_none {g : Gateway} {log : List Happening} {k : Nat} (h : log[k]? = none) :
    g.upTo log (k + 1) = g.upTo log k := by
  simp only [upTo, List.take_add_one, h, Option.toList_none, List.append_nil]

/-- The loop at work on its backlog is a run. -/
theorem work_eq_after (n : Nat) (g : Gateway) : ∃ log, work n g = g.after log := by
  induction n generalizing g with
  | zero => exact ⟨[.poll], rfl⟩
  | succ n ih =>
    rw [work]
    split
    · exact ⟨[.poll], rfl⟩
    · rename_i f g' hnext
      obtain ⟨log, hlog⟩ := ih (g'.hear f)
      refine ⟨.poll :: .hear :: log, ?_⟩
      have hhear : g.poll.hearNext = g'.hear f := by rw [hearNext, hnext]
      rw [hlog, after, after, List.foldl_cons, List.foldl_cons, happen, happen, hhear]

theorem receive_eq_after (g : Gateway) (bs : Bytes) :
    ∃ log, g.receive bs = g.after (.data bs :: log) := by
  obtain ⟨log, hlog⟩ := work_eq_after
    (((g.happen (.data bs)).client.dispatcher.listeners[g.listener]?.map (·.frames.length)).getD 0)
    (g.happen (.data bs))
  exact ⟨log, hlog⟩

theorem advance_eq_after (g : Gateway) (milliseconds : Nat) :
    ∃ log, g.advance milliseconds = g.after (.advance milliseconds :: log) := by
  obtain ⟨log, hlog⟩ := work_eq_after
    (((g.happen (.advance milliseconds)).client.dispatcher.listeners[g.listener]?.map
      (·.frames.length)).getD 0) (g.happen (.advance milliseconds))
  exact ⟨log, hlog⟩

/-! ## The memory of a gateway -/

/-- What a gateway remembers, and the errand that it waits for. -/
structure Memory where
  endpoint : UInt8
  lastData : Std.TreeMap UInt16 Bytes
  book : AddressBook
  pending : Option Pending

def memory (g : Gateway) : Memory := ⟨g.handler.endpoint, g.handler.lastData, g.book, g.pending⟩

/-- The message in the frame that the loop hears next, if there is one and it need not wait. -/
def heard? (g : Gateway) : Option IncomingMessage :=
  match g.nextFrame? with
  | none => none
  | some (f, _) =>
    if f.key = messageKey then (IncomingMessage.decode f.payload).toOption else none

/-- Everything that can change in the memory. -/
inductive Change (g : Gateway) : Happening → Memory → Prop
  | nothing (x : Happening) : Change g x g.memory
  /-- An errand ends, and nothing has come of it that is remembered. -/
  | ends {p : Pending} (hpending : g.pending = some p) :
      Change g .poll { g.memory with pending := none }
  /-- The sender of a message has been found. -/
  | found {m : IncomingMessage} {wait : Wait} (address : UInt64)
      (hpending : g.pending = some ⟨.lookUp m, wait⟩) :
      Change g .poll
        { g.memory with book := g.book.insert m.source address, pending := none }
  /-- A message is let in, and its sender is looked up if it is not known. -/
  | letIn {m : IncomingMessage} {pending : Option Pending} (hheard : g.heard? = some m)
      (haccept : (g.handler.accept m).1 = true)
      (hpending : ∀ p ∈ pending, p.errand = .lookUp m ∧ g.book.address? m.source = none) :
      Change g .hear
        { g.memory with lastData := g.handler.lastData.insert m.source m.data, pending }
  /-- A command is being sent. -/
  | sends {topic : String} {payload : Bytes} {wait : Wait} (hpending : g.pending = none) :
      Change g (.command topic payload) { g.memory with pending := some ⟨.sendData, wait⟩ }

theorem nextFrame?_eq_some {g g' : Gateway} {f : Frame} (h : g.nextFrame? = some (f, g')) :
    g.pending = none ∧ ∃ dispatcher, g' = { g with client := { g.client with dispatcher } } := by
  unfold nextFrame? at h
  split at h
  · rename_i hpending _
    obtain ⟨⟨f', rest⟩, -, heq⟩ := Option.map_eq_some_iff.mp h
    cases heq
    exact ⟨hpending, _, rfl⟩
  · cases h

theorem heard?_eq_some {g : Gateway} {m : IncomingMessage} (h : g.heard? = some m) :
    g.pending = none ∧ ∃ f dispatcher,
      g.nextFrame? = some (f, { g with client := { g.client with dispatcher } }) ∧
      f.key = messageKey ∧ IncomingMessage.decode f.payload = .ok m := by
  unfold heard? at h
  split at h
  · cases h
  · rename_i f g' hnext
    obtain ⟨hidle, dispatcher, rfl⟩ := nextFrame?_eq_some hnext
    split at h
    · rename_i hkey
      rcases hdecode : IncomingMessage.decode f.payload with e | m'
      · rw [hdecode] at h
        cases h
      · rw [hdecode] at h
        cases h
        exact ⟨hidle, f, dispatcher, hnext, hkey, hdecode⟩
    · cases h

/-- If there is no message, only a frame may have gone from the backlog. -/
theorem hearNext_of_silence {g : Gateway} (h : g.heard? = none) :
    ∃ dispatcher, g.hearNext = { g with client := { g.client with dispatcher } } := by
  unfold hearNext
  split
  · exact ⟨_, rfl⟩
  · rename_i f g' hnext
    obtain ⟨-, dispatcher, rfl⟩ := nextFrame?_eq_some hnext
    refine ⟨dispatcher, ?_⟩
    unfold hear
    split
    · rfl
    · rename_i hkey
      rcases hdecode : IncomingMessage.decode f.payload with e | m
      · rfl
      · simp [heard?, hnext, not_not.mp hkey, hdecode, Except.toOption] at h

theorem hearNext_of_refused {g : Gateway} {m : IncomingMessage} (h : g.heard? = some m)
    (hrefuse : (g.handler.accept m).1 = false) :
    ∃ dispatcher, g.hearNext = { g with client := { g.client with dispatcher } } := by
  obtain ⟨-, f, dispatcher, hnext, hkey, hdecode⟩ := heard?_eq_some h
  refine ⟨dispatcher, ?_⟩
  simp only [hearNext, hnext, hear, hkey, hdecode, Handler.accept_of_refused hrefuse, ne_eq,
    not_true_eq_false, if_false, Bool.false_eq_true]

theorem hearNext_of_accepted {g : Gateway} {m : IncomingMessage} (h : g.heard? = some m)
    (haccept : (g.handler.accept m).1 = true) :
    g.pending = none ∧ ∃ dispatcher,
      g.hearNext = take { g with
        client := { g.client with dispatcher }
        handler := { g.handler with
          lastData := g.handler.lastData.insert m.source m.data } } m := by
  obtain ⟨hidle, f, dispatcher, hnext, hkey, hdecode⟩ := heard?_eq_some h
  refine ⟨hidle, dispatcher, ?_⟩
  simp only [hearNext, hnext, hear, hkey, hdecode, Handler.accept_of_accepted haccept, ne_eq,
    not_true_eq_false, if_false, if_true]

/-- An errand is begun, unless its request cannot be written. -/
theorem memory_goOn (g : Gateway) (errand : Errand) (r : Request) :
    (∃ wait, (g.goOn errand r).memory = { g.memory with pending := some ⟨errand, wait⟩ }) ∨
      (g.goOn errand r).memory = g.memory := by
  unfold goOn
  split
  · exact .inl ⟨_, rfl⟩
  · exact .inr rfl

theorem memory_conclude (g : Gateway) (errand : Errand) (answer : Except LinkError Frame) :
    (g.conclude errand answer).memory = g.memory ∨ ∃ m address, errand = .lookUp m ∧
      (g.conclude errand answer).memory =
        { g.memory with book := g.book.insert m.source address } := by
  unfold conclude
  split
  · exact .inl rfl
  · split
    · exact .inl rfl
    · exact .inr ⟨_, _, rfl, rfl⟩

theorem change_poll (g : Gateway) : Change g .poll g.poll.memory := by
  unfold poll
  split
  · exact .nothing _
  · rename_i p hpending
    split
    · exact .nothing _
    · rename_i answer _
      rcases memory_conclude { g with client := g.client.giveUp p.wait.ticket, pending := none }
        p.errand answer with hsame | ⟨m, address, herrand, hfound⟩
      · rw [hsame]
        exact .ends hpending
      · rw [hfound]
        obtain ⟨errand, wait⟩ := p
        cases herrand
        exact .found address hpending

theorem change_hearNext (g : Gateway) : Change g .hear g.hearNext.memory := by
  rcases hheard : g.heard? with _ | m
  · obtain ⟨dispatcher, hsame⟩ := hearNext_of_silence hheard
    rw [hsame]
    exact .nothing _
  · rcases haccept : (g.handler.accept m).1 with _ | _
    · obtain ⟨dispatcher, hsame⟩ := hearNext_of_refused hheard haccept
      rw [hsame]
      exact .nothing _
    · obtain ⟨hidle, dispatcher, htake⟩ := hearNext_of_accepted hheard haccept
      have hletIn (pending : Option Pending) := @Change.letIn g m pending hheard haccept
      have hdone := hletIn none (by simp)
      rw [← hidle] at hdone
      rw [htake]
      unfold take
      split
      · exact hdone
      · rename_i hunknown
        rcases memory_goOn _ (.lookUp m) (.lookUp m.source) with ⟨wait, hwait⟩ | hsame
        · rw [hwait]
          exact hletIn _ (by simpa using hunknown)
        · rw [hsame]
          exact hdone

theorem change_command (g : Gateway) (topic : String) (payload : Bytes)
    (hidle : g.pending = none) :
    Change g (.command topic payload) (g.command topic payload).memory := by
  unfold command
  split
  · exact .nothing _
  · split
    · exact .nothing _
    · split
      · exact .nothing _
      · rename_i r handler hrequest
        have hhandler := Handler.filter_of_commandRequest hrequest
        have hmemory : { g with handler }.memory = g.memory := by
          simp only [memory, hhandler.1, hhandler.2]
        split
        · rw [hmemory]
          exact .nothing _
        · rename_i request _
          rcases memory_goOn { g with handler } .sendData request with ⟨wait, hwait⟩ | hsame
          · rw [hwait, hmemory]
            exact .sends hidle
          · rw [hsame, hmemory]
            exact .nothing _

/-- Whatever happens, the memory changes in one of these ways. -/
theorem change_happen (g : Gateway) (x : Happening) : Change g x (g.happen x).memory := by
  cases x with
  | poll => exact g.change_poll
  | hear => exact g.change_hearNext
  | command topic payload =>
    simp only [happen]
    split
    · exact .nothing _
    · rename_i hidle
      exact g.change_command topic payload (Option.not_isSome_iff_eq_none.mp hidle)
  | data bs => exact .nothing _
  | advance milliseconds => exact .nothing _
  | ended => exact .nothing _
  | connected yes => exact .nothing _
  | failing reason => exact .nothing _

end Gateway

end ZigbeeGateway
