-- Every call ends for its reason. The books of a run tell where every call is that was begun, and
-- why each result is what it is; a call which is not running any more leaves nothing behind, and
-- nobody who waits is forgotten when the stream ends.
import ZigbeeGateway.Proofs.Radio.Keeping
namespace ZigbeeGateway.Radio

/-! ## Errors that come from the other end -/

/-- The radio has sent nothing, nothing any more, or an error report. -/
def LinkError.Remote : LinkError → Prop
  | timeout | connectionClosed | rpc .. => True
  | _ => False

/-- If it fails, then not because of what the radio has sent or not sent. -/
def Local {α : Type} (x : Except LinkError α) : Prop := ∀ e, x = .error e → ¬ e.Remote

namespace Local

variable {α β : Type} {x : Except LinkError α}

theorem ok (a : α) : Local (.ok a) := fun _ he => nomatch he

theorem error {e : LinkError} (h : ¬ e.Remote) : Local (.error e : Except LinkError α) := by
  intro e' he
  cases he
  exact h

theorem bind {f : α → Except LinkError β} (hx : Local x) (hf : ∀ a, Local (f a)) :
    Local (x >>= f) := by
  cases x with
  | error e => exact error (hx e rfl)
  | ok a => exact hf a

theorem map {f : α → β} (hx : Local x) : Local (x.map f) := by
  cases x with
  | error e => exact error (hx e rfl)
  | ok a => exact ok (f a)

theorem checkStatus (what : String) (bs : Bytes) : Local (checkStatus what bs) := by
  unfold Radio.checkStatus
  split
  · exact error id
  · split
    · exact ok ()
    · exact error id

theorem checkCount (clusters : List UInt16) : Local (Registration.checkCount clusters) := by
  unfold Registration.checkCount
  split
  · exact ok ()
  · exact error id

theorem request? (call : Call) : Local call.request? := by
  cases call with
  | register r =>
    exact ((checkCount _).bind fun _ => (checkCount _).bind fun _ => ok _).bind
      (fun _ => ok _) |>.map
  | sendData r =>
    refine (bind ?_ fun _ => ok _).map
    unfold DataRequest.encode
    split
    · exact ok _
    · exact error id
  | _ => exact ok _

theorem toWrite (c : Client) (f : Frame) : Local (c.toWrite f) := by
  unfold Client.toWrite Frame.encode
  split
  · split
    · exact ok _
    · exact error id
  · exact error id

theorem read (call : Call) (bs : Bytes) : Local (call.read bs) := by
  cases call with
  | ping =>
    refine map ?_
    unfold readPing
    split
    · exact ok _
    · exact error id
  | startUp delay =>
    refine map ?_
    unfold readStartUp
    split
    · exact ok _
    · exact error id
  | register r =>
    refine map ?_
    unfold readRegister
    split
    · exact ok ()
    · exact checkStatus _ bs
  | sendData r => exact map (checkStatus _ bs)
  | lookUp short =>
    refine map ?_
    unfold addressOf
    split
    · exact error id
    · exact ok _
  | _ => exact ok _

end Local

/-! ## What an answer comes to -/

namespace Call

variable {call : Call} {r : Request} {f : Frame}

theorem finish_of_request (h : call.request? = .ok (some r)) :
    call.finish f = r.answer f >>= call.read := by
  rw [finish, h]
  rfl

/-- What a call comes to has to do with the other end only if the call is a request and the frame
an error report. -/
theorem finish_remote {e : LinkError} (h : call.finish f = .error e) (he : e.Remote) :
    ∃ r, call.request? = .ok (some r) ∧ f.subsystem = .rpcError ∧
      e = .rpc (f.payload.headD 0) r.subsystem r.command := by
  cases hrequest : call.request? with
  | error e' =>
    rw [finish, hrequest] at h
    cases h
    exact absurd he (Local.request? call e hrequest)
  | ok request =>
    cases request with
    | none =>
      rw [finish, hrequest] at h
      cases h
    | some r =>
      rw [finish_of_request hrequest, Request.answer] at h
      split at h
      · rename_i hreport
        cases h
        exact ⟨r, rfl, hreport, rfl⟩
      · exact absurd he (Local.read call _ e h)

end Call

namespace Run

/-- A result comes from where it says it comes from. -/
structure Justified (run : Run) (k p : Nat) (name : String) (call : Call)
    (result : Except LinkError Outcome) : Prop where
  ends : run.Ends k p name call result
  /-- A timeout comes after the full time, with nothing in the mailbox. -/
  timeout : result = .error .timeout → run.TimedOut k p name call
  /-- The connection is closed for those who waited when the stream ended. -/
  connectionClosed : result = .error .connectionClosed → run.LeftAlone k p name call
  /-- A request succeeds only with the payload of a frame that answers it. -/
  payload : ∀ r o, call.request? = .ok (some r) → result = .ok o →
    ∃ f, run.Answered k p name call f ∧ Dispatcher.replyKey f = r.replyKey ∧
      f.subsystem ≠ .rpcError ∧ call.read f.payload = .ok o
  /-- An error report is about the request that gets it. -/
  report : ∀ code subsystem command, result = .error (.rpc code subsystem command) →
    ∃ r f, call.request? = .ok (some r) ∧ run.Answered k p name call f ∧
      Dispatcher.replyKey f = r.replyKey ∧ f.subsystem = .rpcError ∧
      code = f.payload.headD 0 ∧ subsystem = r.subsystem ∧ command = r.command

variable {run : Run} {k p : Nat} {name : String} {call : Call} {result : Except LinkError Outcome}

theorem Answered.replyKey_eq {f : Frame} (h : run.Answered k p name call f) {r : Request}
    (hrequest : call.request? = .ok (some r)) : Dispatcher.replyKey f = r.replyKey := by
  obtain ⟨-, -, -, -, -, hkey, -⟩ := h
  rw [Call.key?_of_request hrequest] at hkey
  exact (Option.some.inj hkey).symm

/-- Errors that have to do with the other end come up in three ways. -/
theorem Ends.remote (h : run.Ends k p name call result) {e : LinkError}
    (hresult : result = .error e) (he : e.Remote) :
    (e = .timeout ∧ run.TimedOut k p name call) ∨
      (e = .connectionClosed ∧ run.LeftAlone k p name call) ∨
      ∃ r f, call.request? = .ok (some r) ∧ run.Answered k p name call f ∧
        f.subsystem = .rpcError ∧ e = .rpc (f.payload.headD 0) r.subsystem r.command := by
  cases h with
  | unfit hrequest =>
    cases hresult
    exact absurd he (Local.request? call e hrequest)
  | refused _ hwrite =>
    cases hresult
    exact absurd he (Local.toWrite _ _ e hwrite)
  | closed => cases hresult
  | unsent =>
    cases hresult
    exact he.elim
  | sent => cases hresult
  | @answered f hanswered =>
    obtain ⟨r, hrequest, hreport, heq⟩ := Call.finish_remote hresult he
    exact .inr (.inr ⟨r, f, hrequest, hanswered, hreport, heq⟩)
  | timedOut htimedOut =>
    cases hresult
    exact .inl ⟨rfl, htimedOut⟩
  | leftAlone hleftAlone =>
    cases hresult
    exact .inr (.inl ⟨rfl, hleftAlone⟩)

theorem Ends.succeeds (h : run.Ends k p name call result) {r : Request} {o : Outcome}
    (hrequest : call.request? = .ok (some r)) (hresult : result = .ok o) :
    ∃ f, run.Answered k p name call f ∧ f.subsystem ≠ .rpcError ∧ call.read f.payload = .ok o := by
  cases h with
  | unfit | refused | unsent | timedOut | leftAlone => cases hresult
  | closed hcall =>
    rw [hcall] at hrequest
    cases hrequest
  | sent hcall =>
    rw [hcall] at hrequest
    cases hrequest
  | @answered f hanswered =>
    rw [Call.finish_of_request hrequest, Request.answer] at hresult
    split at hresult
    · cases hresult
    · exact ⟨f, hanswered, ‹_›, hresult⟩

theorem Ends.justified (h : run.Ends k p name call result) :
    run.Justified k p name call result where
  ends := h
  timeout hresult := by
    rcases h.remote hresult trivial with ⟨-, h⟩ | ⟨heq, -⟩ | ⟨r, f, -, -, -, heq⟩
    · exact h
    · cases heq
    · cases heq
  connectionClosed hresult := by
    rcases h.remote hresult trivial with ⟨heq, -⟩ | ⟨-, h⟩ | ⟨r, f, -, -, -, heq⟩
    · cases heq
    · exact h
    · cases heq
  payload r o hrequest hresult := by
    obtain ⟨f, hanswered, hreport, hread⟩ := h.succeeds hrequest hresult
    exact ⟨f, hanswered, hanswered.replyKey_eq hrequest, hreport, hread⟩
  report code subsystem command hresult := by
    rcases h.remote hresult trivial with
      ⟨heq, -⟩ | ⟨heq, -⟩ | ⟨r, f, hrequest, hanswered, hreport, heq⟩ <;> cases heq
    exact ⟨r, f, hrequest, hanswered, hanswered.replyKey_eq hrequest, hreport, rfl, rfl, rfl⟩

end Run

/-! ## Who waits, and who does not any more -/

/-- Whether a call waits for a frame that has not come yet. -/
def Session.waits (s : Session) (r : Running) : Bool :=
  r.phase.ticket?.any fun t => s.client.dispatcher.box t = some .empty

namespace Books

variable {run : Run} {k : Nat} {s : Session} {calls : List (Nat × Running)}
  {results : List (Nat × Ended)} {room : WaitingRoom}

/-- As many waiters wait as there are calls that wait. -/
theorem count_eq (h : Books run k s [] calls results room) :
    s.client.dispatcher.waiters.count = s.running.countP s.waits := by
  have hperm : room.tickets.Perm
      ((ticketsOf calls).filter fun t => s.client.dispatcher.box t = some .empty) := by
    refine (List.perm_ext_iff_of_nodup h.orderly.nodup (h.tickets.filter _)).mpr fun t => ?_
    have hbox : s.client.dispatcher.box t = room.box t := h.serves.box_eq t
    rw [List.mem_filter, h.mem_ticketsOf_iff, h.orderly.waits_iff, hbox]
    simp +contextual
  have hrunning := h.running
  rw [List.append_nil] at hrunning
  rw [h.serves.count_eq h.orderly, hperm.length_eq, ← List.countP_eq_length_filter, ticketsOf,
    List.countP_filterMap, ← hrunning.countP_eq, List.countP_map]
  congr 1
  funext c
  rw [Function.comp_apply, Session.waits]
  cases c.2.phase.ticket? <;> rfl

end Books

/-! ## Calls that look -/

namespace Session

theorem ended_lookOne (who : String → Bool) (s : Session) (r : Running) :
    s.ended ⊆ (lookOne who s r).ended := by
  unfold lookOne poll
  split
  · split
    · exact List.Subset.refl _
    · split
      · exact List.Subset.refl _
      · exact List.subset_cons_self _ _
  · exact List.Subset.refl _

theorem ended_foldl_lookOne (who : String → Bool) (todo : List Running) (s : Session) :
    s.ended ⊆ (todo.foldl (lookOne who) s).ended := by
  induction todo generalizing s with
  | nil => exact List.Subset.refl _
  | cons r todo ih => exact List.Subset.trans (ended_lookOne who s r) (ih _)

end Session

theorem Client.outcome?_congr {c c' : Client} {w : Wait} (hnow : c.now = c'.now)
    (hbox : c.dispatcher.box w.ticket = c'.dispatcher.box w.ticket) :
    c.outcome? w = c'.outcome? w := by
  rw [Dispatcher.box, Dispatcher.box] at hbox
  rw [outcome?, outcome?, hbox, hnow]

/-- A call that looks when its waiting is over ends, whoever else looks. -/
theorem Amid.mem_ended {run : Run} {k : Nat} {who : String → Bool}
    (hlog : run.log[k]? = some (.look who)) {todo : List Running} {s : Session}
    (h : Amid run k s todo) {r : Running} (hr : r ∈ todo) {wait : Wait}
    (hphase : r.phase = .waiting wait) (hwho : who r.name) {x : Except LinkError Frame}
    (hx : (run.upTo k).client.outcome? wait = some x) :
    ⟨r.name, x.bind r.call.finish⟩ ∈ (todo.foldl (Session.lookOne who) s).ended := by
  induction todo generalizing s with
  | nil => cases hr
  | cons r' todo ih =>
    rcases List.mem_cons.mp hr with rfl | hr
    · have hbox := h.1.box r List.mem_cons_self wait.ticket (by rw [hphase]; rfl)
      apply Session.ended_foldl_lookOne who todo
      rw [Session.lookOne, if_pos hwho, Session.poll, hphase]
      dsimp only
      rw [Client.outcome?_congr h.1.now hbox, hx]
      exact List.mem_cons_self
    · exact ih (h.lookOne hlog) hr

/-! ## The law -/

namespace Run

/-- Where all the calls are that were begun before the move `k`: they go on, or they have a result,
or they were given up. Calls and results stand with the places where the calls were begun. -/
structure Accounts (run : Run) (k : Nat) (calls : List (Nat × Running))
    (results : List (Nat × Ended)) : Prop where
  running : (calls.map (·.2)).Perm (run.upTo k).running
  ended : results.map (·.2) = (run.upTo k).ended
  /-- No call has two results, or a result while it goes on. -/
  places : (calls.map (·.1) ++ results.map (·.1)).Nodup
  /-- No call is forgotten. -/
  complete : ∀ p name call, p < k → run.Begun p name call →
    p ∈ calls.map (·.1) ∨ p ∈ results.map (·.1) ∨ run.GivenUp k p name
  going : ∀ c ∈ calls, run.Begun c.1 c.2.name c.2.call ∧ ¬ run.GivenUp k c.1 c.2.name ∧
    run.Going k c.1 c.2.name c.2.call c.2.phase
  /-- A call writes until the line is done with its frame. -/
  unflushed : ∀ c ∈ calls, ∀ bs ticket, c.2.phase = .writing bs ticket → ∀ j, c.1 < j → j < k →
    run.log[j]? ≠ some (.event (.flushed c.2.name))
  /-- Each result is justified by what was before the call ended, and until then it was not given
  up. -/
  justified : ∀ e ∈ results, ∃ call, run.Begun e.1 e.2.name call ∧
    ∃ d ≤ k, ¬ run.GivenUp d e.1 e.2.name ∧ run.Justified d e.1 e.2.name call e.2.result
  /-- If the stream ended while a call waited, the connection was closed for it, unless its frame
  was still to be written then and could not be. -/
  cutOff : ∀ e ∈ results, ∀ call key q, run.Begun e.1 e.2.name call → call.key? = some key →
    e.1 < q → q < k → run.CutsOff q (run.ticket e.1) →
    run.CutShort k q e.1 e.2.name call e.2.result ∧
      ∀ w, run.WaitsFrom e.1 e.2.name call w → w < q → e.2.result = .error .connectionClosed
  /-- A call that is over, for whatever reason, has no mailbox any more. -/
  gone : ∀ p name call key, p < k → run.Begun p name call → call.key? = some key →
    p ∉ calls.map (·.1) → ∀ j, k ≤ j → run.box j (run.ticket p) = none

/-- How things stand after the first `k` moves of a run. -/
structure InOrder (run : Run) (k : Nat) : Prop where
  accounts : ∃ calls results, run.Accounts k calls results
  /-- Only calls that go on and have got nothing yet count as waiting. -/
  pending : (run.upTo k).client.dispatcher.waiters.count =
    (run.upTo k).running.countP (run.upTo k).waits
  /-- What a call has been given it has for as long as it goes on. -/
  kept : ∀ j, k ≤ j → ∀ r ∈ (run.upTo j).running, ∀ t, r.phase.ticket? = some t →
    t < run.ticket k → run.box k t ≠ some .empty → run.box j t = run.box k t
  /-- A call that looks when its waiting is over ends with what it finds. -/
  looked : ∀ who, run.log[k]? = some (.look who) → ∀ r ∈ (run.upTo k).running, ∀ wait,
    r.phase = .waiting wait → who r.name → ∀ x, (run.upTo k).client.outcome? wait = some x →
      ⟨r.name, x.bind r.call.finish⟩ ∈ (run.upTo (k + 1)).ended
  /-- When the stream ends, nobody waits any more, and those who did find nothing but that. -/
  forsaken : run.log[k]? = some (.event .ended) → (run.upTo k).client.reading = true →
    (run.upTo (k + 1)).client.dispatcher.waiters.count = 0 ∧
    ∀ t, run.box k t = some .empty → ∀ j, k < j → ∀ r ∈ (run.upTo j).running,
      r.phase.ticket? = some t → run.box j t = some .closed ∧
        ∀ wait who, r.phase = .waiting wait → run.log[j]? = some (.look who) → who r.name →
          ⟨r.name, .error .connectionClosed⟩ ∈ (run.upTo (j + 1)).ended

variable {run : Run} {j k : Nat}

/-- Whoever had its frame written before does not fail to write it. -/
theorem CutShort.eq_of_waitsFrom {q p w : Nat} {name : String} {call : Call}
    {result : Except LinkError Outcome} (h : run.CutShort k q p name call result)
    (hwaits : run.WaitsFrom p name call w) (hw : w < q) : result = .error .connectionClosed := by
  cases h with
  | closed => rfl
  | unwritten hq _ hfails =>
    cases hwaits with
    | begun hcall =>
      obtain ⟨f, hframe⟩ := hfails.frame
      rw [hcall] at hframe
      cases hframe
    | written _ hp hwrites => exact absurd hwrites.1 (hfails.first w hp (Nat.lt_trans hw hq))

theorem exists_accounts (run : Run) (k : Nat) : ∃ calls results, run.Accounts k calls results := by
  obtain ⟨calls, results, room, h⟩ := exists_books run k
  have hrunning := h.running
  rw [List.append_nil] at hrunning
  exact ⟨calls, results, {
    running := hrunning
    ended := h.ended
    places := h.places
    complete := fun p name call hp hbegun => by
      rw [← or_assoc, ← List.mem_append]
      exact h.complete p name call hp hbegun
    going := fun c hc => by
      obtain ⟨-, hbegun, hgoing⟩ := h.going c hc
      refine ⟨hbegun, ?_, hgoing⟩
      rintro ⟨j, hp, hj, habort⟩
      exact h.standing_succ c hc j hp hj habort
    unflushed := h.unflushed_succ
    justified := fun e he => by
      obtain ⟨-, call, hbegun, d, hd, hgiven, hends⟩ := h.ends e he
      exact ⟨call, hbegun, d, hd, hgiven, hends.justified⟩
    cutOff := fun e he call key q hbegun hkey hp hq hcuts => by
      have hshort := h.cutOff e he call key q hbegun hkey hp hq hcuts
      exact ⟨hshort, fun w hwaits hw => hshort.eq_of_waitsFrom hwaits hw⟩
    gone := fun p name call key hp hbegun hkey hout j hj =>
      box_eq_none hj (ticket_lt hbegun hkey hp) (h.box_of_not_mem hbegun hkey hout) }⟩

theorem box_of_running {r : Running} (hr : r ∈ (run.upTo k).running) {t : Ticket}
    (ht : r.phase.ticket? = some t) : run.box k t ≠ none := by
  obtain ⟨calls, results, room, h⟩ := exists_books run k
  have hmem := h.running.mem_iff.mpr (List.mem_append_left _ hr)
  obtain ⟨c, hc, rfl⟩ := List.mem_map.mp hmem
  exact (h.mem_ticketsOf_iff t).mp (mem_ticketsOf.mpr ⟨c, hc, ht⟩)

theorem box_kept (hj : k ≤ j) {r : Running} (hr : r ∈ (run.upTo j).running) {t : Ticket}
    (ht : r.phase.ticket? = some t) (hlt : t < run.ticket k) (hbox : run.box k t ≠ some .empty) :
    run.box j t = run.box k t :=
  (box_settled hj hlt hbox).resolve_right (box_of_running hr ht)

theorem mem_ended_of_look {who : String → Bool} (hlog : run.log[k]? = some (.look who))
    {r : Running} (hr : r ∈ (run.upTo k).running) {wait : Wait} (hphase : r.phase = .waiting wait)
    (hwho : who r.name) {x : Except LinkError Frame}
    (hx : (run.upTo k).client.outcome? wait = some x) :
    ⟨r.name, x.bind r.call.finish⟩ ∈ (run.upTo (k + 1)).ended := by
  obtain ⟨calls, results, room, h⟩ := exists_books run k
  rw [upTo_succ hlog]
  exact (h.amid (by simp [Begun, hlog]) (List.Perm.refl _)).mem_ended hlog hr hphase hwho hx

/-- The stream ends, and everyone who waited finds the mailbox closed. -/
theorem box_closed (hlog : run.log[k]? = some (.event .ended))
    (hreading : (run.upTo k).client.reading = true) :
    (run.upTo (k + 1)).client.dispatcher.waiters.count = 0 ∧
      ∀ t, run.box k t = some .empty →
        t < run.ticket (k + 1) ∧ run.box (k + 1) t = some .closed := by
  obtain ⟨calls, results, room, h⟩ := exists_books run k
  have hstep : run.upTo (k + 1) =
      { run.upTo k with client := (run.upTo k).client.endReading } := upTo_succ hlog
  simp only [box, ticket, hstep, Client.endReading, if_pos hreading]
  refine ⟨h.serves.cancelAll.count_eq h.orderly.cancelAll, fun t ht => ?_⟩
  have hroom : room.box t = some .empty := (h.serves.box_eq t).symm.trans ht
  refine ⟨?_, ?_⟩
  · exact h.serves.cancelAll.next_eq ▸ h.orderly.lt_next hroom
  · exact (h.serves.cancelAll.box_eq t).trans (if_pos ((h.orderly.waits_iff t).mpr hroom))

end Run

/-- Whatever happens to a session, and in whatever order, every call ends for its reason. -/
theorem every_call_ends_for_its_reason (run : Run) (k : Nat) : run.InOrder k where
  accounts := run.exists_accounts k
  pending := by
    obtain ⟨calls, results, room, h⟩ := exists_books run k
    exact h.count_eq
  kept _ hj _ hr _ ht hlt hbox := Run.box_kept hj hr ht hlt hbox
  looked _ hlog _ hr _ hphase hwho _ hx := Run.mem_ended_of_look hlog hr hphase hwho hx
  forsaken hlog hreading := by
    obtain ⟨hcount, hclosed⟩ := Run.box_closed hlog hreading
    refine ⟨hcount, fun t ht j hj r hr htr => ?_⟩
    obtain ⟨hlt, hbox⟩ := hclosed t ht
    have hbox' : run.box j t = some .closed :=
      (Run.box_kept hj hr htr hlt (by simp [hbox])).trans hbox
    refine ⟨hbox', fun wait who hphase hlog' hwho => ?_⟩
    rw [hphase] at htr
    cases htr
    exact Run.mem_ended_of_look hlog' hr hphase hwho (Client.outcome?_closed hbox')

deriving instance DecidableEq for Ended

/-- A call gets its answer, one gives up in time, one is given up, and one waits when the stream
ends. -/
def assorted : Run where
  timeout := 5000
  log := [.event (.start "a" (.request .ping)), .event (.flushed "a"),
    .event (.data [0xfe, 0x01, 0x61, 0x01, 0x07, 0x66]), .look fun _ => true,
    .event (.start "b" (.request .ping)), .event (.flushed "b"),
    .event (.start "g" (.request .ping)), .event (.flushed "g"), .event (.abort "g"),
    .event (.advance 5000), .look fun _ => true,
    .event (.start "c" (.request .ping)), .event (.flushed "c"), .event .ended,
    .look fun _ => true]

/-- Each call of the run has come to its own end. -/
theorem four_calls_come_to_four_ends :
    (assorted.upTo 15).ended = [⟨"c", .error .connectionClosed⟩, ⟨"b", .error .timeout⟩,
      ⟨"a", .ok (.bytes [7])⟩] ∧
    assorted.GivenUp 15 6 "g" ∧ assorted.CutsOff 13 (assorted.ticket 11) ∧
    assorted.InOrder 15 :=
  ⟨by decide +kernel, ⟨8, by decide, by decide, rfl⟩,
    ⟨rfl, by decide +kernel, by decide +kernel⟩, every_call_ends_for_its_reason assorted 15⟩

end ZigbeeGateway.Radio
