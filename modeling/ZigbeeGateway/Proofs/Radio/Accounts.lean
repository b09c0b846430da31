-- Accounts of calls. A call is known by the place of the log where it was begun, and its waiter by
-- the number that was the next one there. How far a call is, and why it has its result, can be told
-- from what the run has brought up to a move.
import ZigbeeGateway.Proofs.Radio.Runs
namespace ZigbeeGateway.Radio

/-! ## What a call writes and waits for -/

namespace Call

variable {call : Call} {r : Request}

/-- The frame that a call writes, if it writes one. -/
def frame? (call : Call) : Option Frame :=
  match call, call.request? with
  | .send f, _ => some f
  | _, .ok (some r) => some r.frame
  | _, _ => none

/-- The key of the frame that a call waits for, if it waits for one. -/
def key? (call : Call) : Option Key :=
  match call, call.request? with
  | .waitFor key, _ => some key
  | _, .ok (some r) => some r.replyKey
  | _, _ => none

theorem frame?_of_request (h : call.request? = .ok (some r)) : call.frame? = some r.frame := by
  cases call with
  | send f => cases h
  | _ => simp only [frame?, h]

theorem key?_of_request (h : call.request? = .ok (some r)) : call.key? = some r.replyKey := by
  cases call with
  | waitFor key => cases h
  | _ => simp only [key?, h]

theorem cases_of_key {key : Key} (h : call.key? = some key) :
    (∃ r, call.request? = .ok (some r) ∧ r.replyKey = key) ∨ call = .waitFor key := by
  unfold key? at h
  split at h
  · exact .inr (congrArg Call.waitFor (Option.some.inj h))
  · rename_i r _ hrequest
    exact .inl ⟨r, hrequest, Option.some.inj h⟩
  · cases h

theorem cases_of_request (h : call.request? = .ok none) :
    (∃ f, call = .send f) ∨ (∃ key, call = .waitFor key) ∨ call = .close := by
  cases call with
  | send f => exact .inl ⟨f, rfl⟩
  | waitFor key => exact .inr (.inl ⟨key, rfl⟩)
  | close => exact .inr (.inr rfl)
  | register r =>
    simp only [request?] at h
    cases hr : Request.register r <;> rw [hr] at h <;> cases h
  | sendData r =>
    simp only [request?] at h
    cases hr : Request.sendData r <;> rw [hr] at h <;> cases h
  | request _ => cases h
  | ping => cases h
  | startUp _ => cases h
  | lookUp _ => cases h

end Call

theorem Session.next_begin (s : Session) {name : String} {call : Call} {key : Key}
    (h : call.key? = some key) :
    (s.begin name call).client.dispatcher.waiters.next =
      s.client.dispatcher.waiters.next + 1 := by
  rcases Call.cases_of_key h with ⟨r, hrequest, -⟩ | rfl
  · unfold begin startWriting
    rw [hrequest]
    dsimp only
    split <;> rfl
  · rfl

/-! ## What a move leaves over -/

namespace Session

/-- Nobody with the name goes on after the calls of a name are given up. -/
theorem name_ne_of_abort {s : Session} {name : String} {r : Running}
    (hr : r ∈ (s.abort name).running) : r.name ≠ name := by
  have hrelease : ∀ (gone : List Running) (s : Session),
      (gone.foldl (fun (s : Session) r => s.release r.phase.ticket?) s).running = s.running :=
    fun gone s => List.foldlRecOn gone _ (motive := fun s' : Session => s'.running = s.running) rfl
      fun _ h _ _ => h
  rw [abort, List.partition_eq_filter_filter, hrelease] at hr
  simpa using (List.mem_filter.mp hr).2

/-- The calls of a name wait, as far as they go on. -/
def Flushed (name : String) (s : Session) : Prop :=
  ∀ r ∈ s.running, r.name = name → ∃ wait, r.phase = .waiting wait

variable {name : String} {s : Session}

theorem Flushed.keep (h : s.Flushed name) {r : Running}
    (hr : r.name = name → ∃ wait, r.phase = .waiting wait) : (s.keep r).Flushed name := by
  intro r' hr'
  rcases List.mem_append.mp hr' with hr' | hr'
  · exact h r' hr'
  · obtain rfl := List.mem_singleton.mp hr'
    exact hr

theorem Flushed.flushOne (h : s.Flushed name) (r : Running) :
    (s.flushOne name r).Flushed name := by
  unfold Session.flushOne
  split
  · split
    · unfold written
      split
      · exact h
      · exact h
      · exact Flushed.keep h fun _ => ⟨_, rfl⟩
    · exact h.keep fun hname => absurd hname ‹_›
  · exact h.keep fun _ => ⟨_, ‹_›⟩

theorem flushed_flush (s : Session) (name : String) : (s.flush name).Flushed name := by
  have hnone : Flushed name { s with running := [] } := fun _ hr => nomatch hr
  exact List.foldlRecOn s.running _ (motive := Flushed name) hnone fun _ h r _ => h.flushOne r

end Session

/-! ## Reasons -/

namespace Run

variable (run : Run)

/-- A call is begun at a place of the log. -/
def Begun (p : Nat) (name : String) (call : Call) : Prop :=
  run.log[p]? = some (.event (.start name call))

/-- The line has written the frames of the calls of a name. -/
def Writes (k : Nat) (name : String) : Prop :=
  run.log[k]? = some (.event (.flushed name)) ∧ (run.upTo k).client.failing = none

/-- A frame comes in and gets into a mailbox that was empty. -/
structure Delivers (q : Nat) (t : Ticket) (f : Frame) : Prop where
  arrives : ∃ bs, run.log[q]? = some (.event (.data bs)) ∧ (run.upTo q).client.reading = true ∧
    f ∈ Stream.goodFrames (Stream.push (run.upTo q).client.held bs).1
  before : run.box q t = some .empty
  after : run.box (q + 1) t = some (.holding f)

/-- The calls of a name are given up after a place of the log and before the move `k`. -/
def GivenUp (k p : Nat) (name : String) : Prop :=
  ∃ j, p < j ∧ j < k ∧ run.log[j]? = some (.event (.abort name))

/-- The line is done with the frame of a call for the first time, and could not write it. -/
structure FailsToWrite (j p : Nat) (name : String) (call : Call) (reason : String) : Prop where
  frame : ∃ f, call.frame? = some f
  later : p < j
  flushed : run.log[j]? = some (.event (.flushed name))
  failing : (run.upTo j).client.failing = some reason
  first : ∀ w, p < w → w < j → run.log[w]? ≠ some (.event (.flushed name))

/-- The stream ends while somebody waits for a frame. -/
structure CutsOff (q : Nat) (t : Ticket) : Prop where
  ends : run.log[q]? = some (.event .ended)
  reading : (run.upTo q).client.reading = true
  before : run.box q t = some .empty

/-- From when on a call waits. A request does so from the writing of its frame on. -/
inductive WaitsFrom (p : Nat) (name : String) (call : Call) : (w : Nat) → Prop
  | begun {key : Key} : call = .waitFor key → WaitsFrom p name call p
  | written {r : Request} {w : Nat} :
      call.request? = .ok (some r) → p < w → run.Writes w name → WaitsFrom p name call w

/-- A call that waits from a place of the log on looks later whether its waiting is over. -/
structure Looks (p : Nat) (name : String) (call : Call) (w k : Nat) : Prop where
  waits : run.WaitsFrom p name call w
  later : w < k
  looks : ∃ who, run.log[k]? = some (.look who) ∧ who name

/-- A call has waited for its full time, and its mailbox was empty all the while. -/
def TimedOut (k p : Nat) (name : String) (call : Call) : Prop :=
  ∃ w j, j < k ∧ run.Looks p name call w j ∧
    (run.upTo w).client.now + run.timeout ≤ (run.upTo j).client.now ∧
    ∀ i, p < i → i ≤ j → run.box i (run.ticket p) = some .empty

/-- A call has found a frame of the key it waits for, which has come in since the call was begun. -/
def Answered (k p : Nat) (name : String) (call : Call) (f : Frame) : Prop :=
  ∃ w q j, j < k ∧ run.Looks p name call w j ∧ call.key? = some (Dispatcher.replyKey f) ∧
    p < q ∧ q < j ∧ run.Delivers q (run.ticket p) f ∧
    run.box j (run.ticket p) = some (.holding f)

/-- A call has found its mailbox closed, because the stream has ended since the call was begun. -/
def LeftAlone (k p : Nat) (name : String) (call : Call) : Prop :=
  ∃ w q j, j < k ∧ run.Looks p name call w j ∧ p < q ∧ q < j ∧ run.CutsOff q (run.ticket p) ∧
    run.box j (run.ticket p) = some .closed

/-- Why a call that was begun at a place of the log has its result before the move `k`. -/
inductive Ends (k p : Nat) (name : String) (call : Call) : Except LinkError Outcome → Prop
  | unfit {e : LinkError} : call.request? = .error e → Ends k p name call (.error e)
  | refused {f : Frame} {e : LinkError} :
      call.frame? = some f → (run.upTo p).client.toWrite f = .error e →
      Ends k p name call (.error e)
  | closed : call = .close → Ends k p name call (.ok .nothing)
  | unsent {f : Frame} {j : Nat} {reason : String} :
      call.frame? = some f → p < j → j < k → run.log[j]? = some (.event (.flushed name)) →
      (run.upTo j).client.failing = some reason → Ends k p name call (.error (.sendFailed reason))
  | sent {f : Frame} {j : Nat} :
      call = .send f → p < j → j < k → run.Writes j name → Ends k p name call (.ok .nothing)
  | answered {f : Frame} : run.Answered k p name call f → Ends k p name call (call.finish f)
  | timedOut : run.TimedOut k p name call → Ends k p name call (.error .timeout)
  | leftAlone : run.LeftAlone k p name call → Ends k p name call (.error .connectionClosed)

/-- How far a call that was begun at a place of the log has come before the move `k`. -/
inductive Going (k p : Nat) (name : String) (call : Call) : Phase → Prop
  | sending {f : Frame} {bs : Bytes} : call = .send f → Going k p name call (.writing bs none)
  | asking {r : Request} {bs : Bytes} :
      call.request? = .ok (some r) → Going k p name call (.writing bs (some (run.ticket p)))
  | waiting {w : Nat} :
      run.WaitsFrom p name call w → w < k →
      Going k p name call (.waiting ⟨run.ticket p, (run.upTo w).client.now + run.timeout⟩)

/-- What a call comes to that waited when the stream ended at the move `q`. -/
inductive CutShort (k q p : Nat) (name : String) (call : Call) : Except LinkError Outcome → Prop
  | closed : CutShort k q p name call (.error .connectionClosed)
  | unwritten {j : Nat} {reason : String} :
      q < j → j < k → run.FailsToWrite j p name call reason →
      CutShort k q p name call (.error (.sendFailed reason))

/-- What is in the mailbox of a call, and since when. -/
inductive Mailed (k p : Nat) (key : Key) (room : WaitingRoom) : Prop
  | waits : run.ticket p ∈ room.line key → Mailed k p key room
  | holds {f : Frame} {q : Nat} :
      room.box (run.ticket p) = some (.holding f) → Dispatcher.replyKey f = key → p < q → q < k →
      run.Delivers q (run.ticket p) f → Mailed k p key room
  | closed {q : Nat} :
      room.box (run.ticket p) = some .closed → p < q → q < k → run.CutsOff q (run.ticket p) →
      Mailed k p key room

variable {run} {k p : Nat} {name : String} {call : Call}

theorem Begun.unique {name' : String} {call' : Call}
    (h : run.Begun p name call) (h' : run.Begun p name' call') : name = name' ∧ call = call' := by
  rw [Begun, h] at h'
  cases h'
  exact ⟨rfl, rfl⟩

/-- A call that has begun by a move with which no call begins has begun before it. -/
theorem Begun.lt (h : run.Begun p name call) (hp : p < k + 1)
    (hnone : ∀ name call, ¬ run.Begun k name call) : p < k := by
  refine Nat.lt_of_le_of_ne (Nat.le_of_lt_succ hp) ?_
  rintro rfl
  exact hnone name call h

/-- The waiter of a call gets its number when the call begins. -/
theorem ticket_lt (hbegun : run.Begun p name call) {key : Key} (hkey : call.key? = some key)
    {j : Nat} (hj : p < j) : run.ticket p < run.ticket j := by
  have hnext : run.ticket (p + 1) = run.ticket p + 1 := by
    rw [ticket, upTo_succ hbegun]
    exact (run.upTo p).next_begin hkey
  exact Nat.lt_of_lt_of_le (hnext ▸ Nat.lt_succ_self _) (ticket_mono hj)

theorem WaitsFrom.exists_event {w : Nat} (h : run.WaitsFrom p name call w)
    (hbegun : run.Begun p name call) : ∃ e, run.log[w]? = some (.event e) := by
  cases h with
  | begun => exact ⟨_, hbegun⟩
  | written _ _ hwrites => exact ⟨_, hwrites.1⟩

theorem GivenUp.mono (h : run.GivenUp k p name) {k' : Nat} (hk : k ≤ k') :
    run.GivenUp k' p name := by
  obtain ⟨j, hp, hj, hlog⟩ := h
  exact ⟨j, hp, Nat.lt_of_lt_of_le hj hk, hlog⟩

/-- A call is not given up before it is begun. -/
theorem not_givenUp_succ : ¬ run.GivenUp (k + 1) k name := by
  rintro ⟨j, hk, hj, -⟩
  omega

theorem Ends.mono {result : Except LinkError Outcome} (h : run.Ends k p name call result)
    {k' : Nat} (hk : k ≤ k') : run.Ends k' p name call result := by
  cases h with
  | unfit hrequest => exact .unfit hrequest
  | refused hframe hwrite => exact .refused hframe hwrite
  | closed hcall => exact .closed hcall
  | unsent hframe hp hj hlog hfailing =>
    exact .unsent hframe hp (Nat.lt_of_lt_of_le hj hk) hlog hfailing
  | sent hcall hp hj hwrites => exact .sent hcall hp (Nat.lt_of_lt_of_le hj hk) hwrites
  | answered hanswered =>
    obtain ⟨w, q, j, hj, h⟩ := hanswered
    exact .answered ⟨w, q, j, Nat.lt_of_lt_of_le hj hk, h⟩
  | timedOut htimedOut =>
    obtain ⟨w, j, hj, h⟩ := htimedOut
    exact .timedOut ⟨w, j, Nat.lt_of_lt_of_le hj hk, h⟩
  | leftAlone hleftAlone =>
    obtain ⟨w, q, j, hj, h⟩ := hleftAlone
    exact .leftAlone ⟨w, q, j, Nat.lt_of_lt_of_le hj hk, h⟩

theorem CutShort.mono {q : Nat} {result : Except LinkError Outcome}
    (h : run.CutShort k q p name call result) {k' : Nat} (hk : k ≤ k') :
    run.CutShort k' q p name call result := by
  cases h with
  | closed => exact .closed
  | unwritten hq hj hfails => exact .unwritten hq (Nat.lt_of_lt_of_le hj hk) hfails

/-- The mailbox of whoever is cut off is closed from then on, until its owner leaves. -/
theorem CutsOff.box_later {q : Nat} {t : Ticket} (h : run.CutsOff q t) (hk : q < k) :
    run.box k t = some .closed ∨ run.box k t = none := by
  obtain ⟨room, hserves, hroom, -⟩ := run.exists_room q
  have hbox : run.box (q + 1) t = some .closed := by
    have hmem := (hroom.waits_iff t).mpr ((hserves.box_eq t).symm.trans h.before)
    rw [box, upTo_succ h.ends, Session.move, Session.apply, Client.endReading, if_pos h.reading]
    exact (hserves.cancelAll.box_eq t).trans (if_pos hmem)
  have hlt : t < run.ticket (q + 1) := lt_ticket (by simp [hbox])
  rw [← hbox]
  exact box_settled hk hlt (by simp [hbox])

namespace Going

variable {phase : Phase}

theorem mono (h : run.Going k p name call phase) : run.Going (k + 1) p name call phase := by
  cases h with
  | sending hcall => exact .sending hcall
  | asking hrequest => exact .asking hrequest
  | waiting hwaits hw => exact .waiting hwaits (Nat.lt_succ_of_lt hw)

/-- Which bytes are written makes no difference. -/
theorem withBytes {bs : Bytes} {ticket : Option Ticket}
    (h : run.Going k p name call (.writing bs ticket)) (bs' : Bytes) :
    run.Going k p name call (.writing bs' ticket) := by
  cases h with
  | sending hcall => exact .sending hcall
  | asking hrequest => exact .asking hrequest

theorem exists_frame {bs : Bytes} {ticket : Option Ticket}
    (h : run.Going k p name call (.writing bs ticket)) : ∃ f, call.frame? = some f := by
  cases h with
  | @sending f _ hcall => exact ⟨f, by rw [hcall]; rfl⟩
  | asking hrequest => exact ⟨_, Call.frame?_of_request hrequest⟩

theorem ticket?_eq (h : run.Going k p name call phase) {t : Ticket} (ht : phase.ticket? = some t) :
    t = run.ticket p := by
  cases h with
  | sending => cases ht
  | asking => exact (Option.some.inj ht).symm
  | waiting => exact (Option.some.inj ht).symm

end Going

theorem Mailed.mono {key : Key} {room : WaitingRoom} (h : run.Mailed k p key room) :
    run.Mailed (k + 1) p key room := by
  cases h with
  | waits hline => exact .waits hline
  | holds hbox hkey hp hq hdelivers => exact .holds hbox hkey hp (Nat.lt_succ_of_lt hq) hdelivers
  | closed hbox hp hq hcuts => exact .closed hbox hp (Nat.lt_succ_of_lt hq) hcuts

/-- Somebody else leaves. -/
theorem Mailed.leave {key : Key} {room : WaitingRoom} (h : run.Mailed k p key room) {t : Ticket}
    (ht : run.ticket p ≠ t) (box : Option Mailbox) : run.Mailed k p key (room.leave t box) := by
  have hbox := WaitingRoom.box_leave_of_ne ht room box
  cases h with
  | waits hline =>
    refine .waits ?_
    rw [WaitingRoom.line_leave]
    exact List.mem_filter.mpr ⟨hline, by simpa using ht⟩
  | holds hb hkey hp hq hdelivers => exact .holds (hbox.trans hb) hkey hp hq hdelivers
  | closed hb hp hq hcuts => exact .closed (hbox.trans hb) hp hq hcuts

/-- Somebody else comes. -/
theorem Mailed.register {key : Key} {room : WaitingRoom} (h : run.Mailed k p key room)
    (ht : run.ticket p ≠ room.next) (key' : Key) : run.Mailed k p key (room.register key').2 := by
  have hbox := WaitingRoom.box_register_of_ne ht key'
  cases h with
  | waits hline =>
    refine .waits ?_
    rw [WaitingRoom.line_register]
    split
    · exact List.mem_append_left _ hline
    · exact hline
  | holds hb hkey hp hq hdelivers => exact .holds (hbox.trans hb) hkey hp hq hdelivers
  | closed hb hp hq hcuts => exact .closed (hbox.trans hb) hp hq hcuts

end Run

end ZigbeeGateway.Radio
