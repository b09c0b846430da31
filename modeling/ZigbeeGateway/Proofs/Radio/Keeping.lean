-- The books are kept through every move: when the line is done with a frame, when calls are given
-- up, when frames come in, when the stream ends, and when calls look whether their waiting is over.
-- So there are books of every run.
import ZigbeeGateway.Proofs.Radio.Beginnings
namespace ZigbeeGateway.Radio

/-! ## Frames that come in together -/

namespace WaitingRoom

variable {room : WaitingRoom}

/-- Frames go to the fronts of their lines one after the other. -/
def dispatchAll (room : WaitingRoom) (frames : List Frame) : WaitingRoom :=
  frames.foldl (fun room f => (room.dispatch f).2) room

theorem Orderly.dispatchAll (h : room.Orderly) (frames : List Frame) :
    (room.dispatchAll frames).Orderly := by
  induction frames generalizing room with
  | nil => exact h
  | cons f frames ih => exact ih (h.dispatch f)

theorem box_dispatch_settled (h : room.Orderly) {t : Ticket} (hbox : room.box t ≠ some .empty)
    (f : Frame) : (room.dispatch f).2.box t = room.box t := by
  unfold dispatch
  split
  · rfl
  · rename_i u rest hline
    apply box_leave_of_ne
    rintro rfl
    exact hbox ((h.waits_iff t).mp (mem_tickets.mpr ⟨_, hline ▸ List.mem_cons_self⟩))

theorem box_dispatchAll_settled (h : room.Orderly) {t : Ticket} (hbox : room.box t ≠ some .empty)
    (frames : List Frame) : (room.dispatchAll frames).box t = room.box t := by
  induction frames generalizing room with
  | nil => rfl
  | cons f frames ih =>
    have hstep := box_dispatch_settled h hbox f
    exact (ih (h.dispatch f) (hstep ▸ hbox)).trans hstep

/-- Whoever waits for a key goes on waiting or gets a frame of the key. -/
theorem line_dispatch {t : Ticket} {key : Key} (h : room.Orderly) (ht : t ∈ room.line key)
    (f : Frame) :
    t ∈ (room.dispatch f).2.line key ∨
      Dispatcher.replyKey f = key ∧ (room.dispatch f).2.box t = some (.holding f) := by
  unfold dispatch
  split
  · exact .inl ht
  · rename_i u rest hline
    have hu : u ∈ room.line (Dispatcher.replyKey f) := hline ▸ List.mem_cons_self
    by_cases hut : t = u
    · subst hut
      exact .inr ⟨h.key_unique hu ht, Function.update_self ..⟩
    · rw [line_leave]
      exact .inl (List.mem_filter.mpr ⟨ht, by simpa using hut⟩)

theorem line_dispatchAll {t : Ticket} {key : Key} (h : room.Orderly) (ht : t ∈ room.line key)
    (frames : List Frame) :
    t ∈ (room.dispatchAll frames).line key ∨ ∃ f ∈ frames,
      Dispatcher.replyKey f = key ∧ (room.dispatchAll frames).box t = some (.holding f) := by
  induction frames generalizing room with
  | nil => exact .inl ht
  | cons f frames ih =>
    rcases line_dispatch h ht f with hline | ⟨hkey, hbox⟩
    · rcases ih (h.dispatch f) hline with hline | ⟨g, hg, hkey, hbox⟩
      · exact .inl hline
      · exact .inr ⟨g, List.mem_cons_of_mem f hg, hkey, hbox⟩
    · refine .inr ⟨f, List.mem_cons_self, hkey, ?_⟩
      exact (box_dispatchAll_settled (h.dispatch f) (by simp [hbox]) frames).trans hbox

end WaitingRoom

theorem Dispatcher.serves_dispatchAll {d : Dispatcher} {room : WaitingRoom}
    (h : d.waiters.Serves room) (frames : List Frame) :
    (d.dispatchAll frames).waiters.Serves (room.dispatchAll frames) := by
  induction frames generalizing d room with
  | nil => exact h
  | cons f frames ih => exact ih (h.complete f).2

/-! ## Looking -/

namespace Client

variable {c : Client} {w : Wait}

theorem outcome?_empty (h : c.dispatcher.box w.ticket = some .empty) :
    c.outcome? w = if w.deadline ≤ c.now then some (.error .timeout) else none := by
  rw [Dispatcher.box] at h
  rw [outcome?, h]

theorem outcome?_holding {f : Frame} (h : c.dispatcher.box w.ticket = some (.holding f)) :
    c.outcome? w = some (.ok f) := by
  rw [Dispatcher.box] at h
  rw [outcome?, h]

theorem outcome?_closed (h : c.dispatcher.box w.ticket = some .closed) :
    c.outcome? w = some (.error .connectionClosed) := by
  rw [Dispatcher.box] at h
  rw [outcome?, h]

end Client

/-! ## Calls one after the other -/

/-- The session in the middle of the move `k`, with some calls still to deal with: their mailboxes,
the clock and the line are as they were before the move. -/
structure Within (run : Run) (k : Nat) (s : Session) (todo : List Running) : Prop where
  now : s.client.now = (run.upTo k).client.now
  failing : s.client.failing = (run.upTo k).client.failing
  box : ∀ r ∈ todo, ∀ t, r.phase.ticket? = some t → s.client.dispatcher.box t = run.box k t

/-- There are books in the middle of a move. -/
def Amid (run : Run) (k : Nat) (s : Session) (todo : List Running) : Prop :=
  Within run k s todo ∧ ∃ calls results room, Books run (k + 1) s todo calls results room

namespace Session

theorem box_release (s : Session) (ticket : Option Ticket) (t : Ticket) :
    (s.release ticket).client.dispatcher.box t =
      if ticket = some t then none else s.client.dispatcher.box t := by
  cases ticket with
  | none => rfl
  | some u =>
    refine (Waiters.boxes_erase s.client.dispatcher.waiters u t).trans ?_
    simp only [Option.some.injEq, eq_comm (a := u)]
    rfl

/-- The session in which the line has written bytes. -/
def wrote (s : Session) (bs : Bytes) : Session :=
  { s with client := { s.client with written := bs :: s.client.written } }

theorem written_failing {s : Session} {reason : String} (h : s.client.failing = some reason)
    (r : Running) (bs : Bytes) (ticket : Option Ticket) :
    s.written r bs ticket = (s.release ticket).finish r.name (.error (.sendFailed reason)) := by
  simp only [written, Client.writeBytes, h]

theorem written_none {s : Session} (h : s.client.failing = none) (r : Running) (bs : Bytes) :
    s.written r bs none = (s.wrote bs).finish r.name (.ok .nothing) := by
  simp only [written, Client.writeBytes, h, wrote]

theorem written_some {s : Session} (h : s.client.failing = none) (r : Running) (bs : Bytes)
    (t : Ticket) :
    s.written r bs (some t) =
      (s.wrote bs).keep { r with phase := .waiting (s.client.waitOf t) } := by
  simp only [written, Client.writeBytes, h, wrote, Client.waitOf]

end Session

namespace Amid

variable {run : Run} {k : Nat} {s : Session} {r : Running} {todo : List Running}

theorem foldl {f : Session → Running → Session}
    (hf : ∀ s r rest, r ∈ todo → Amid run k s (r :: rest) → Amid run k (f s r) rest)
    (h : Amid run k s todo) : Amid run k (todo.foldl f s) [] := by
  induction todo generalizing s with
  | nil => exact h
  | cons r todo ih =>
    refine ih (fun s r' rest hr' => hf s r' rest (List.mem_cons_of_mem r hr')) ?_
    exact hf s r todo List.mem_cons_self h

/-- The session has changed in a way that the books do not show. -/
theorem congr (h : Amid run k s todo) {s' : Session} (hrunning : s'.running = s.running)
    (hended : s'.ended = s.ended) (htimeout : s'.client.timeout = s.client.timeout)
    (hnow : s'.client.now = s.client.now) (hfailing : s'.client.failing = s.client.failing)
    (hdispatcher : s'.client.dispatcher = s.client.dispatcher) : Amid run k s' todo := by
  obtain ⟨hwithin, calls, results, room, hbooks⟩ := h
  refine ⟨⟨hnow.trans hwithin.now, hfailing.trans hwithin.failing, ?_⟩, calls, results, room,
    hbooks.congr (by rw [hrunning]) hended htimeout (by rw [hdispatcher])⟩
  rw [hdispatcher]
  exact hwithin.box

/-- The next call goes on, with the same waiter if it has one. It does not write again. -/
theorem keep (h : Amid run k s (r :: todo)) {phase : Phase}
    (hticket : phase.ticket? = r.phase.ticket?)
    (hgoing : ∀ p, p < k + 1 → run.Begun p r.name r.call →
      run.Going (k + 1) p r.name r.call r.phase → run.Going (k + 1) p r.name r.call phase)
    (hwriting : ∀ bs ticket, phase = .writing bs ticket →
      ∃ bs' ticket', r.phase = .writing bs' ticket') :
    Amid run k (s.keep { r with phase }) todo := by
  obtain ⟨hwithin, calls, results, room, hbooks⟩ := h
  obtain ⟨p, rest, hbooks⟩ := hbooks.focus
  obtain ⟨⟨hp, hbegun, hphase⟩, -⟩ := List.forall_mem_cons.mp hbooks.going
  refine ⟨⟨hwithin.now, hwithin.failing, fun r' hr' => ?_⟩, _, _, _,
    hbooks.keep hticket (hgoing p hp hbegun hphase) hwriting⟩
  exact hwithin.box r' (List.mem_cons_of_mem r hr')

theorem keep_same (h : Amid run k s (r :: todo)) : Amid run k (s.keep r) todo :=
  h.keep rfl (fun _ _ _ hgoing => hgoing) fun bs ticket hphase => ⟨bs, ticket, hphase⟩

theorem timeout (h : Amid run k s todo) : s.client.timeout = run.timeout := by
  obtain ⟨-, calls, results, room, hbooks⟩ := h
  exact hbooks.timeout

/-- No other call has the waiter of the next one. -/
theorem ticket_ne (h : Amid run k s (r :: todo)) {r' : Running} (hr' : r' ∈ todo) {t : Ticket}
    (ht : r'.phase.ticket? = some t) : r.phase.ticket? ≠ some t := by
  obtain ⟨-, calls, results, room, hbooks⟩ := h
  have hperm := hbooks.running.filterMap (·.phase.ticket?)
  rw [List.filterMap_map] at hperm
  have hnodup := hperm.nodup_iff.mp hbooks.tickets
  rw [List.filterMap_append] at hnodup
  have hnodup := hnodup.of_append_right
  intro heq
  rw [List.filterMap_cons_some (f := fun r : Running => r.phase.ticket?) heq,
    List.nodup_cons] at hnodup
  exact hnodup.1 (List.mem_filterMap.mpr ⟨r', hr', ht⟩)

/-- The waiter of the next call leaves, and the others do not notice. -/
theorem within_release (h : Amid run k s (r :: todo)) :
    Within run k (s.release r.phase.ticket?) todo where
  now := (s.now_release _).trans h.1.now
  failing := (s.failing_release _).trans h.1.failing
  box r' hr' t ht := by
    rw [Session.box_release, if_neg (h.ticket_ne hr' ht)]
    exact h.1.box r' (List.mem_cons_of_mem r hr') t ht

/-- The next call is given up. -/
theorem release (h : Amid run k s (r :: todo))
    (hlog : run.log[k]? = some (.event (.abort r.name))) :
    Amid run k (s.release r.phase.ticket?) todo := by
  obtain ⟨-, calls, results, room, hbooks⟩ := id h
  obtain ⟨p, rest, hbooks⟩ := hbooks.focus
  obtain ⟨⟨hp, hbegun, -⟩, -⟩ := List.forall_mem_cons.mp hbooks.going
  have hbefore : p < k := hbegun.lt hp (by simp [Run.Begun, hlog])
  obtain ⟨room', hbooks'⟩ := hbooks.leave ⟨k, hbefore, Nat.lt_succ_self k, hlog⟩
  exact ⟨h.within_release, _, _, _, hbooks'⟩

/-- The next call ends, for a reason that its place in the books shows. -/
theorem conclude {p : Nat} {calls : List (Nat × Running)} {results : List (Nat × Ended)}
    {room : WaitingRoom} (h : Amid run k s (r :: todo))
    (hbooks : Books run (k + 1) s (r :: todo) ((p, r) :: calls) results room)
    (hlog : ∀ name, run.log[k]? ≠ some (.event (.abort name)))
    {result : Except LinkError Outcome} (hends : run.Ends (k + 1) p r.name r.call result)
    (hcut : ∀ key q, r.call.key? = some key → p < q → q < k + 1 → run.CutsOff q (run.ticket p) →
      run.CutShort (k + 1) q p r.name r.call result) :
    Amid run k ((s.release r.phase.ticket?).finish r.name result) todo := by
  have hgiven : ¬ run.GivenUp (k + 1) p r.name := by
    rintro ⟨j, hp, hj, habort⟩
    rcases Nat.lt_succ_iff_lt_or_eq.mp hj with hj | rfl
    · exact hbooks.standing (p, r) List.mem_cons_self j hp (Nat.succ_lt_succ hj) habort
    · exact hlog _ habort
  obtain ⟨room', hbooks'⟩ := hbooks.conclude hgiven hends hcut
  obtain ⟨hnow, hfailing, hbox⟩ := h.within_release
  exact ⟨⟨hnow, hfailing, hbox⟩, _, _, _, hbooks'⟩

/-- The line is done with the frame of the next call. -/
theorem written {name : String} (h : Amid run k s (r :: todo))
    (hlog : run.log[k]? = some (.event (.flushed name))) (hname : r.name = name) {bs : Bytes}
    {ticket : Option Ticket} (hphase : r.phase = .writing bs ticket) :
    Amid run k (s.written r bs ticket) todo := by
  obtain ⟨-, calls, results, room, hbooks⟩ := id h
  obtain ⟨p, rest, hbooks⟩ := hbooks.focus
  obtain ⟨⟨hp, hbegun, hgoing⟩, -⟩ := List.forall_mem_cons.mp hbooks.going
  have hnone : ∀ name call, ¬ run.Begun k name call := by simp [Run.Begun, hlog]
  have hbefore : p < k := hbegun.lt hp hnone
  have hother : ∀ name, run.log[k]? ≠ some (.event (.abort name)) := by simp [hlog]
  rw [← hname] at hlog
  rw [hphase] at hgoing
  cases hfailing : s.client.failing with
  | some reason =>
    rw [Session.written_failing hfailing]
    rw [h.1.failing] at hfailing
    obtain ⟨f, hframe⟩ := hgoing.exists_frame
    have hconclude : Amid run k
        ((s.release r.phase.ticket?).finish r.name (.error (.sendFailed reason))) todo := by
      refine h.conclude hbooks hother
        (.unsent hframe hbefore (Nat.lt_succ_self k) hlog hfailing) fun key q _ hpq hq hcuts => ?_
      have hqk : q < k := by
        refine Nat.lt_of_le_of_ne (Nat.le_of_lt_succ hq) ?_
        rintro rfl
        rw [hcuts.ends] at hlog
        cases hlog
      refine .unwritten hqk (Nat.lt_succ_self k)
        ⟨⟨f, hframe⟩, hbefore, hlog, hfailing, fun w hw hwk => ?_⟩
      exact hbooks.unflushed (p, r) List.mem_cons_self bs ticket hphase w hw
        (Nat.succ_lt_succ hwk)
    rwa [hphase] at hconclude
  | none =>
    have hwrites : run.Writes k r.name := ⟨hlog, h.1.failing ▸ hfailing⟩
    have h' : Amid run k (s.wrote bs) (r :: todo) := h.congr rfl rfl rfl rfl rfl rfl
    cases ticket with
    | none =>
      rw [Session.written_none hfailing]
      cases hgoing with
      | sending hcall =>
        have hconclude : Amid run k
            (((s.wrote bs).release r.phase.ticket?).finish r.name (.ok .nothing)) todo := by
          refine h'.conclude (hbooks.congr rfl rfl rfl rfl) hother
            (.sent hcall hbefore (Nat.lt_succ_self k) hwrites) fun key q hkey => ?_
          rw [hcall] at hkey
          cases hkey
        rwa [hphase] at hconclude
    | some t =>
      rw [Session.written_some hfailing]
      refine h'.keep (by rw [hphase]; rfl) (fun p hp hbegun hgoing => ?_)
        fun _ _ hwaiting => by cases hwaiting
      rw [hphase] at hgoing
      cases hgoing with
      | asking hrequest =>
        rw [Client.waitOf, h.1.now, h.timeout]
        exact .waiting (.written hrequest (hbegun.lt hp hnone) hwrites) (Nat.lt_succ_self k)

theorem flushOne {name : String} (h : Amid run k s (r :: todo))
    (hlog : run.log[k]? = some (.event (.flushed name))) :
    Amid run k (Session.flushOne name s r) todo := by
  unfold Session.flushOne
  split
  · rename_i bs ticket hphase
    split
    · exact h.written hlog ‹_› hphase
    · exact h.keep_same
  · exact h.keep_same

/-- The next call looks whether its waiting is over. -/
theorem poll {who : String → Bool} (h : Amid run k s (r :: todo))
    (hlog : run.log[k]? = some (.look who)) (hwho : who r.name) : Amid run k (s.poll r) todo := by
  unfold Session.poll
  split
  · exact h.keep_same
  rename_i wait hphase
  obtain ⟨-, calls, results, room, hbooks⟩ := id h
  obtain ⟨p, rest, hbooks⟩ := hbooks.focus
  obtain ⟨⟨hp, hbegun, hgoing⟩, -⟩ := List.forall_mem_cons.mp hbooks.going
  obtain ⟨hmailed, -⟩ := List.forall_mem_cons.mp hbooks.mailed
  obtain ⟨key, hkey, hmailed⟩ := hmailed wait.ticket (by rw [hphase]; rfl)
  rw [hphase] at hgoing
  -- Whatever brought the call here did so before this move, in which calls only look.
  have hearlier : ∀ {q e}, q < k + 1 → run.log[q]? = some (.event e) → q < k := by
    intro q e hq he
    refine Nat.lt_of_le_of_ne (Nat.le_of_lt_succ hq) ?_
    rintro rfl
    rw [hlog] at he
    cases he
  cases hgoing with
  | @waiting w hwaits hw =>
    obtain ⟨e, he⟩ := hwaits.exists_event hbegun
    have hlooks : run.Looks p r.name r.call w k := ⟨hwaits, hearlier hw he, who, hlog, hwho⟩
    have hserved : s.client.dispatcher.box (run.ticket p) = room.box (run.ticket p) :=
      hbooks.serves.box_eq _
    have hbox : run.box k (run.ticket p) = room.box (run.ticket p) :=
      (h.1.box r List.mem_cons_self _ (by rw [hphase]; rfl)).symm.trans hserved
    have hother : ∀ name, run.log[k]? ≠ some (.event (.abort name)) := by simp [hlog]
    -- The end of the stream leaves nothing in the mailbox but that.
    have hleft : ∀ q, q < k + 1 → run.CutsOff q (run.ticket p) →
        room.box (run.ticket p) = some .closed ∨ room.box (run.ticket p) = none := by
      intro q hq hcuts
      rw [← hbox]
      exact hcuts.box_later (hearlier hq hcuts.ends)
    have hconclude {result : Except LinkError Outcome}
        (hends : run.Ends (k + 1) p r.name r.call result) :=
      h.conclude hbooks hother hends
    rw [hphase] at hconclude
    cases hmailed with
    | waits hline =>
      have hempty : room.box (run.ticket p) = some .empty :=
        (hbooks.orderly.waits_iff _).mp (WaitingRoom.mem_tickets.mpr ⟨key, hline⟩)
      rw [Client.outcome?_empty (hserved.trans hempty)]
      by_cases hdeadline : (run.upTo w).client.now + run.timeout ≤ s.client.now
      · rw [if_pos hdeadline]
        rw [h.1.now] at hdeadline
        refine hconclude
          (.timedOut ⟨w, k, Nat.lt_succ_self k, hlooks, hdeadline, fun j hj hjk => ?_⟩)
          fun _ q _ _ hq hcuts => ?_
        · exact Run.box_empty_of_le hjk (Run.ticket_lt hbegun hkey hj) (hbox.trans hempty)
        · exact absurd (hleft q hq hcuts) (by simp [hempty])
      · rw [if_neg hdeadline]
        exact h.keep_same
    | holds hholds hreply hpq hq hdelivers =>
      rw [Client.outcome?_holding (hserved.trans hholds)]
      obtain ⟨bs, hdata, -⟩ := hdelivers.arrives
      refine hconclude (.answered ⟨w, _, k, Nat.lt_succ_self k, hlooks, ?_, hpq,
        hearlier hq hdata, hdelivers, hbox.trans hholds⟩) fun _ q _ _ hq hcuts => ?_
      · rw [hreply]
        exact hkey
      · exact absurd (hleft q hq hcuts) (by simp [hholds])
    | closed hclosed hpq hq hcuts =>
      rw [Client.outcome?_closed (hserved.trans hclosed)]
      exact hconclude (.leftAlone ⟨w, _, k, Nat.lt_succ_self k, hlooks, hpq,
        hearlier hq hcuts.ends, hcuts, hbox.trans hclosed⟩) fun _ _ _ _ _ _ => .closed

theorem lookOne {who : String → Bool} (h : Amid run k s (r :: todo))
    (hlog : run.log[k]? = some (.look who)) : Amid run k (Session.lookOne who s r) todo := by
  unfold Session.lookOne
  split
  · exact h.poll hlog ‹_›
  · exact h.keep_same

end Amid

/-! ## The moves -/

namespace Books

variable {run : Run} {k : Nat} {calls : List (Nat × Running)} {results : List (Nat × Ended)}
  {room : WaitingRoom}

/-- Before a move that deals with some calls, these have to be dealt with. -/
theorem amid (h : Books run k (run.upTo k) [] calls results room)
    (hnone : ∀ name call, ¬ run.Begun k name call) {kept todo : List Running}
    (hperm : (run.upTo k).running.Perm (kept ++ todo)) :
    Amid run k { run.upTo k with running := kept } todo := by
  refine ⟨⟨rfl, rfl, fun _ _ _ _ => rfl⟩, calls, results, room, ?_⟩
  have hrunning := h.running
  rw [List.append_nil] at hrunning
  exact { h.mono hnone with running := hrunning.trans hperm }

/-- Mail for those who wait. The mailboxes of all others stay as they are. -/
theorem mail (h : Books run k (run.upTo k) [] calls results room)
    (hnone : ∀ name call, ¬ run.Begun k name call) {client : Client}
    {room' : WaitingRoom} (htimeout : client.timeout = (run.upTo k).client.timeout)
    (hserves : client.dispatcher.waiters.Serves room') (horderly : room'.Orderly)
    (hsettled : ∀ t, room.box t ≠ some .empty → room'.box t = room.box t)
    (hwaits : ∀ p key, p < k → run.ticket p ∈ room.line key → run.Mailed (k + 1) p key room') :
    Books run (k + 1) { run.upTo k with client } [] calls results room' :=
  { h.mono hnone with
    timeout := htimeout.trans h.timeout
    serves := hserves
    orderly := horderly
    owned := fun t ht => by
      apply h.owned t
      intro hnone
      rw [hsettled t (by simp [hnone]), hnone] at ht
      exact ht rfl
    mailed := fun c hc t ht => by
      obtain ⟨key, hkey, hmailed⟩ := h.mailed c hc t ht
      refine ⟨key, hkey, ?_⟩
      have hbox := hsettled (run.ticket c.1)
      cases hmailed with
      | waits hline => exact hwaits c.1 key (h.going c hc).1 hline
      | holds hholds hreply hp hq hdelivers =>
        exact .holds ((hbox (by simp [hholds])).trans hholds) hreply hp (Nat.lt_succ_of_lt hq)
          hdelivers
      | closed hclosed hp hq hcuts =>
        exact .closed ((hbox (by simp [hclosed])).trans hclosed) hp (Nat.lt_succ_of_lt hq) hcuts }

/-- Whoever stands in a line has an empty mailbox. -/
theorem box_of_line (h : Books run k (run.upTo k) [] calls results room) {t : Ticket} {key : Key}
    (hline : t ∈ room.line key) : run.box k t = some .empty :=
  (h.serves.box_eq t).trans
    ((h.orderly.waits_iff t).mp (WaitingRoom.mem_tickets.mpr ⟨key, hline⟩))

/-- Bytes come in. -/
theorem receive (h : Books run k (run.upTo k) [] calls results room) {bs : Bytes}
    (hlog : run.log[k]? = some (.event (.data bs))) :
    ∃ room', Books run (k + 1) (run.upTo (k + 1)) [] calls results room' := by
  have hstep : run.upTo (k + 1) =
      { run.upTo k with client := (run.upTo k).client.receive bs } := Run.upTo_succ hlog
  have hnone : ∀ name call, ¬ run.Begun k name call := by simp [Run.Begun, hlog]
  cases hreading : (run.upTo k).client.reading with
  | false =>
    rw [hstep, Client.receive, hreading]
    exact ⟨room, (h.mono hnone).congr rfl rfl rfl rfl⟩
  | true =>
    have hreceive := Client.receive_eq hreading bs
    have hserves := Dispatcher.serves_dispatchAll h.serves
      (Stream.goodFrames (Stream.push (run.upTo k).client.held bs).1)
    rw [hstep, hreceive]
    refine ⟨_, h.mail hnone rfl hserves (h.orderly.dispatchAll _)
      (fun t ht => WaitingRoom.box_dispatchAll_settled h.orderly ht _) fun p key hp hline => ?_⟩
    rcases WaitingRoom.line_dispatchAll h.orderly hline
      (Stream.goodFrames (Stream.push (run.upTo k).client.held bs).1) with
      hline' | ⟨f, hf, hkey, hbox⟩
    · exact .waits hline'
    · refine .holds hbox hkey hp (Nat.lt_succ_self k)
        ⟨⟨bs, hlog, hreading, hf⟩, h.box_of_line hline, ?_⟩
      rw [Run.box, hstep, hreceive]
      exact (hserves.box_eq _).trans hbox

/-- The stream ends. -/
theorem endReading (h : Books run k (run.upTo k) [] calls results room)
    (hlog : run.log[k]? = some (.event .ended)) :
    ∃ room', Books run (k + 1) (run.upTo (k + 1)) [] calls results room' := by
  have hstep : run.upTo (k + 1) =
      { run.upTo k with client := (run.upTo k).client.endReading } := Run.upTo_succ hlog
  have hnone : ∀ name call, ¬ run.Begun k name call := by simp [Run.Begun, hlog]
  rw [hstep, Client.endReading]
  cases hreading : (run.upTo k).client.reading with
  | false => exact ⟨room, (h.mono hnone).congr rfl rfl rfl rfl⟩
  | true =>
    refine ⟨_, h.mail hnone rfl h.serves.cancelAll h.orderly.cancelAll (fun t ht => ?_)
      fun p key hp hline => ?_⟩
    · exact if_neg fun hmem => ht ((h.orderly.waits_iff t).mp hmem)
    · exact .closed (if_pos (WaitingRoom.mem_tickets.mpr ⟨key, hline⟩)) hp (Nat.lt_succ_self k)
        ⟨hlog, hreading, h.box_of_line hline⟩

/-- The books of a session in which nothing has happened. -/
theorem start (run : Run) : Books run 0 (run.upTo 0) [] [] [] .empty where
  running := .refl _
  ended := rfl
  places := .nil
  tickets := .nil
  timeout := rfl
  serves := Waiters.serves_none
  orderly := WaitingRoom.orderly_empty
  owned _ ht := absurd rfl ht
  going _ hc := nomatch hc
  mailed _ hc := nomatch hc
  standing _ hc := nomatch hc
  unflushed _ hc := nomatch hc
  ends _ he := nomatch he
  cutOff _ he := nomatch he
  complete _ _ _ hp := absurd hp (Nat.not_lt_zero _)

end Books

/-- There are books of every run, after every move. -/
theorem exists_books (run : Run) (k : Nat) :
    ∃ calls results room, Books run k (run.upTo k) [] calls results room := by
  induction k with
  | zero => exact ⟨[], [], .empty, .start run⟩
  | succ k ih =>
    obtain ⟨calls, results, room, h⟩ := ih
    have hamid {s : Session} (h : Amid run k s []) :
        ∃ calls results room, Books run (k + 1) s [] calls results room := h.2
    by_cases hbegun : ∃ name call, run.Begun k name call
    · obtain ⟨name, call, hbegun⟩ := hbegun
      rw [Run.upTo_succ hbegun]
      exact h.begin hbegun
    have hnone : ∀ name call, ¬ run.Begun k name call := fun name call hk => hbegun ⟨name, call, hk⟩
    cases hlog : run.log[k]? with
    | none =>
      rw [Run.upTo_succ_of_none hlog]
      exact ⟨calls, results, room, h.mono hnone⟩
    | some m =>
      cases m with
      | receipt place =>
        rw [Run.upTo_succ hlog]
        exact ⟨calls, results, room, h.mono hnone⟩
      | look who =>
        rw [Run.upTo_succ hlog]
        exact hamid (Amid.foldl (fun s r rest _ h => h.lookOne hlog)
          (h.amid hnone (List.Perm.refl _)))
      | event e =>
        cases e with
        | start name call => exact absurd hlog (hnone name call)
        | data bs =>
          obtain ⟨room', h'⟩ := h.receive hlog
          exact ⟨calls, results, room', h'⟩
        | ended =>
          obtain ⟨room', h'⟩ := h.endReading hlog
          exact ⟨calls, results, room', h'⟩
        | flushed name =>
          rw [Run.upTo_succ hlog]
          exact hamid (Amid.foldl (fun s r rest _ h => h.flushOne hlog)
            (h.amid hnone (List.Perm.refl _)))
        | abort name =>
          have hperm := List.filter_append_perm (·.name = name) (run.upTo k).running
          rw [Run.upTo_succ hlog, Session.move, Session.apply, Session.abort,
            List.partition_eq_filter_filter]
          refine hamid (Amid.foldl (fun s r rest hr h => h.release ?_)
            (h.amid hnone (hperm.symm.trans List.perm_append_comm)))
          have hname : r.name = name := by simpa using (List.mem_filter.mp hr).2
          rw [hname]
          exact hlog
        | fault | connected _ | failing _ | advance _ =>
          rw [Run.upTo_succ hlog]
          exact ⟨calls, results, room, (h.mono hnone).congr rfl rfl rfl rfl⟩

end ZigbeeGateway.Radio
