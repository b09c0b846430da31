-- The books of a run. They tell of every call that was begun whether it goes on, what result it has,
-- or that it was given up, and of every waiter whose it is. Each step of a move keeps them.
import ZigbeeGateway.Proofs.Radio.Accounts
namespace ZigbeeGateway.Radio

/-! ## Calls and their waiters -/

/-- The waiters of calls. -/
def ticketsOf (calls : List (Nat × Running)) : List Ticket :=
  calls.filterMap (·.2.phase.ticket?)

theorem ticketsOf_cons (c : Nat × Running) (calls : List (Nat × Running)) :
    ticketsOf (c :: calls) = c.2.phase.ticket?.toList ++ ticketsOf calls := by
  unfold ticketsOf
  cases h : c.2.phase.ticket? with
  | none => exact List.filterMap_cons_none h
  | some t => exact List.filterMap_cons_some h

theorem mem_ticketsOf {calls : List (Nat × Running)} {t : Ticket} :
    t ∈ ticketsOf calls ↔ ∃ c ∈ calls, c.2.phase.ticket? = some t := List.mem_filterMap

namespace Session

@[simp] theorem now_release (s : Session) (ticket : Option Ticket) :
    (s.release ticket).client.now = s.client.now := by cases ticket <;> rfl

@[simp] theorem failing_release (s : Session) (ticket : Option Ticket) :
    (s.release ticket).client.failing = s.client.failing := by cases ticket <;> rfl

@[simp] theorem timeout_release (s : Session) (ticket : Option Ticket) :
    (s.release ticket).client.timeout = s.client.timeout := by cases ticket <;> rfl

end Session

/-- The calls that go on before the move `k`, each with the place where it was begun, and the
waiters: every waiter belongs to a call, and what is in its mailbox has come in since that was
begun. -/
structure Lodged (run : Run) (k : Nat) (d : Dispatcher) (calls : List (Nat × Running))
    (room : WaitingRoom) : Prop where
  tickets : (ticketsOf calls).Nodup
  serves : d.waiters.Serves room
  orderly : room.Orderly
  owned : ∀ t, room.box t ≠ none → t ∈ ticketsOf calls
  going : ∀ c ∈ calls, c.1 < k ∧ run.Begun c.1 c.2.name c.2.call ∧
    run.Going k c.1 c.2.name c.2.call c.2.phase
  mailed : ∀ c ∈ calls, ∀ t, c.2.phase.ticket? = some t →
    ∃ key, c.2.call.key? = some key ∧ run.Mailed k c.1 key room

namespace Lodged

variable {run : Run} {k p : Nat} {d : Dispatcher} {r : Running} {calls : List (Nat × Running)}
  {room : WaitingRoom}

theorem mono (h : Lodged run k d calls room) : Lodged run (k + 1) d calls room :=
  { h with
    going := fun c hc =>
      ⟨Nat.lt_succ_of_lt (h.going c hc).1, (h.going c hc).2.1, (h.going c hc).2.2.mono⟩
    mailed := fun c hc t ht => by
      obtain ⟨key, hkey, hmailed⟩ := h.mailed c hc t ht
      exact ⟨key, hkey, hmailed.mono⟩ }

theorem perm {calls' : List (Nat × Running)} (h : Lodged run k d calls room)
    (hperm : calls.Perm calls') : Lodged run k d calls' room where
  tickets := (hperm.filterMap _).nodup_iff.mp h.tickets
  serves := h.serves
  orderly := h.orderly
  owned t ht := (hperm.filterMap _).mem_iff.mp (h.owned t ht)
  going c hc := h.going c (hperm.mem_iff.mpr hc)
  mailed c hc := h.mailed c (hperm.mem_iff.mpr hc)

/-- The call in front goes on, with the same waiter if it has one. -/
theorem keep (h : Lodged run k d ((p, r) :: calls) room) {phase : Phase}
    (hticket : phase.ticket? = r.phase.ticket?) (hgoing : run.Going k p r.name r.call phase) :
    Lodged run k d ((p, { r with phase }) :: calls) room where
  tickets := by
    simpa only [ticketsOf_cons, hticket] using h.tickets
  serves := h.serves
  orderly := h.orderly
  owned t ht := by
    simpa only [ticketsOf_cons, hticket] using h.owned t ht
  going := by
    obtain ⟨hfront, hrest⟩ := List.forall_mem_cons.mp h.going
    exact List.forall_mem_cons.mpr ⟨⟨hfront.1, hfront.2.1, hgoing⟩, hrest⟩
  mailed := by
    obtain ⟨hfront, hrest⟩ := List.forall_mem_cons.mp h.mailed
    exact List.forall_mem_cons.mpr ⟨fun t ht => hfront t (hticket ▸ ht), hrest⟩

/-- The call in front leaves, and nobody has its waiter any more. -/
theorem leave {s : Session} (h : Lodged run k s.client.dispatcher ((p, r) :: calls) room) :
    ∃ room', Lodged run k (s.release r.phase.ticket?).client.dispatcher calls room' := by
  obtain ⟨-, hgoing⟩ := List.forall_mem_cons.mp h.going
  obtain ⟨-, hmailed⟩ := List.forall_mem_cons.mp h.mailed
  have htickets := h.tickets
  have howned := h.owned
  rw [ticketsOf_cons] at htickets
  simp only [ticketsOf_cons] at howned
  cases ht : r.phase.ticket? with
  | none =>
    rw [ht] at htickets
    simp only [ht] at howned
    exact ⟨room, htickets, h.serves, h.orderly, howned, hgoing, hmailed⟩
  | some t =>
    rw [ht, Option.toList_some, List.singleton_append, List.nodup_cons] at htickets
    simp only [ht, Option.toList_some, List.singleton_append, List.mem_cons] at howned
    refine ⟨room.leave t none, htickets.2, h.serves.drop t,
      h.orderly.leave (fun hne => absurd rfl hne) (by simp), ?_, hgoing, ?_⟩
    · intro u hu
      by_cases hut : u = t
      · subst hut
        simp [WaitingRoom.leave] at hu
      · rw [WaitingRoom.box_leave_of_ne hut] at hu
        exact (howned u hu).resolve_left hut
    · intro c hc u hu
      obtain ⟨key, hkey, hm⟩ := hmailed c hc u hu
      refine ⟨key, hkey, hm.leave ?_ none⟩
      rintro rfl
      rw [(hgoing c hc).2.2.ticket?_eq hu] at hu
      exact htickets.1 (mem_ticketsOf.mpr ⟨c, hc, hu⟩)

theorem mem_ticketsOf_iff (h : Lodged run k d calls room) (t : Ticket) :
    t ∈ ticketsOf calls ↔ d.box t ≠ none := by
  have hbox : d.box t = room.box t := h.serves.box_eq t
  rw [hbox]
  refine ⟨fun ht => ?_, h.owned t⟩
  obtain ⟨c, hc, htc⟩ := mem_ticketsOf.mp ht
  obtain ⟨key, -, hmailed⟩ := h.mailed c hc t htc
  rw [(h.going c hc).2.2.ticket?_eq htc]
  cases hmailed with
  | waits hline =>
    simp [(h.orderly.waits_iff _).mp (WaitingRoom.mem_tickets.mpr ⟨key, hline⟩)]
  | holds hholds => simp [hholds]
  | closed hclosed => simp [hclosed]

/-- A call that does not go on has no mailbox. -/
theorem box_of_not_mem (h : Lodged run k d calls room) {name : String} {call : Call} {key : Key}
    (hbegun : run.Begun p name call) (hkey : call.key? = some key) (hout : p ∉ calls.map (·.1)) :
    d.box (run.ticket p) = none := by
  by_contra hbox
  obtain ⟨c, hc, ht⟩ := mem_ticketsOf.mp ((h.mem_ticketsOf_iff _).mpr hbox)
  obtain ⟨-, hbegun', hgoing⟩ := h.going c hc
  obtain ⟨key', hkey', -⟩ := h.mailed c hc _ ht
  have hsame := hgoing.ticket?_eq ht
  rcases Nat.lt_trichotomy p c.1 with hlt | heq | hlt
  · exact Nat.ne_of_lt (Run.ticket_lt hbegun hkey hlt) hsame
  · exact hout (List.mem_map.mpr ⟨c, hc, heq.symm⟩)
  · exact Nat.ne_of_gt (Run.ticket_lt hbegun' hkey' hlt) hsame

end Lodged

/-! ## The books -/

/-- The books of a run before the move `k`: the calls that have not ended and the results, each
with the place where the call was begun. The last move may be going on, with some calls of the
session still to deal with, so `standing` and `unflushed` leave it out. -/
structure Books (run : Run) (k : Nat) (s : Session) (todo : List Running)
    (calls : List (Nat × Running)) (results : List (Nat × Ended)) (room : WaitingRoom) : Prop
    extends Lodged run k s.client.dispatcher calls room where
  running : (calls.map (·.2)).Perm (s.running ++ todo)
  ended : results.map (·.2) = s.ended
  places : (calls.map (·.1) ++ results.map (·.1)).Nodup
  timeout : s.client.timeout = run.timeout
  standing : ∀ c ∈ calls, ∀ j, c.1 < j → j + 1 < k →
    run.log[j]? ≠ some (.event (.abort c.2.name))
  unflushed : ∀ c ∈ calls, ∀ bs ticket, c.2.phase = .writing bs ticket → ∀ j, c.1 < j → j + 1 < k →
    run.log[j]? ≠ some (.event (.flushed c.2.name))
  ends : ∀ e ∈ results, e.1 < k ∧ ∃ call, run.Begun e.1 e.2.name call ∧
    ∃ d ≤ k, ¬ run.GivenUp d e.1 e.2.name ∧ run.Ends d e.1 e.2.name call e.2.result
  cutOff : ∀ e ∈ results, ∀ call key q, run.Begun e.1 e.2.name call → call.key? = some key →
    e.1 < q → q < k → run.CutsOff q (run.ticket e.1) →
    run.CutShort k q e.1 e.2.name call e.2.result
  complete : ∀ p name call, p < k → run.Begun p name call →
    p ∈ calls.map (·.1) ++ results.map (·.1) ∨ run.GivenUp k p name

namespace Books

variable {run : Run} {k p : Nat} {s : Session} {r : Running} {todo : List Running}
  {calls : List (Nat × Running)} {results : List (Nat × Ended)} {room : WaitingRoom}

/-! ### From one move to the next -/

section Between

variable (h : Books run k (run.upTo k) [] calls results room)
include h

theorem mem_running {c : Nat × Running} (hc : c ∈ calls) : c.2 ∈ (run.upTo k).running := by
  have hmem := h.running.mem_iff.mp (List.mem_map_of_mem hc)
  rwa [List.append_nil] at hmem

/-- Nobody who has been given up is in the books. -/
theorem standing_succ : ∀ c ∈ calls, ∀ j, c.1 < j → j < k →
    run.log[j]? ≠ some (.event (.abort c.2.name)) := by
  intro c hc j hp hj habort
  rcases Nat.lt_or_eq_of_le (Nat.succ_le_of_lt hj) with hj | rfl
  · exact h.standing c hc j hp hj habort
  · have hrunning := h.mem_running hc
    rw [Run.upTo_succ habort] at hrunning
    exact Session.name_ne_of_abort hrunning rfl

/-- The line has not been done with a frame that it still writes. -/
theorem unflushed_succ : ∀ c ∈ calls, ∀ bs ticket, c.2.phase = .writing bs ticket →
    ∀ j, c.1 < j → j < k → run.log[j]? ≠ some (.event (.flushed c.2.name)) := by
  intro c hc bs ticket hphase j hp hj hflushed
  rcases Nat.lt_or_eq_of_le (Nat.succ_le_of_lt hj) with hj | rfl
  · exact h.unflushed c hc bs ticket hphase j hp hj hflushed
  · have hrunning := h.mem_running hc
    rw [Run.upTo_succ hflushed] at hrunning
    obtain ⟨wait, hwait⟩ := Session.flushed_flush _ _ _ hrunning rfl
    rw [hphase] at hwait
    cases hwait

theorem ends_succ : ∀ e ∈ results, e.1 < k + 1 ∧ ∃ call, run.Begun e.1 e.2.name call ∧
    ∃ d ≤ k + 1, ¬ run.GivenUp d e.1 e.2.name ∧ run.Ends d e.1 e.2.name call e.2.result := by
  intro e he
  obtain ⟨hp, call, hbegun, d, hd, hends⟩ := h.ends e he
  exact ⟨Nat.lt_succ_of_lt hp, call, hbegun, d, Nat.le_succ_of_le hd, hends⟩

/-- Whoever has a result has no mailbox, so the end of the stream does not cut it off. -/
theorem cutOff_succ : ∀ e ∈ results, ∀ call key q, run.Begun e.1 e.2.name call →
    call.key? = some key → e.1 < q → q < k + 1 → run.CutsOff q (run.ticket e.1) →
    run.CutShort (k + 1) q e.1 e.2.name call e.2.result := by
  intro e he call key q hbegun hkey hp hq hcuts
  rcases Nat.lt_succ_iff_lt_or_eq.mp hq with hq | rfl
  · exact (h.cutOff e he call key q hbegun hkey hp hq hcuts).mono (Nat.le_succ k)
  · have hout : e.1 ∉ calls.map (·.1) := fun hmem =>
      List.disjoint_of_nodup_append h.places hmem (List.mem_map_of_mem he)
    have hbox := hcuts.before
    rw [Run.box, h.box_of_not_mem hbegun hkey hout] at hbox
    cases hbox

theorem complete_succ {calls' : List (Nat × Running)} {results' : List (Nat × Ended)}
    (hkeep : ∀ p ∈ calls.map (·.1) ++ results.map (·.1),
      p ∈ calls'.map (·.1) ++ results'.map (·.1))
    (hnew : ∀ name call, run.Begun k name call → k ∈ calls'.map (·.1) ++ results'.map (·.1)) :
    ∀ p name call, p < k + 1 → run.Begun p name call →
      p ∈ calls'.map (·.1) ++ results'.map (·.1) ∨ run.GivenUp (k + 1) p name := by
  intro p name call hp hbegun
  rcases Nat.lt_succ_iff_lt_or_eq.mp hp with hp | rfl
  · exact (h.complete p name call hp hbegun).imp (hkeep p) fun hgiven =>
      hgiven.mono (Nat.le_succ k)
  · exact .inl (hnew name call hbegun)

/-- A move with which no call begins leaves the books as they are. -/
theorem mono (hnone : ∀ name call, ¬ run.Begun k name call) :
    Books run (k + 1) (run.upTo k) [] calls results room :=
  { h.toLodged.mono with
    running := h.running
    ended := h.ended
    places := h.places
    timeout := h.timeout
    standing := fun c hc j hp hj => h.standing_succ c hc j hp (Nat.lt_of_succ_lt_succ hj)
    unflushed := fun c hc bs ticket hphase j hp hj =>
      h.unflushed_succ c hc bs ticket hphase j hp (Nat.lt_of_succ_lt_succ hj)
    ends := h.ends_succ
    cutOff := h.cutOff_succ
    complete := h.complete_succ (fun _ hp => hp) fun name call hbegun =>
      absurd hbegun (hnone name call) }

end Between

/-! ### Within a move -/

theorem perm {calls' : List (Nat × Running)} (h : Books run k s todo calls results room)
    (hperm : calls.Perm calls') : Books run k s todo calls' results room :=
  { h.toLodged.perm hperm with
    running := (hperm.map _).symm.trans h.running
    ended := h.ended
    places := ((hperm.map _).append_right _).nodup_iff.mp h.places
    timeout := h.timeout
    standing := fun c hc => h.standing c (hperm.mem_iff.mpr hc)
    unflushed := fun c hc => h.unflushed c (hperm.mem_iff.mpr hc)
    ends := h.ends
    cutOff := h.cutOff
    complete := fun p name call hp hbegun =>
      (h.complete p name call hp hbegun).imp_left ((hperm.map _).append_right _).mem_iff.mp }

/-- The next call to deal with comes to the front of the books. -/
theorem focus (h : Books run k s (r :: todo) calls results room) :
    ∃ p rest, Books run k s (r :: todo) ((p, r) :: rest) results room := by
  have hmem : r ∈ calls.map (·.2) := h.running.mem_iff.mpr (by simp)
  obtain ⟨⟨p, _⟩, hc, rfl⟩ := List.mem_map.mp hmem
  obtain ⟨front, back, rfl⟩ := List.append_of_mem hc
  exact ⟨p, front ++ back, h.perm List.perm_middle⟩

/-- The call in front goes on, with the same waiter if it has one. It does not write again. -/
theorem keep (h : Books run k s (r :: todo) ((p, r) :: calls) results room) {phase : Phase}
    (hticket : phase.ticket? = r.phase.ticket?) (hgoing : run.Going k p r.name r.call phase)
    (hwriting : ∀ bs ticket, phase = .writing bs ticket →
      ∃ bs' ticket', r.phase = .writing bs' ticket') :
    Books run k (s.keep { r with phase }) todo ((p, { r with phase }) :: calls) results room :=
  { h.toLodged.keep hticket hgoing with
    running := by
      have hrest := (List.perm_cons r).mp (h.running.trans List.perm_middle)
      refine ((List.perm_cons _).mpr hrest).trans ?_
      rw [Session.keep, List.append_assoc]
      exact List.perm_middle.symm
    ended := h.ended
    places := h.places
    timeout := h.timeout
    standing := by
      obtain ⟨hfront, hrest⟩ := List.forall_mem_cons.mp h.standing
      exact List.forall_mem_cons.mpr ⟨hfront, hrest⟩
    unflushed := by
      obtain ⟨hfront, hrest⟩ := List.forall_mem_cons.mp h.unflushed
      refine List.forall_mem_cons.mpr ⟨fun bs ticket hphase => ?_, hrest⟩
      obtain ⟨bs', ticket', hphase'⟩ := hwriting bs ticket hphase
      exact hfront bs' ticket' hphase'
    ends := h.ends
    cutOff := h.cutOff
    complete := h.complete }

/-- The call in front, which has been given up, leaves the books. -/
theorem leave (h : Books run k s (r :: todo) ((p, r) :: calls) results room)
    (hgiven : run.GivenUp k p r.name) :
    ∃ room', Books run k (s.release r.phase.ticket?) todo calls results room' := by
  obtain ⟨room', hlodged⟩ := h.toLodged.leave
  obtain ⟨⟨-, hbegun, -⟩, -⟩ := List.forall_mem_cons.mp h.going
  exact ⟨room', {
    hlodged with
    running := (List.perm_cons r).mp (h.running.trans List.perm_middle)
    ended := h.ended
    places := (List.nodup_cons.mp h.places).2
    timeout := (s.timeout_release _).trans h.timeout
    standing := (List.forall_mem_cons.mp h.standing).2
    unflushed := (List.forall_mem_cons.mp h.unflushed).2
    ends := h.ends
    cutOff := h.cutOff
    complete := fun p' name call hp' hbegun' => by
      rcases h.complete p' name call hp' hbegun' with hmem | hgiven'
      · rcases List.mem_cons.mp hmem with rfl | hmem
        · obtain ⟨rfl, -⟩ := hbegun.unique hbegun'
          exact .inr hgiven
        · exact .inl hmem
      · exact .inr hgiven' }⟩

/-- The call in front ends. -/
theorem conclude (h : Books run k s (r :: todo) ((p, r) :: calls) results room)
    {result : Except LinkError Outcome} (hgiven : ¬ run.GivenUp k p r.name)
    (hends : run.Ends k p r.name r.call result)
    (hcut : ∀ key q, r.call.key? = some key → p < q → q < k → run.CutsOff q (run.ticket p) →
      run.CutShort k q p r.name r.call result) :
    ∃ room', Books run k ((s.release r.phase.ticket?).finish r.name result) todo calls
      ((p, ⟨r.name, result⟩) :: results) room' := by
  obtain ⟨room', hlodged⟩ := h.toLodged.leave
  obtain ⟨⟨hp, hbegun, -⟩, -⟩ := List.forall_mem_cons.mp h.going
  have hperm : (p :: (calls.map (·.1) ++ results.map (·.1))).Perm
      (calls.map (·.1) ++ p :: results.map (·.1)) :=
    List.perm_middle.symm
  exact ⟨room', {
    hlodged with
    running := (List.perm_cons r).mp (h.running.trans List.perm_middle)
    ended := congrArg _ h.ended
    places := hperm.nodup_iff.mp h.places
    timeout := (s.timeout_release _).trans h.timeout
    standing := (List.forall_mem_cons.mp h.standing).2
    unflushed := (List.forall_mem_cons.mp h.unflushed).2
    ends := List.forall_mem_cons.mpr
      ⟨⟨hp, r.call, hbegun, k, Nat.le_refl k, hgiven, hends⟩, h.ends⟩
    cutOff := by
      refine List.forall_mem_cons.mpr ⟨fun call key q hcall hkey => ?_, h.cutOff⟩
      obtain ⟨-, rfl⟩ := hbegun.unique hcall
      exact hcut key q hkey
    complete := fun p' name call hp' hbegun' =>
      (h.complete p' name call hp' hbegun').imp_left hperm.mem_iff.mp }⟩

/-- The session has changed in a way that the books do not show. -/
theorem congr (h : Books run k s todo calls results room) {s' : Session} {todo' : List Running}
    (hrunning : s.running ++ todo = s'.running ++ todo') (hended : s'.ended = s.ended)
    (htimeout : s'.client.timeout = s.client.timeout)
    (hwaiters : s'.client.dispatcher.waiters = s.client.dispatcher.waiters) :
    Books run k s' todo' calls results room :=
  { h with
    running := hrunning ▸ h.running
    ended := h.ended.trans hended.symm
    timeout := htimeout.trans h.timeout
    serves := hwaiters ▸ h.serves }

end Books

end ZigbeeGateway.Radio
