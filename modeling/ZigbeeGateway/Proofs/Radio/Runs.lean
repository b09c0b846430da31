-- Runs of a session. Things happen one at a time and in any order, and a call may look late whether
-- its waiting is over. A mailbox is filled once at most, and what is in it stays there until its
-- owner leaves.
import ZigbeeGateway.Proofs.Radio.Chunks
import ZigbeeGateway.Proofs.Radio.FirstCome
namespace ZigbeeGateway.Radio

/-! ## Mailboxes that are not empty -/

namespace WaitingRoom

theorem box_leave_of_ne {t u : Ticket} (h : u ≠ t) (room : WaitingRoom) (box : Option Mailbox) :
    (room.leave t box).box u = room.box u := Function.update_of_ne h ..

theorem box_register_of_ne {room : WaitingRoom} {t : Ticket} (h : t ≠ room.next) (key : Key) :
    (room.register key).2.box t = room.box t := Function.update_of_ne h ..

/-- If nobody takes anything out of its mailbox, one that is not empty stays as it is until its
owner leaves. -/
theorem box_apply_settled {room : WaitingRoom} (h : room.Orderly) {t : Ticket} (ht : t < room.next)
    (hbox : room.box t ≠ some .empty) {op : Operation} (hop : ∀ u, op ≠ .take u) :
    (room.apply op).2.box t = room.box t ∨ (room.apply op).2.box t = none := by
  have hout : t ∉ room.tickets := fun hm => hbox ((h.waits_iff t).mp hm)
  cases op with
  | register key => simp [apply, register, Nat.ne_of_lt ht]
  | drop u => by_cases hut : t = u <;> simp [apply, leave, hut]
  | take u => exact absurd rfl (hop u)
  | dispatch f =>
    simp only [apply, dispatch]
    split
    · exact .inl rfl
    · rename_i u rest hline
      have hut : t ≠ u := by
        rintro rfl
        exact hout (mem_tickets.mpr ⟨_, hline ▸ List.mem_cons_self⟩)
      simp [leave, hut]
  | cancelAll => simp [apply, cancelAll, hout]

theorem box_after_settled {room : WaitingRoom} (h : room.Orderly) {t : Ticket} (ht : t < room.next)
    (hbox : room.box t ≠ some .empty) {log : List Operation} (hlog : ∀ u, .take u ∉ log) :
    (room.after log).box t = room.box t ∨ (room.after log).box t = none := by
  induction log generalizing room with
  | nil => exact .inl rfl
  | cons op log ih =>
    have hop : ∀ u, op ≠ .take u := fun u heq => hlog u (heq ▸ List.mem_cons_self)
    have hstep := box_apply_settled h ht hbox hop
    have hbox' : (room.apply op).2.box t ≠ some .empty := by
      rcases hstep with hstep | hstep <;> rw [hstep]
      · exact hbox
      · exact fun heq => nomatch heq
    have hrest := ih (h.apply op) (Nat.lt_of_lt_of_le ht (next_apply_le room op)) hbox'
      fun u hu => hlog u (List.mem_cons_of_mem op hu)
    rw [after, List.foldl_cons, ← after]
    rcases hrest with hrest | hrest
    · rw [hrest]
      exact hstep
    · exact .inr hrest

/-- Whoever has come later stands further back. -/
def InTurn (room : WaitingRoom) : Prop := room.tickets.Pairwise (· < ·)

theorem InTurn.leave {room : WaitingRoom} (h : room.InTurn) (t : Ticket) (box : Option Mailbox) :
    (room.leave t box).InTurn := by
  rw [InTurn, tickets_leave]
  exact List.Pairwise.filter _ h

theorem InTurn.apply {room : WaitingRoom} (h : room.InTurn) (hroom : room.Orderly)
    (op : Operation) : (room.apply op).2.InTurn := by
  cases op with
  | register key =>
    have hlast : ∀ t ∈ room.tickets, t < room.next := fun t ht => hroom.lt_next_of_mem ht
    have htickets : (room.register key).2.tickets = room.tickets ++ [room.next] := by
      simp [tickets, register]
    change (room.register key).2.tickets.Pairwise (· < ·)
    rw [htickets, List.pairwise_append]
    exact ⟨h, List.pairwise_singleton .., by simpa using hlast⟩
  | drop t => exact h.leave t none
  | take t =>
    simp only [WaitingRoom.apply, take]
    split
    · exact h.leave t _
    · exact h
  | dispatch f =>
    simp only [WaitingRoom.apply, dispatch]
    split
    · exact h
    · exact h.leave ..
  | cancelAll => exact .nil

theorem InTurn.after {room : WaitingRoom} (h : room.InTurn) (hroom : room.Orderly)
    (log : List Operation) : (room.after log).InTurn := by
  induction log generalizing room with
  | nil => exact h
  | cons op log ih => exact ih (h.apply hroom op) (hroom.apply op)

/-- Nobody in a line has come before the front of it. -/
theorem InTurn.front_le {room : WaitingRoom} (h : room.InTurn) {key : Key} {t u : Ticket}
    {rest : List Ticket} (hline : room.line key = t :: rest) (hu : u ∈ room.line key) : t ≤ u := by
  have hsorted : (room.line key).Pairwise (· < ·) :=
    List.Pairwise.sublist (List.filter_sublist.map _) h
  rw [hline] at hu hsorted
  rcases List.mem_cons.mp hu with rfl | hu
  · exact Nat.le_refl _
  · exact Nat.le_of_lt (List.rel_of_pairwise_cons hsorted hu)

theorem next_after_le (room : WaitingRoom) (log : List Operation) :
    room.next ≤ (room.after log).next := by
  induction log generalizing room with
  | nil => exact Nat.le_refl _
  | cons op log ih => exact Nat.le_trans (next_apply_le room op) (ih _)

end WaitingRoom

/-! ## Moves -/

/-- What happens in a run of a session, one thing at a time. -/
inductive Move where
  | event (e : Event)
  /-- The calls of some names look whether their waiting is over. -/
  | look (who : String → Bool)
  /-- The frame of the call that was begun at a place of the log has come to the radio. The session
  does not notice. -/
  | receipt (place : Nat)

namespace Session

/-- A call ends if it is among those who look and its waiting is over. -/
def lookOne (who : String → Bool) (s : Session) (r : Running) : Session :=
  if who r.name then s.poll r else s.keep r

/-- The calls of some names end if their waiting is over. -/
def look (s : Session) (who : String → Bool) : Session :=
  s.running.foldl (lookOne who) { s with running := [] }

/-- What a move changes. -/
def move (s : Session) : Move → Session
  | .event e => s.apply e
  | .look who => s.look who
  | .receipt _ => s

/-- An event and all that follows from it are two moves: in the second one everybody looks. -/
theorem step_eq (s : Session) (e : Event) :
    s.step e = (s.move (.event e)).move (.look fun _ => true) := rfl

end Session

/-- What happened to a session. -/
structure Run where
  timeout : Nat
  log : List Move

namespace Run

variable (run : Run)

/-- The session after the first moves. -/
def upTo (k : Nat) : Session := (run.log.take k).foldl Session.move (.start run.timeout)

/-- A mailbox after the first moves. -/
def box (k : Nat) (t : Ticket) : Option Mailbox := (run.upTo k).client.dispatcher.box t

/-- The number of the next waiter after the first moves. -/
def ticket (k : Nat) : Ticket := (run.upTo k).client.dispatcher.waiters.next

variable {run}

theorem upTo_succ {k : Nat} {m : Move} (h : run.log[k]? = some m) :
    run.upTo (k + 1) = (run.upTo k).move m := by
  rw [upTo, List.take_add_one, h, List.foldl_append]
  rfl

theorem upTo_succ_of_none {k : Nat} (h : run.log[k]? = none) : run.upTo (k + 1) = run.upTo k := by
  rw [upTo, List.take_add_one, h]
  simp [upTo]

/-- The run in which everybody looks after each event. -/
def ofEvents (timeout : Nat) (events : List Event) : Run :=
  ⟨timeout, events.flatMap fun e => [.event e, .look fun _ => true]⟩

theorem upTo_ofEvents (timeout : Nat) (events : List Event) :
    (ofEvents timeout events).upTo (2 * events.length) =
      events.foldl Session.step (.start timeout) := by
  have hlength : (ofEvents timeout events).log.length = 2 * events.length := by
    simp [ofEvents, List.length_flatMap, Nat.mul_comm]
  rw [upTo, ← hlength, List.take_length, ofEvents, List.foldl_flatMap]
  rfl

end Run

/-! ## What a session does with its dispatcher -/

namespace Dispatcher

/-- Operations lead from one dispatcher to another. Nobody takes anything out of its mailbox. -/
def Leads (d d' : Dispatcher) : Prop :=
  ∃ log : List Operation, (∀ t, .take t ∉ log) ∧ d' = d.after log

namespace Leads

variable {d d' d'' : Dispatcher}

theorem refl (d : Dispatcher) : d.Leads d := ⟨[], by simp, rfl⟩

theorem trans (h : d.Leads d') (h' : d'.Leads d'') : d.Leads d'' := by
  obtain ⟨log, hlog, rfl⟩ := h
  obtain ⟨log', hlog', rfl⟩ := h'
  refine ⟨log ++ log', fun t ht => ?_, ?_⟩
  · rcases List.mem_append.mp ht with ht | ht
    · exact hlog t ht
    · exact hlog' t ht
  · rw [after, after, after, List.foldl_append]

theorem apply (d : Dispatcher) (op : Operation) (hop : ∀ t, op ≠ .take t) :
    d.Leads (d.apply op).2 := by
  refine ⟨[op], fun t ht => ?_, rfl⟩
  rw [List.mem_singleton] at ht
  exact hop t ht.symm

theorem dispatchAll (d : Dispatcher) (frames : List Frame) : d.Leads (d.dispatchAll frames) := by
  induction frames generalizing d with
  | nil => exact refl d
  | cons f frames ih =>
    exact (apply d (.dispatch f) fun _ heq => nomatch heq).trans (ih (d.dispatch f).2)

variable {room : WaitingRoom}

theorem serves (h : d.Leads d') (hserves : d.waiters.Serves room) (hroom : room.Orderly)
    (hturn : room.InTurn) : ∃ room', d'.waiters.Serves room' ∧ room'.Orderly ∧ room'.InTurn := by
  obtain ⟨log, -, rfl⟩ := h
  exact ⟨room.after log, serves_after hserves hroom log, hroom.after log, hturn.after hroom log⟩

theorem box_settled (h : d.Leads d') (hserves : d.waiters.Serves room) (hroom : room.Orderly)
    {t : Ticket} (ht : t < d.waiters.next) (hbox : d.box t ≠ some .empty) :
    d'.box t = d.box t ∨ d'.box t = none := by
  obtain ⟨log, hlog, rfl⟩ := h
  have hbox_eq : d.box t = room.box t := hserves.box_eq t
  have hbox_eq' : (d.after log).box t = (room.after log).box t :=
    (serves_after hserves hroom log).box_eq t
  rw [hserves.next_eq] at ht
  rw [hbox_eq] at hbox ⊢
  rw [hbox_eq']
  exact WaitingRoom.box_after_settled hroom ht hbox hlog

theorem next_le (h : d.Leads d') (hserves : d.waiters.Serves room) (hroom : room.Orderly) :
    d.waiters.next ≤ d'.waiters.next := by
  obtain ⟨log, -, rfl⟩ := h
  rw [hserves.next_eq, (serves_after hserves hroom log).next_eq]
  exact room.next_after_le log

end Leads

end Dispatcher

namespace Session

theorem leads_foldl {f : Session → Running → Session}
    (hf : ∀ (s : Session) r, s.client.dispatcher.Leads (f s r).client.dispatcher)
    (todo : List Running) (s : Session) :
    s.client.dispatcher.Leads (todo.foldl f s).client.dispatcher := by
  induction todo generalizing s with
  | nil => exact .refl _
  | cons r todo ih => exact (hf s r).trans (ih (f s r))

theorem leads_release (s : Session) (ticket : Option Ticket) :
    s.client.dispatcher.Leads (s.release ticket).client.dispatcher := by
  cases ticket with
  | none => exact .refl _
  | some t => exact .apply _ (.drop t) fun _ heq => nomatch heq

theorem leads_register (c : Client) (key : Key) :
    c.dispatcher.Leads (c.register key).2.dispatcher :=
  .apply _ (.register key) fun _ heq => nomatch heq

theorem leads_startWriting (s : Session) (name : String) (call : Call) (f : Frame)
    (ticket : Option Ticket) :
    s.client.dispatcher.Leads (s.startWriting name call f ticket).client.dispatcher := by
  unfold startWriting
  split
  · exact .refl _
  · exact s.leads_release ticket

theorem leads_begin (s : Session) (name : String) (call : Call) :
    s.client.dispatcher.Leads (s.begin name call).client.dispatcher := by
  unfold begin
  split
  · exact .refl _
  · exact (leads_register s.client _).trans (leads_startWriting _ ..)
  · split
    · exact leads_startWriting s ..
    · exact leads_register s.client _
    · exact .refl _

theorem leads_written (s : Session) (r : Running) (bs : Bytes) (ticket : Option Ticket) :
    s.client.dispatcher.Leads (s.written r bs ticket).client.dispatcher := by
  unfold written Client.writeBytes
  cases s.client.failing with
  | some reason => exact s.leads_release ticket
  | none => cases ticket <;> exact .refl _

theorem leads_poll (s : Session) (r : Running) :
    s.client.dispatcher.Leads (s.poll r).client.dispatcher := by
  unfold poll
  split
  · exact .refl _
  · split
    · exact .refl _
    · exact s.leads_release (some _)

theorem leads_move (s : Session) (m : Move) :
    s.client.dispatcher.Leads (s.move m).client.dispatcher := by
  cases m with
  | look who =>
    refine leads_foldl (fun s r => ?_) _ _
    unfold lookOne
    split
    · exact s.leads_poll r
    · exact .refl _
  | receipt place => exact .refl _
  | event e =>
    cases e with
    | start name call => exact s.leads_begin name call
    | flushed name =>
      refine leads_foldl (fun s r => ?_) _ _
      unfold flushOne
      split
      · split
        · exact s.leads_written ..
        · exact .refl _
      · exact .refl _
    | abort name => exact leads_foldl (fun s r => s.leads_release r.phase.ticket?) _ _
    | data bs =>
      cases hreading : s.client.reading with
      | false => simpa [move, apply, Client.receive, hreading] using .refl s.client.dispatcher
      | true =>
        rw [move, apply, Client.receive_eq hreading]
        exact .dispatchAll _ _
    | ended =>
      cases hreading : s.client.reading with
      | false => simpa [move, apply, Client.endReading, hreading] using .refl s.client.dispatcher
      | true =>
        simpa [move, apply, Client.endReading, hreading] using
          .apply s.client.dispatcher .cancelAll fun _ heq => by cases heq
    | fault => exact .refl _
    | connected yes => exact .refl _
    | failing reason => exact .refl _
    | advance milliseconds => exact .refl _

end Session

/-! ## Mailboxes along a run -/

namespace Run

variable {run : Run} {j k : Nat}

theorem leads_of_le (h : j ≤ k) :
    (run.upTo j).client.dispatcher.Leads (run.upTo k).client.dispatcher := by
  induction k, h using Nat.le_induction with
  | base => exact .refl _
  | succ k _ ih =>
    cases hm : run.log[k]? with
    | none =>
      rw [upTo_succ_of_none hm]
      exact ih
    | some m =>
      rw [upTo_succ hm]
      exact ih.trans (Session.leads_move _ m)

theorem exists_room (run : Run) (k : Nat) :
    ∃ room, (run.upTo k).client.dispatcher.waiters.Serves room ∧ room.Orderly ∧ room.InTurn :=
  (leads_of_le (Nat.zero_le k)).serves Waiters.serves_none WaitingRoom.orderly_empty .nil

theorem ticket_mono (h : j ≤ k) : run.ticket j ≤ run.ticket k := by
  obtain ⟨room, hserves, hroom, -⟩ := run.exists_room j
  exact (leads_of_le h).next_le hserves hroom

theorem lt_ticket {t : Ticket} (hbox : run.box k t ≠ none) : t < run.ticket k := by
  obtain ⟨room, hserves, hroom, -⟩ := run.exists_room k
  by_contra hle
  apply hbox
  rw [ticket, hserves.next_eq] at hle
  exact (hserves.box_eq t).trans (hroom.box_of_le t (Nat.le_of_not_lt hle))

/-- A mailbox that is not empty stays as it is until its owner leaves. -/
theorem box_settled (h : j ≤ k) {t : Ticket} (ht : t < run.ticket j)
    (hbox : run.box j t ≠ some .empty) : run.box k t = run.box j t ∨ run.box k t = none := by
  obtain ⟨room, hserves, hroom, -⟩ := run.exists_room j
  exact (leads_of_le h).box_settled hserves hroom ht hbox

theorem box_empty_of_le (h : j ≤ k) {t : Ticket} (ht : t < run.ticket j)
    (hbox : run.box k t = some .empty) : run.box j t = some .empty := by
  by_contra hne
  rcases box_settled h ht hne with hk | hk <;> rw [hbox] at hk
  · exact hne hk.symm
  · cases hk

theorem box_eq_none (h : j ≤ k) {t : Ticket} (ht : t < run.ticket j) (hbox : run.box j t = none) :
    run.box k t = none := by
  have hsettled := box_settled h ht (by simp [hbox])
  rwa [hbox, or_self] at hsettled

end Run

end ZigbeeGateway.Radio
