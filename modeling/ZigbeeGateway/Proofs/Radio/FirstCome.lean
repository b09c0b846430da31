-- First come, first served. Whatever is done with a dispatcher, it answers like a waiting room
-- in which nobody stands who has given up, and every mailbox holds what it holds there.
import ZigbeeGateway.Proofs.Radio.Queues
namespace ZigbeeGateway.Radio

namespace Dispatcher

/-- An operation on a dispatcher or on one of its waiters. -/
def apply (d : Dispatcher) : Operation → Answer × Dispatcher
  | .register key => (d.waiters.register key).map .ticket fun waiters => { d with waiters }
  | .drop t => (.nothing, { d with waiters := d.waiters.drop t })
  | .take t => (d.waiters.take t).map .mailbox fun waiters => { d with waiters }
  | .dispatch f => (d.dispatch f).map .delivered id
  | .cancelAll => (.nothing, { d with waiters := d.waiters.cancelAll })

/-- The mailbox of a waiter that has not given up. -/
def box (d : Dispatcher) (t : Ticket) : Option Mailbox := d.waiters.boxes[t]?

/-- The dispatcher after a log of operations. -/
def after (d : Dispatcher) (log : List Operation) : Dispatcher :=
  log.foldl (fun d op => (d.apply op).2) d

variable {d : Dispatcher} {room : WaitingRoom}

/-- One operation: the answers are the same, and the dispatcher goes on like the room. -/
theorem serves_apply (h : d.waiters.Serves room) (hroom : room.Orderly) (op : Operation) :
    (d.apply op).1 = (room.apply op).1 ∧ (d.apply op).2.waiters.Serves (room.apply op).2 := by
  cases op with
  | register key =>
    obtain ⟨hanswer, hnext⟩ := h.register hroom key
    exact ⟨congrArg Answer.ticket hanswer, hnext⟩
  | drop t => exact ⟨rfl, h.drop t⟩
  | take t =>
    obtain ⟨hanswer, hnext⟩ := h.take t
    exact ⟨congrArg Answer.mailbox hanswer, hnext⟩
  | dispatch f =>
    obtain ⟨hanswer, hnext⟩ := h.complete f
    exact ⟨congrArg Answer.delivered hanswer, hnext⟩
  | cancelAll => exact ⟨rfl, h.cancelAll⟩

theorem serves_after (h : d.waiters.Serves room) (hroom : room.Orderly) (log : List Operation) :
    (d.after log).waiters.Serves (room.after log) := by
  induction log generalizing d room with
  | nil => exact h
  | cons op log ih => exact ih (serves_apply h hroom op).2 (hroom.apply op)

theorem box_dispatch (h : d.waiters.Serves room) (f : Frame) (t : Ticket) :
    (d.dispatch f).2.box t = (room.dispatch f).2.box t := (h.complete f).2.box_eq t

/-- A dispatcher and its waiters are to the outside a waiting room in which everyone who gives up
leaves at once, after any operations: every operation is answered alike, every mailbox holds the
same, and as many wait. A frame goes to the front of the line of its key, which leaves the line, and
to no one else; if nobody stands there, no one gets it. Those who are sent away are those who wait.
Whoever does not wait any more never gets another frame. -/
theorem waiters_are_served_in_order (capacity : Nat) (log : List Operation) :
    let d := (empty capacity).after log
    let room := WaitingRoom.empty.after log
    (∀ op, (d.apply op).1 = (room.apply op).1) ∧
    (∀ t, d.box t = room.box t) ∧
    d.waiters.count = room.waiting.length ∧
    (∀ f, room.line (replyKey f) = [] →
      (d.dispatch f).1 = false ∧ ∀ u, (d.dispatch f).2.box u = d.box u) ∧
    (∀ f t rest, room.line (replyKey f) = t :: rest →
      (d.dispatch f).1 = true ∧ d.box t = some .empty ∧
        (∀ u, (d.dispatch f).2.box u = if u = t then some (.holding f) else d.box u) ∧
        ∀ key, (room.dispatch f).2.line key = if key = replyKey f then rest else room.line key) ∧
    (∀ u, (d.apply .cancelAll).2.box u = if u ∈ room.tickets then some .closed else d.box u) ∧
    ∀ t more f, t < d.waiters.next → d.box t ≠ some .empty →
      (d.after more).box t = some (.holding f) → d.box t = some (.holding f) := by
  intro d room
  have hroom : room.Orderly := WaitingRoom.orderly_empty.after log
  have h : d.waiters.Serves room :=
    serves_after Waiters.serves_none WaitingRoom.orderly_empty log
  have hbox : ∀ t, d.box t = room.box t := h.box_eq
  refine ⟨fun op => (serves_apply h hroom op).1, hbox, ?_, ?_, ?_, ?_, ?_⟩
  · rw [h.count_eq hroom, WaitingRoom.tickets, List.length_map]
  · intro f hline
    have hdispatch : room.dispatch f = (false, room) := by
      simp only [WaitingRoom.dispatch, hline]
    refine ⟨(h.complete f).1.trans (congrArg Prod.fst hdispatch), fun u => ?_⟩
    rw [box_dispatch h, hdispatch, hbox]
  · intro f t rest hline
    have hdispatch : room.dispatch f = (true, room.leave t (some (.holding f))) := by
      simp only [WaitingRoom.dispatch, hline]
    have hmem : t ∈ room.tickets :=
      WaitingRoom.mem_tickets.mpr ⟨replyKey f, hline ▸ List.mem_cons_self⟩
    refine ⟨(h.complete f).1.trans (congrArg Prod.fst hdispatch), ?_, fun u => ?_, fun key => ?_⟩
    · rw [hbox, ← hroom.waits_iff]
      exact hmem
    · rw [box_dispatch h, hdispatch, hbox]
      exact Function.update_apply ..
    · rw [hdispatch]
      exact hroom.line_leave_front hline _ key
  · intro u
    rw [hbox]
    exact h.cancelAll.box_eq u
  · intro t more f ht hover hlater
    rw [h.next_eq] at ht
    rw [hbox] at hover ⊢
    have hafter := WaitingRoom.box_after hroom ht hover more
    rw [← (serves_after h hroom more).box_eq, ← box, hlater] at hafter
    simpa [eq_comm] using hafter

/-- The first of two waiters has given up; the error report of the request that both wait for goes
to the second. -/
theorem a_frame_passes_over_one_who_gave_up :
    let key : Key := ⟨.response, .af, 0x01⟩
    let f : Frame := ⟨.response, .rpcError, 0x00, [0x02, 0x24, 0x01]⟩
    let log : List Operation := [.register key, .register key, .drop 0]
    let d := (empty 4).after log
    let room := WaitingRoom.empty.after log
    room.line (replyKey f) = [1] ∧ (d.dispatch f).1 = true ∧
      (d.dispatch f).2.box 1 = some (.holding f) ∧ d.waiters.count = 1 := by
  intro key f log d room
  have hline : room.line (replyKey f) = [1] := by decide
  obtain ⟨-, -, hcount, -, hfront, -⟩ := waiters_are_served_in_order 4 log
  obtain ⟨htaken, -, hboxes, -⟩ := hfront f 1 [] hline
  exact ⟨hline, htaken, hboxes 1, hcount⟩

end Dispatcher

end ZigbeeGateway.Radio
