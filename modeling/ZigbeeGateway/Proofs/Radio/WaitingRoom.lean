-- A waiting room in which everyone who gives up leaves at once. Each key has its own line, a
-- frame goes to the front of one line, and nobody who waits in the room is ever gone already.
-- What is done with a dispatcher can be done with the room as well.
import Mathlib.Data.List.Nodup
import Mathlib.Logic.Function.Basic
import ZigbeeGateway.Radio.Dispatcher
namespace ZigbeeGateway.Radio

/-- What is done with a dispatcher and its waiters. -/
inductive Operation where
  | register (key : Key)
  | drop (t : Ticket)
  /-- A waiter takes what is in its mailbox. -/
  | take (t : Ticket)
  | dispatch (f : Frame)
  | cancelAll

/-- What an operation answers. -/
inductive Answer where
  | ticket (t : Ticket)
  | delivered (yes : Bool)
  | mailbox (box : Option Mailbox)
  | nothing

structure WaitingRoom where
  /-- Everyone who waits, with the key waited for, the longest waiting in front. -/
  waiting : List (Key × Ticket)
  /-- The mailboxes of all waiters that have not given up. -/
  box : Ticket → Option Mailbox
  /-- The number of the next waiter. -/
  next : Ticket

namespace WaitingRoom

def empty : WaitingRoom := ⟨[], fun _ => none, 0⟩

/-- Everyone who waits. -/
def tickets (room : WaitingRoom) : List Ticket := room.waiting.map (·.2)

/-- Those who wait for a key, the longest waiting in front. -/
def line (room : WaitingRoom) (key : Key) : List Ticket :=
  (room.waiting.filter (·.1 = key)).map (·.2)

/-- A waiter leaves its line, and this is in its mailbox from now on. -/
def leave (room : WaitingRoom) (t : Ticket) (box : Option Mailbox) : WaitingRoom :=
  { room with
    waiting := room.waiting.filter (·.2 ≠ t)
    box := Function.update room.box t box }

def register (room : WaitingRoom) (key : Key) : Ticket × WaitingRoom :=
  (room.next, {
    waiting := room.waiting ++ [(key, room.next)]
    box := Function.update room.box room.next (some .empty)
    next := room.next + 1 })

def take (room : WaitingRoom) (t : Ticket) : Option Mailbox × WaitingRoom :=
  match room.box t with
  | some (.holding f) => (some (.holding f), room.leave t (some .closed))
  | box => (box, room)

/-- A frame goes to the front of the line of its key, if anyone stands there. -/
def dispatch (room : WaitingRoom) (f : Frame) : Bool × WaitingRoom :=
  match room.line (Dispatcher.replyKey f) with
  | [] => (false, room)
  | t :: _ => (true, room.leave t (some (.holding f)))

def cancelAll (room : WaitingRoom) : WaitingRoom :=
  { room with
    waiting := []
    box := fun t => if t ∈ room.tickets then some .closed else room.box t }

def apply (room : WaitingRoom) : Operation → Answer × WaitingRoom
  | .register key => ((room.register key).map .ticket id)
  | .drop t => (.nothing, room.leave t none)
  | .take t => (room.take t).map .mailbox id
  | .dispatch f => (room.dispatch f).map .delivered id
  | .cancelAll => (.nothing, room.cancelAll)

/-- The room after a log of operations. -/
def after (room : WaitingRoom) (log : List Operation) : WaitingRoom :=
  log.foldl (fun room op => (room.apply op).2) room

/-! ## Lines -/

@[simp] theorem line_register (room : WaitingRoom) (key k : Key) :
    (room.register key).2.line k = if k = key then room.line k ++ [room.next] else room.line k := by
  by_cases h : k = key
  · subst h
    simp [line, register]
  · simp [line, register, h, Ne.symm h]

@[simp] theorem line_leave (room : WaitingRoom) (t : Ticket) (box : Option Mailbox) (k : Key) :
    (room.leave t box).line k = (room.line k).filter (· ≠ t) := by
  simp only [line, leave, List.filter_filter, List.filter_map]
  congr 1
  apply List.filter_congr
  intro entry _
  simp [Bool.and_comm]

@[simp] theorem line_cancelAll (room : WaitingRoom) (k : Key) : room.cancelAll.line k = [] := rfl

@[simp] theorem tickets_leave (room : WaitingRoom) (t : Ticket) (box : Option Mailbox) :
    (room.leave t box).tickets = room.tickets.filter (· ≠ t) := by
  simp only [tickets, leave, List.filter_map]
  rfl

@[simp] theorem tickets_cancelAll (room : WaitingRoom) : room.cancelAll.tickets = [] := rfl

theorem mem_line {room : WaitingRoom} {t : Ticket} {key : Key} :
    t ∈ room.line key ↔ (key, t) ∈ room.waiting := by
  simp [line]

theorem mem_tickets {room : WaitingRoom} {t : Ticket} :
    t ∈ room.tickets ↔ ∃ key, t ∈ room.line key := by
  simp [tickets, mem_line]

/-! ## Who waits -/

/-- The lines and the mailboxes fit together. -/
structure Orderly (room : WaitingRoom) : Prop where
  nodup : room.tickets.Nodup
  waits_iff : ∀ t, t ∈ room.tickets ↔ room.box t = some .empty
  box_of_le : ∀ t, room.next ≤ t → room.box t = none

theorem orderly_empty : empty.Orderly := by
  refine ⟨?_, ?_, ?_⟩ <;> simp [empty, tickets]

namespace Orderly

variable {room : WaitingRoom}

theorem lt_next (h : room.Orderly) {t : Ticket} {b : Mailbox} (ht : room.box t = some b) :
    t < room.next := by
  by_contra hle
  rw [h.box_of_le t (Nat.le_of_not_lt hle)] at ht
  cases ht

theorem lt_next_of_mem (h : room.Orderly) {t : Ticket} (ht : t ∈ room.tickets) : t < room.next :=
  h.lt_next ((h.waits_iff t).mp ht)

theorem leave (h : room.Orderly) {t : Ticket} {box : Option Mailbox}
    (ht : box ≠ none → t < room.next) (hbox : box ≠ some .empty) : (room.leave t box).Orderly where
  nodup := by
    rw [tickets_leave]
    exact h.nodup.filter _
  waits_iff u := by
    rw [tickets_leave]
    by_cases hut : u = t
    · subst hut
      simp [WaitingRoom.leave, hbox]
    · simp [WaitingRoom.leave, hut, h.waits_iff u]
  box_of_le u hu := by
    by_cases hut : u = t
    · subst hut
      have hnone : box = none := by
        by_contra hsome
        exact absurd (ht hsome) (Nat.not_lt.mpr hu)
      simp [WaitingRoom.leave, hnone]
    · simp [WaitingRoom.leave, hut, h.box_of_le u hu]

theorem register (h : room.Orderly) (key : Key) : (room.register key).2.Orderly where
  nodup := by
    have hnew : room.next ∉ room.tickets := fun hm => Nat.lt_irrefl _ (h.lt_next_of_mem hm)
    simp only [tickets, WaitingRoom.register, List.map_append, List.map_cons, List.map_nil]
    apply List.nodup_append.mpr
    refine ⟨h.nodup, List.nodup_singleton _, ?_⟩
    intro a ha b hb
    rw [List.mem_singleton] at hb
    rintro rfl
    exact hnew (hb ▸ ha)
  waits_iff u := by
    have hu := h.waits_iff u
    by_cases hut : u = room.next
    · subst hut
      simp [tickets, WaitingRoom.register]
    · simp only [tickets] at hu
      simp [tickets, WaitingRoom.register, hut, ← hu]
  box_of_le u hu := by
    have hut : u ≠ room.next := Nat.ne_of_gt hu
    simp [WaitingRoom.register, hut, h.box_of_le u (Nat.le_of_lt hu)]

theorem take (h : room.Orderly) (t : Ticket) : (room.take t).2.Orderly := by
  unfold WaitingRoom.take
  split
  · rename_i f hbox
    exact h.leave (fun _ => h.lt_next hbox) (by simp)
  · exact h

theorem dispatch (h : room.Orderly) (f : Frame) : (room.dispatch f).2.Orderly := by
  unfold WaitingRoom.dispatch
  split
  · exact h
  · rename_i t rest hline
    have hmem : t ∈ room.tickets := mem_tickets.mpr ⟨_, hline ▸ List.mem_cons_self⟩
    exact h.leave (fun _ => h.lt_next_of_mem hmem) (by simp)

theorem cancelAll (h : room.Orderly) : room.cancelAll.Orderly where
  nodup := List.nodup_nil
  waits_iff u := by
    have hu := h.waits_iff u
    rw [tickets_cancelAll]
    by_cases hm : u ∈ room.tickets
    · simp [WaitingRoom.cancelAll, hm]
    · simpa [WaitingRoom.cancelAll, hm] using fun heq => hm (hu.mpr heq)
  box_of_le u hu := by
    have hm : u ∉ room.tickets := fun hm => absurd (h.lt_next_of_mem hm) (Nat.not_lt.mpr hu)
    simp [WaitingRoom.cancelAll, hm, h.box_of_le u hu]

theorem apply (h : room.Orderly) (op : Operation) : (room.apply op).2.Orderly := by
  cases op with
  | register key => exact h.register key
  | drop t => exact h.leave (fun hne => absurd rfl hne) (by simp)
  | take t => exact h.take t
  | dispatch f => exact h.dispatch f
  | cancelAll => exact h.cancelAll

theorem after (h : room.Orderly) (log : List Operation) : (room.after log).Orderly := by
  induction log generalizing room with
  | nil => exact h
  | cons op log ih => exact ih (h.apply op)

/-- Each waiter stands in one line only. -/
theorem key_unique (h : room.Orderly) {t : Ticket} {k k' : Key} (hk : t ∈ room.line k)
    (hk' : t ∈ room.line k') : k = k' := by
  have heq := List.inj_on_of_nodup_map h.nodup (mem_line.mp hk) (mem_line.mp hk') rfl
  exact congrArg Prod.fst heq

/-- The front of a line leaves it and no other line. -/
theorem line_leave_front (h : room.Orderly) {key : Key} {t : Ticket} {rest : List Ticket}
    (hline : room.line key = t :: rest) (box : Option Mailbox) (k : Key) :
    (room.leave t box).line k = if k = key then rest else room.line k := by
  have hmem : t ∈ room.line key := hline ▸ List.mem_cons_self
  rw [line_leave]
  split
  · rename_i hk
    subst hk
    have hnodup : (room.line k).Nodup := (h.nodup.sublist (List.filter_sublist.map _))
    rw [hline, List.nodup_cons] at hnodup
    rw [hline, List.filter_cons_of_neg (by simp), List.filter_eq_self]
    intro u hu
    simpa using fun heq : u = t => hnodup.1 (heq ▸ hu)
  · rename_i hk
    rw [List.filter_eq_self]
    intro u hu
    simpa using fun heq : u = t => hk (h.key_unique (heq ▸ hu) hmem)

end Orderly

/-! ## One frame at most -/

/-- A waiter that does not wait any more may lose what it has, but it gets nothing new. -/
theorem box_apply {room : WaitingRoom} (h : room.Orderly) {t : Ticket} (ht : t < room.next)
    (hbox : room.box t ≠ some .empty) (op : Operation) :
    (room.apply op).2.box t ∈ [room.box t, some .closed, none] := by
  have hout : t ∉ room.tickets := fun hm => hbox ((h.waits_iff t).mp hm)
  have hleave : ∀ u ∈ room.tickets, ∀ box, (room.leave u box).box t = room.box t := by
    intro u hu box
    have hut : t ≠ u := fun heq => hout (heq ▸ hu)
    simp [leave, hut]
  cases op with
  | register key => simp [apply, register, Nat.ne_of_lt ht]
  | drop u => by_cases hut : t = u <;> simp [apply, leave, hut]
  | take u =>
    simp only [apply, take]
    split
    · by_cases hut : t = u <;> simp [leave, hut]
    · simp
  | dispatch f =>
    simp only [apply, dispatch]
    split
    · simp
    · rename_i u rest hline
      simp [hleave u (mem_tickets.mpr ⟨_, hline ▸ List.mem_cons_self⟩)]
  | cancelAll => simp [apply, cancelAll, hout]

theorem next_apply_le (room : WaitingRoom) (op : Operation) :
    room.next ≤ (room.apply op).2.next := by
  cases op with
  | register key => exact Nat.le_succ _
  | drop t => exact Nat.le_refl _
  | take t => simp only [apply, take]; split <;> exact Nat.le_refl _
  | dispatch f => simp only [apply, dispatch]; split <;> exact Nat.le_refl _
  | cancelAll => exact Nat.le_refl _

theorem box_after {room : WaitingRoom} (h : room.Orderly) {t : Ticket} (ht : t < room.next)
    (hbox : room.box t ≠ some .empty) (log : List Operation) :
    (room.after log).box t ∈ [room.box t, some .closed, none] := by
  induction log generalizing room with
  | nil => simp [after]
  | cons op log ih =>
    have hstep := box_apply h ht hbox op
    have hbox' : (room.apply op).2.box t ≠ some .empty := by
      intro heq
      simp [heq, Ne.symm hbox] at hstep
    have hrest := ih (h.apply op) (Nat.lt_of_lt_of_le ht (next_apply_le room op)) hbox'
    simp only [List.mem_cons, List.not_mem_nil, or_false] at hstep hrest ⊢
    rcases hrest with hrest | hrest
    · rw [after, List.foldl_cons, ← after, hrest]
      exact hstep
    · exact Or.inr hrest

end WaitingRoom

end ZigbeeGateway.Radio
