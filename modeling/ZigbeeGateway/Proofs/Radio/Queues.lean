-- The queues of a dispatcher keep waiters that have given up until something comes across them.
-- From outside this cannot be seen: at any time the waiters of a queue that still wait are the
-- line of its key in a waiting room where everyone who gives up leaves at once.
import Mathlib.Data.List.TakeWhile
import ZigbeeGateway.Proofs.Radio.WaitingRoom
namespace ZigbeeGateway.Radio

namespace Waiters

/-! ## The queue of a key -/

/-- The queue of a key among queues. -/
def queueIn (key : Key) (queues : List (Key × List Ticket)) : List Ticket :=
  ((queues.find? (·.1 = key)).map (·.2)).getD []

theorem queueOf_eq (w : Waiters) (key : Key) : w.queueOf key = queueIn key w.queues := rfl

variable {key k : Key} {queue : List Ticket} {queues : List (Key × List Ticket)}

theorem queueIn_cons :
    queueIn key ((k, queue) :: queues) = if k = key then queue else queueIn key queues := by
  by_cases h : k = key
  · simp [queueIn, h]
  · simp [queueIn, h]

theorem queueIn_of_not_mem (h : key ∉ queues.map (·.1)) : queueIn key queues = [] := by
  induction queues with
  | nil => rfl
  | cons entry rest ih =>
    obtain ⟨k, queue⟩ := entry
    simp only [List.map_cons, List.mem_cons, not_or] at h
    rw [queueIn_cons, if_neg (Ne.symm h.1), ih h.2]

/-- With distinct keys, the queue of a key is the one that stands beside it. -/
theorem queueIn_eq_of_mem (hkeys : (queues.map (·.1)).Nodup) (h : (key, queue) ∈ queues) :
    queueIn key queues = queue := by
  induction queues with
  | nil => cases h
  | cons entry rest ih =>
    obtain ⟨k, front⟩ := entry
    rw [List.map_cons, List.nodup_cons] at hkeys
    rw [queueIn_cons]
    rcases List.mem_cons.mp h with heq | hrest
    · cases heq
      exact if_pos rfl
    · have hk : k ≠ key := by
        rintro rfl
        exact hkeys.1 (List.mem_map_of_mem (f := (·.1)) hrest)
      rw [if_neg hk]
      exact ih hkeys.2 hrest

theorem queueIn_enqueue (t : Ticket) :
    queueIn k (enqueue key t queues) =
      if k = key then queueIn k queues ++ [t] else queueIn k queues := by
  fun_induction enqueue key t queues with
  | case1 =>
    rw [queueIn_cons]
    by_cases h : k = key
    · simp [h, queueIn]
    · simp [h, Ne.symm h, queueIn]
  | case2 queue rest =>
    simp only [queueIn_cons]
    by_cases h : key = k
    · simp [h]
    · simp [h, Ne.symm h]
  | case3 k' queue rest hne ih =>
    simp only [queueIn_cons, ih]
    by_cases h : k' = k
    · have hk : k ≠ key := h ▸ hne
      simp [h, hk]
    · simp [h]

theorem keys_enqueue (t : Ticket) (hkeys : (queues.map (·.1)).Nodup) :
    ((enqueue key t queues).map (·.1)).Nodup := by
  have hmem : ∀ qs : List (Key × List Ticket), ∀ k,
      k ∈ (enqueue key t qs).map (·.1) ↔ k = key ∨ k ∈ qs.map (·.1) := by
    intro qs k
    fun_induction enqueue key t qs <;> grind
  fun_induction enqueue key t queues with
  | case1 => simp
  | case2 queue rest => exact hkeys
  | case3 k' queue rest hne ih =>
    rw [List.map_cons, List.nodup_cons] at hkeys ⊢
    refine ⟨?_, ih hkeys.2⟩
    rw [hmem]
    exact fun h => h.elim hne hkeys.1

theorem keys_sweep (keep : Ticket → Bool) (hkeys : (queues.map (·.1)).Nodup) :
    (((queues.map fun (k, queue) => (k, queue.filter keep)).filter
      fun (_, queue) => !queue.isEmpty).map (·.1)).Nodup := by
  have hsame : (queues.map fun (k, queue) => (k, queue.filter keep)).map (·.1) =
      queues.map (·.1) := by
    simp [List.map_map, Function.comp_def]
  rw [← hsame] at hkeys
  exact hkeys.sublist (List.filter_sublist.map _)

/-- Keeping some waiters of each queue, and then the queues that are not empty. -/
theorem queueIn_sweep (keep : Ticket → Bool) (hkeys : (queues.map (·.1)).Nodup) :
    queueIn key ((queues.map fun (k, queue) => (k, queue.filter keep)).filter
      fun (_, queue) => !queue.isEmpty) = (queueIn key queues).filter keep := by
  induction queues with
  | nil => rfl
  | cons entry rest ih =>
    obtain ⟨k, queue⟩ := entry
    rw [List.map_cons, List.nodup_cons] at hkeys
    have hrest := ih hkeys.2
    rw [queueIn_cons, List.map_cons]
    by_cases hempty : queue.filter keep = []
    · rw [List.filter_cons_of_neg (by simp [hempty]), hrest]
      by_cases hk : k = key
      · subst hk
        rw [if_pos rfl, hempty, queueIn_of_not_mem hkeys.1, List.filter_nil]
      · rw [if_neg hk]
    · rw [List.filter_cons_of_pos (by simpa using hempty), queueIn_cons, hrest]
      split <;> rfl

theorem queueIn_without :
    queueIn k (queues.filter (·.1 ≠ key)) = if k = key then [] else queueIn k queues := by
  induction queues with
  | nil => simp [queueIn]
  | cons entry rest ih =>
    obtain ⟨k', queue⟩ := entry
    rw [queueIn_cons]
    by_cases hkey : k' = key
    · rw [List.filter_cons_of_neg (by simp [hkey]), ih]
      by_cases hk : k = key
      · simp [hk]
      · simp [hk, hkey, Ne.symm hk]
    · rw [List.filter_cons_of_pos (by simp [hkey]), queueIn_cons, ih]
      by_cases hk : k' = k
      · simp [hk, hk ▸ hkey]
      · simp [hk]

/-- A queue can only take the place of one that is there. -/
theorem queueIn_replaced (hkey : queueIn key queues ≠ [] ∨ k ≠ key) :
    queueIn k (queues.map fun entry => if entry.1 = key then (key, queue) else entry) =
      if k = key then queue else queueIn k queues := by
  induction queues with
  | nil =>
    have hk : k ≠ key := hkey.resolve_left (· rfl)
    simp [queueIn, hk]
  | cons entry rest ih =>
    obtain ⟨k', front⟩ := entry
    rw [queueIn_cons] at hkey ⊢
    rw [List.map_cons]
    by_cases hk' : k' = key
    · subst hk'
      rw [if_pos rfl, queueIn_cons]
      by_cases hk : k = k'
      · simp [hk]
      · simp [hk, Ne.symm hk, ih (Or.inr hk)]
    · rw [if_neg hk'] at hkey ⊢
      rw [queueIn_cons, ih hkey]
      by_cases hk : k' = k
      · simp [hk, hk ▸ hk']
      · simp [hk]

/-- Only the queue that is set changes. One that is not empty takes the place of another. -/
theorem queueIn_setQueue (hkey : queue ≠ [] → queueIn key queues ≠ []) :
    queueIn k (setQueue key queue queues) = if k = key then queue else queueIn k queues := by
  unfold setQueue
  split
  · rename_i hempty
    rw [List.isEmpty_iff.mp hempty]
    exact queueIn_without
  · rename_i hne
    exact queueIn_replaced (Or.inl (hkey (by simpa using hne)))

theorem keys_setQueue (key : Key) (queue : List Ticket) (hkeys : (queues.map (·.1)).Nodup) :
    ((setQueue key queue queues).map (·.1)).Nodup := by
  unfold setQueue
  split
  · exact hkeys.sublist (List.filter_sublist.map _)
  · have hsame : (queues.map fun entry => if entry.1 = key then (key, queue) else entry).map (·.1) =
        queues.map (·.1) := by
      rw [List.map_map]
      apply List.map_congr_left
      intro entry _
      simp only [Function.comp_apply]
      split
      · exact Eq.symm ‹_›
      · rfl
    rw [hsame]
    exact hkeys

/-! ## Waiters as a waiting room -/

/-- Of each queue, those who still wait are the line of its key. -/
structure Serves (w : Waiters) (room : WaitingRoom) : Prop where
  keys_nodup : (w.queues.map (·.1)).Nodup
  line_eq : ∀ key, (w.queueOf key).filter w.isLive = room.line key
  box_eq : ∀ t, w.boxes[t]? = room.box t
  next_eq : w.next = room.next

theorem serves_none : none.Serves .empty := by
  refine ⟨?_, ?_, ?_, rfl⟩ <;> simp [none, WaitingRoom.empty, queueOf, WaitingRoom.line]

theorem boxes_insert (w : Waiters) (t u : Ticket) (box : Mailbox) :
    (w.boxes.insert t box)[u]? = if u = t then some box else w.boxes[u]? := by
  rw [Std.TreeMap.getElem?_insert]
  simp only [Std.compare_eq_iff_eq, eq_comm (a := t)]

theorem boxes_erase (w : Waiters) (t u : Ticket) :
    (w.boxes.erase t)[u]? = if u = t then Option.none else w.boxes[u]? := by
  rw [Std.TreeMap.getElem?_erase]
  simp only [Std.compare_eq_iff_eq, eq_comm (a := t)]

/-- Those at the front of a queue who do not wait may go: who waits stays the same. -/
theorem filter_dropWhile (w : Waiters) (queue : List Ticket) :
    (queue.dropWhile (!w.isLive ·)).filter w.isLive = queue.filter w.isLive := by
  have hgone : (queue.takeWhile (!w.isLive ·)).filter w.isLive = [] := by
    rw [List.filter_eq_nil_iff]
    intro t ht
    simpa using List.mem_takeWhile_imp ht
  conv_rhs => rw [← List.takeWhile_append_dropWhile (p := (!w.isLive ·)) (l := queue)]
  rw [List.filter_append, hgone, List.nil_append]

namespace Serves

variable {w : Waiters} {room : WaitingRoom}

/-- A waiter leaves: its mailbox is another one, and of each queue the others who wait are there as
before. Whether it, or anyone else who does not wait, is still in a queue makes no difference. -/
theorem leave {w' : Waiters} (h : w.Serves room) {t : Ticket} {box : Option Mailbox}
    (hbox : box ≠ some .empty) (hboxes : ∀ u, w'.boxes[u]? = if u = t then box else w.boxes[u]?)
    (hkeys : (w'.queues.map (·.1)).Nodup)
    (hqueues : ∀ key, (w'.queueOf key).filter (fun u => w.isLive u && u ≠ t) =
      (w.queueOf key).filter (fun u => w.isLive u && u ≠ t))
    (hnext : w'.next = w.next) : w'.Serves (room.leave t box) where
  keys_nodup := hkeys
  line_eq key := by
    have hlive : w'.isLive = fun u => w.isLive u && u ≠ t := by
      funext u
      by_cases hut : u = t
      · simp [isLive, hboxes, hut, hbox]
      · simp [isLive, hboxes, hut]
    rw [hlive, hqueues, WaitingRoom.line_leave, ← h.line_eq, List.filter_filter]
    simp [Bool.and_comm]
  box_eq u := by
    rw [hboxes, h.box_eq]
    exact (Function.update_apply ..).symm
  next_eq := hnext.trans h.next_eq

theorem drop (h : w.Serves room) (t : Ticket) : (w.drop t).Serves (room.leave t Option.none) :=
  h.leave (by simp) (boxes_erase w t) h.keys_nodup (fun _ => rfl) rfl

theorem take (h : w.Serves room) (t : Ticket) :
    (w.take t).1 = (room.take t).1 ∧ (w.take t).2.Serves (room.take t).2 := by
  unfold Waiters.take WaitingRoom.take
  rw [h.box_eq t]
  rcases room.box t with _ | _ | f | _
  · exact ⟨rfl, h⟩
  · exact ⟨rfl, h⟩
  · have hleave : Serves { w with boxes := w.boxes.insert t .closed }
        (room.leave t (some .closed)) :=
      h.leave (by simp) (boxes_insert w t · .closed) h.keys_nodup (fun _ => rfl) rfl
    exact ⟨rfl, hleave⟩
  · exact ⟨rfl, h⟩

/-- After a sweep each queue is the line of its key. -/
theorem sweep (h : w.Serves room) :
    (w.sweep.queues.map (·.1)).Nodup ∧ ∀ key, w.sweep.queueOf key = room.line key := by
  refine ⟨keys_sweep w.isLive h.keys_nodup, fun key => ?_⟩
  rw [← h.line_eq key]
  exact queueIn_sweep w.isLive h.keys_nodup

theorem register (h : w.Serves room) (hroom : room.Orderly) (key : Key) :
    (w.register key).1 = (room.register key).1 ∧
      (w.register key).2.Serves (room.register key).2 := by
  obtain ⟨hkeys, hqueue⟩ := h.sweep
  have hbox : ∀ t, (w.register key).2.boxes[t]? = (room.register key).2.box t := by
    intro t
    have hnew := boxes_insert w w.next t .empty
    rw [h.box_eq] at hnew
    simp only [WaitingRoom.register, Function.update_apply, ← h.next_eq]
    exact hnew
  have hline : ∀ k, (w.register key).2.queueOf k = (room.register key).2.line k := by
    intro k
    rw [WaitingRoom.line_register, ← hqueue, ← h.next_eq]
    exact queueIn_enqueue w.next
  refine ⟨h.next_eq, ⟨keys_enqueue _ hkeys, ?_, hbox, congrArg (· + 1) h.next_eq⟩⟩
  -- After the sweep everyone in a queue waits, so the new mailbox does not wake anybody up.
  intro k
  rw [hline, List.filter_eq_self]
  intro t ht
  have hwaits := ((hroom.register key).waits_iff t).mp (WaitingRoom.mem_tickets.mpr ⟨k, ht⟩)
  rw [isLive, hbox, hwaits]
  rfl

/-- Nobody waits for a key, so its queue may go. -/
theorem forget (h : w.Serves room) {key : Key} (hline : room.line key = []) :
    Serves { w with queues := setQueue key [] w.queues } room where
  keys_nodup := keys_setQueue key [] h.keys_nodup
  line_eq k := by
    rw [queueOf_eq, queueIn_setQueue (fun hne => absurd rfl hne)]
    by_cases hk : k = key
    · rw [if_pos hk, hk, hline, List.filter_nil]
    · rw [if_neg hk]
      exact h.line_eq k
  box_eq := h.box_eq
  next_eq := h.next_eq

/-- The first of a queue who waits gets a frame; the queue begins behind it from now on. -/
theorem deliver (h : w.Serves room) {key : Key} {t : Ticket} {queue : List Ticket}
    (hline : room.line key = t :: queue.filter w.isLive) (hne : queueIn key w.queues ≠ [])
    (f : Frame) :
    Serves { w with queues := setQueue key queue w.queues, boxes := w.boxes.insert t (.holding f) }
      (room.leave t (some (.holding f))) := by
  refine h.leave (by simp) (boxes_insert w t · (.holding f))
    (keys_setQueue key queue h.keys_nodup) ?_ rfl
  intro k
  rw [queueOf_eq, queueIn_setQueue (fun _ => hne)]
  by_cases hk : k = key
  · have hsame := congrArg (List.filter (· ≠ t)) ((h.line_eq key).trans hline)
    rw [List.filter_cons_of_neg (by simp), List.filter_filter, List.filter_filter] at hsame
    rw [if_pos hk, hk]
    simpa [Bool.and_comm] using hsame.symm
  · rw [if_neg hk]
    rfl

theorem complete (h : w.Serves room) (f : Frame) :
    (w.complete (Dispatcher.replyKey f) f).1 = (room.dispatch f).1 ∧
      (w.complete (Dispatcher.replyKey f) f).2.Serves (room.dispatch f).2 := by
  generalize hkey : Dispatcher.replyKey f = key
  have hline : room.line key = ((w.queueOf key).dropWhile (!w.isLive ·)).filter w.isLive := by
    rw [filter_dropWhile, h.line_eq]
  unfold Waiters.complete WaitingRoom.dispatch
  rw [hkey]
  rcases hd : (w.queueOf key).dropWhile (!w.isLive ·) with _ | ⟨t, queue⟩
  · rw [hd, List.filter_nil] at hline
    rw [hline]
    exact ⟨rfl, h.forget hline⟩
  · have hlive : w.isLive t = true := by
      have hhead := List.head?_dropWhile_not (!w.isLive ·) (w.queueOf key)
      simpa [hd] using hhead
    have hne : queueIn key w.queues ≠ [] := by
      intro hnil
      rw [queueOf_eq, hnil] at hd
      cases hd
    rw [hd, List.filter_cons_of_pos hlive] at hline
    rw [hline]
    exact ⟨rfl, h.deliver hline hne f⟩

/-! ### All who wait -/

theorem waiting_eq (h : w.Serves room) :
    (w.queues.flatMap (·.2)).filter w.isLive = (w.queues.map (·.1)).flatMap room.line := by
  rw [List.filter_flatMap, List.flatMap_map]
  apply List.flatMap_congr
  intro entry hentry
  rw [← h.line_eq, queueOf_eq, queueIn_eq_of_mem h.keys_nodup hentry]

theorem mem_waiting (h : w.Serves room) (t : Ticket) :
    t ∈ (w.queues.flatMap (·.2)).filter w.isLive ↔ t ∈ room.tickets := by
  rw [h.waiting_eq, List.mem_flatMap, WaitingRoom.mem_tickets]
  constructor
  · rintro ⟨key, -, ht⟩
    exact ⟨key, ht⟩
  · rintro ⟨key, ht⟩
    refine ⟨key, ?_, ht⟩
    by_contra habsent
    rw [← h.line_eq, queueOf_eq, queueIn_of_not_mem habsent] at ht
    cases ht

theorem waiting_nodup (h : w.Serves room) (hroom : room.Orderly) :
    ((w.queues.flatMap (·.2)).filter w.isLive).Nodup := by
  rw [h.waiting_eq, List.nodup_flatMap]
  refine ⟨fun key _ => ?_, ?_⟩
  · exact hroom.nodup.sublist (List.filter_sublist.map _)
  · apply h.keys_nodup.imp
    intro k k' hne t hk hk'
    exact hne (hroom.key_unique hk hk')

theorem count_eq (h : w.Serves room) (hroom : room.Orderly) : w.count = room.tickets.length := by
  have hperm := (List.perm_ext_iff_of_nodup (h.waiting_nodup hroom) hroom.nodup).mpr h.mem_waiting
  rw [Waiters.count, List.countP_eq_length_filter]
  exact hperm.length_eq

theorem boxes_closed (ts : List Ticket) (boxes : Std.TreeMap Ticket Mailbox) (t : Ticket) :
    (ts.foldl (fun boxes t => boxes.insert t .closed) boxes)[t]? =
      if t ∈ ts then some .closed else boxes[t]? := by
  induction ts generalizing boxes with
  | nil => simp
  | cons u ts ih =>
    rw [List.foldl_cons, ih, boxes_insert ⟨[], boxes, 0⟩]
    by_cases ht : t ∈ ts
    · simp [ht]
    · simp [ht]

theorem cancelAll (h : w.Serves room) : w.cancelAll.Serves room.cancelAll where
  keys_nodup := List.nodup_nil
  line_eq key := rfl
  box_eq t := by
    have hclosed := boxes_closed ((w.queues.flatMap (·.2)).filter w.isLive) w.boxes t
    simp only [h.mem_waiting, h.box_eq] at hclosed
    exact hclosed
  next_eq := h.next_eq

end Serves

end Waiters

end ZigbeeGateway.Radio
