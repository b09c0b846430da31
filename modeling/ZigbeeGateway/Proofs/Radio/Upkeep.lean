-- The table of waiters does not fill up. A waiter that gives up leaves its queue only when a
-- registration sweeps the table or a frame comes across it. Still no queue is ever empty, and
-- whoever is in a queue and does not wait any more has given up since the last registration.
import Mathlib.Data.List.Perm.Subperm
import ZigbeeGateway.Proofs.Radio.FirstCome
namespace ZigbeeGateway.Radio

namespace Waiters

/-- All who are in a queue, whether they still wait or not. -/
def queued (w : Waiters) : List Ticket := w.queues.flatMap (·.2)

variable {key : Key} {queue : List Ticket} {queues : List (Key × List Ticket)}

/-! ## All who are in queues -/

theorem perm_enqueue (t : Ticket) :
    ((enqueue key t queues).flatMap (·.2)).Perm (t :: queues.flatMap (·.2)) := by
  fun_induction enqueue key t queues with
  | case1 => exact .refl _
  | case2 queue rest =>
    simp only [List.flatMap_cons]
    rw [List.append_assoc]
    exact List.perm_middle
  | case3 k queue rest hne ih =>
    simp only [List.flatMap_cons]
    exact (ih.append_left queue).trans List.perm_middle

theorem no_empty_enqueue (t : Ticket) (h : ∀ entry ∈ queues, entry.2 ≠ []) :
    ∀ entry ∈ enqueue key t queues, entry.2 ≠ [] := by
  fun_induction enqueue key t queues with
  | case1 => simp
  | case2 queue rest =>
    rw [List.forall_mem_cons] at h ⊢
    exact ⟨by simp, h.2⟩
  | case3 k queue rest hne ih =>
    rw [List.forall_mem_cons] at h ⊢
    exact ⟨h.1, ih h.2⟩

/-- Keeping some waiters of each queue, and then the queues that are not empty. -/
theorem flatMap_sweep (keep : Ticket → Bool) :
    ((queues.map fun (k, queue) => (k, queue.filter keep)).filter
      fun (_, queue) => !queue.isEmpty).flatMap (·.2) = (queues.flatMap (·.2)).filter keep := by
  induction queues with
  | nil => rfl
  | cons entry rest ih =>
    obtain ⟨k, queue⟩ := entry
    rw [List.map_cons, List.flatMap_cons, List.filter_append, ← ih]
    by_cases hempty : queue.filter keep = []
    · rw [List.filter_cons_of_neg (by simp [hempty]), hempty, List.nil_append]
    · rw [List.filter_cons_of_pos (by simpa using hempty), List.flatMap_cons]

/-- A sweep leaves those who still wait. -/
theorem queued_sweep (w : Waiters) : w.sweep.queued = w.queued.filter w.isLive :=
  flatMap_sweep w.isLive

theorem no_empty_sweep (w : Waiters) : ∀ entry ∈ w.sweep.queues, entry.2 ≠ [] := by
  intro entry hentry
  simpa using (List.mem_filter.mp hentry).2

/-- The queue of a key and all others. -/
theorem perm_queueIn (key : Key) (hkeys : (queues.map (·.1)).Nodup) :
    (queues.flatMap (·.2)).Perm
      (queueIn key queues ++ (queues.filter (·.1 ≠ key)).flatMap (·.2)) := by
  induction queues with
  | nil => exact .refl _
  | cons entry rest ih =>
    obtain ⟨k, queue⟩ := entry
    rw [List.map_cons, List.nodup_cons] at hkeys
    rw [List.flatMap_cons, queueIn_cons]
    by_cases hk : k = key
    · subst hk
      have hothers : rest.filter (·.1 ≠ k) = rest := by
        rw [List.filter_eq_self]
        intro entry hentry
        simpa using fun heq : entry.1 = k => hkeys.1 (heq ▸ List.mem_map_of_mem (f := (·.1)) hentry)
      rw [if_pos rfl, List.filter_cons_of_neg (by simp), hothers]
    · rw [if_neg hk, List.filter_cons_of_pos (by simpa using hk), List.flatMap_cons]
      exact ((ih hkeys.2).append_left queue).trans (List.perm_append_comm_assoc ..)

theorem filter_setQueue (key : Key) (queue : List Ticket) (queues : List (Key × List Ticket)) :
    (setQueue key queue queues).filter (·.1 ≠ key) = queues.filter (·.1 ≠ key) := by
  unfold setQueue
  split
  · rw [List.filter_filter]
    simp
  · induction queues with
    | nil => rfl
    | cons entry rest ih =>
      rw [List.map_cons]
      by_cases hk : entry.1 = key
      · rw [if_pos hk, List.filter_cons_of_neg (by simp),
          List.filter_cons_of_neg (by simp [hk]), ih]
      · rw [if_neg hk, List.filter_cons_of_pos (by simpa using hk),
          List.filter_cons_of_pos (by simpa using hk), ih]

theorem no_empty_setQueue (key : Key) (queue : List Ticket)
    (h : ∀ entry ∈ queues, entry.2 ≠ []) : ∀ entry ∈ setQueue key queue queues, entry.2 ≠ [] := by
  unfold setQueue
  split
  · exact fun entry hentry => h entry (List.mem_of_mem_filter hentry)
  · rename_i hne
    rw [List.forall_mem_map]
    intro entry hentry
    split
    · simpa using hne
    · exact h entry hentry

/-- Some go from the front of one queue, and nobody else. -/
theorem perm_cut {front : List Ticket} (hkeys : (queues.map (·.1)).Nodup)
    (hqueue : queueIn key queues = front ++ queue) :
    (queues.flatMap (·.2)).Perm (front ++ (setQueue key queue queues).flatMap (·.2)) := by
  have hset : queueIn key (setQueue key queue queues) = queue := by
    rw [queueIn_setQueue, if_pos rfl]
    intro hne
    simp [hqueue, hne]
  have hbefore := perm_queueIn key hkeys
  have hafter := perm_queueIn key (keys_setQueue key queue hkeys)
  rw [hqueue, List.append_assoc] at hbefore
  rw [hset, filter_setQueue] at hafter
  exact hbefore.trans (hafter.symm.append_left front)

/-! ## Those who have given up -/

theorem isLive_iff {w : Waiters} {t : Ticket} : w.isLive t = true ↔ w.boxes[t]? = some .empty :=
  beq_iff_eq

/-- What the table is like when `gone` have given up since the last registration. -/
structure Tidy (w : Waiters) (gone : List Ticket) : Prop where
  keys_nodup : (w.queues.map (·.1)).Nodup
  no_empty : ∀ entry ∈ w.queues, entry.2 ≠ []
  nodup : w.queued.Nodup
  lt_next : ∀ t ∈ w.queued, t < w.next
  live_or_gone : ∀ t ∈ w.queued, w.isLive t = true ∨ t ∈ gone

theorem tidy_none : none.Tidy [] := by
  refine ⟨?_, ?_, ?_, ?_, ?_⟩ <;> simp [none, queued]

namespace Tidy

variable {w : Waiters} {gone : List Ticket}

/-- Each of those who do not wait any more is in one queue only and has given up. -/
theorem length_queued_le (h : w.Tidy gone) : w.queued.length ≤ w.count + gone.length := by
  have hover : w.queued.filter (!w.isLive ·) ⊆ gone := by
    intro t ht
    rw [List.mem_filter] at ht
    exact (h.live_or_gone t ht.1).resolve_left (by simpa using ht.2)
  have hle : (w.queued.filter (!w.isLive ·)).length ≤ gone.length :=
    (List.subperm_of_subset (h.nodup.filter _) hover).length_le
  calc w.queued.length
      = w.queued.countP w.isLive + w.queued.countP (!w.isLive ·) := by
        simpa using List.length_eq_countP_add_countP w.isLive (l := w.queued)
    _ ≤ w.count + gone.length := by
        rw [List.countP_eq_length_filter (p := (!w.isLive ·))]
        exact Nat.add_le_add_left hle _

theorem register (h : w.Tidy gone) (key : Key) : (w.register key).2.Tidy [] := by
  have hperm : (w.register key).2.queued.Perm (w.next :: w.queued.filter w.isLive) := by
    rw [← queued_sweep]
    exact perm_enqueue w.next
  -- The number of the new waiter is that of nobody in a queue, so its mailbox wakes nobody up.
  have hlt : ∀ t ∈ w.queued.filter w.isLive, t < w.next :=
    fun t ht => h.lt_next t (List.mem_of_mem_filter ht)
  refine ⟨keys_enqueue _ (keys_sweep _ h.keys_nodup), no_empty_enqueue _ w.no_empty_sweep, ?_, ?_,
    ?_⟩
  · rw [hperm.nodup_iff, List.nodup_cons]
    exact ⟨fun hmem => Nat.lt_irrefl _ (hlt _ hmem), h.nodup.filter _⟩
  · intro t ht
    rcases List.mem_cons.mp (hperm.mem_iff.mp ht) with rfl | ht
    · exact Nat.lt_succ_self _
    · exact Nat.lt_succ_of_lt (hlt t ht)
  · intro t ht
    have hboxes : (w.register key).2.boxes[t]? = if t = w.next then some .empty else w.boxes[t]? :=
      boxes_insert w w.next t .empty
    left
    rw [isLive_iff, hboxes]
    rcases List.mem_cons.mp (hperm.mem_iff.mp ht) with rfl | ht
    · exact if_pos rfl
    · rw [if_neg (Nat.ne_of_lt (hlt t ht))]
      exact isLive_iff.mp (List.mem_filter.mp ht).2

/-- Mailboxes change, and whoever stops waiting with that has given up. -/
theorem withBoxes (h : w.Tidy gone) {gone' : List Ticket} (boxes : Std.TreeMap Ticket Mailbox)
    (hgone : gone ⊆ gone')
    (hboxes : ∀ t, w.boxes[t]? = some .empty → boxes[t]? = some .empty ∨ t ∈ gone') :
    Tidy { w with boxes } gone' where
  keys_nodup := h.keys_nodup
  no_empty := h.no_empty
  nodup := h.nodup
  lt_next := h.lt_next
  live_or_gone t ht := by
    rw [isLive_iff]
    rcases h.live_or_gone t ht with hwaits | hmem
    · exact hboxes t (isLive_iff.mp hwaits)
    · exact .inr (hgone hmem)

theorem drop (h : w.Tidy gone) (t : Ticket) :
    (w.drop t).Tidy (if w.boxes[t]?.isSome then t :: gone else gone) := by
  refine h.withBoxes (w.boxes.erase t) ?_ fun u hu => ?_
  · split
    · exact List.subset_cons_self t gone
    · exact List.Subset.refl gone
  · rw [boxes_erase]
    by_cases hut : u = t
    · subst hut
      simp [hu]
    · rw [if_neg hut]
      exact .inl hu

theorem take (h : w.Tidy gone) (t : Ticket) : (w.take t).2.Tidy gone := by
  unfold Waiters.take
  split
  · rename_i f hbox
    refine h.withBoxes (w.boxes.insert t .closed) (List.Subset.refl gone) fun u hu => .inl ?_
    have hut : u ≠ t := by
      rintro rfl
      rw [hbox] at hu
      cases hu
    rw [boxes_insert, if_neg hut]
    exact hu
  · exact h

/-- Some go from the front of a queue. Nobody else stops waiting. -/
theorem cut (h : w.Tidy gone) {key : Key} {front queue : List Ticket}
    (hqueue : w.queueOf key = front ++ queue) (boxes : Std.TreeMap Ticket Mailbox)
    (hboxes : ∀ t ∉ front, w.boxes[t]? = some .empty → boxes[t]? = some .empty) :
    Tidy { w with queues := setQueue key queue w.queues, boxes } gone := by
  have hperm := perm_cut h.keys_nodup hqueue
  have hnodup := hperm.nodup_iff.mp h.nodup
  rw [List.nodup_append] at hnodup
  refine ⟨keys_setQueue key queue h.keys_nodup, no_empty_setQueue key queue h.no_empty, hnodup.2.1,
    ?_, ?_⟩
  · exact fun t ht => h.lt_next t (hperm.mem_iff.mpr (List.mem_append_right front ht))
  · intro t ht
    have hout : t ∉ front := fun hmem => hnodup.2.2 t hmem t ht rfl
    refine (h.live_or_gone t (hperm.mem_iff.mpr (List.mem_append_right front ht))).imp_left ?_
    rw [isLive_iff, isLive_iff]
    exact hboxes t hout

theorem complete (h : w.Tidy gone) (key : Key) (f : Frame) : (w.complete key f).2.Tidy gone := by
  have hqueue := List.takeWhile_append_dropWhile (p := (!w.isLive ·)) (l := w.queueOf key)
  unfold Waiters.complete
  rcases hd : (w.queueOf key).dropWhile (!w.isLive ·) with _ | ⟨t, queue⟩
  · rw [hd] at hqueue
    exact h.cut hqueue.symm w.boxes fun u _ hu => hu
  -- The one that gets the frame is the last to go. It has not given up, so nobody may be left in a
  -- queue under its number.
  · rw [hd, List.append_cons] at hqueue
    refine h.cut hqueue.symm (w.boxes.insert t (.holding f)) fun u hout hu => ?_
    have hut : u ≠ t := by
      rintro rfl
      simp at hout
    rw [boxes_insert, if_neg hut]
    exact hu

theorem cancelAll (gone : List Ticket) (w : Waiters) : w.cancelAll.Tidy gone := by
  refine ⟨?_, ?_, ?_, ?_, ?_⟩ <;> simp [Waiters.cancelAll, queued]

end Tidy

end Waiters

namespace Dispatcher

/-! ## Over a log -/

/-- Who has given up since the last registration, after one more operation. Without a mailbox there
is nothing to give up any more. -/
def noteGone (d : Dispatcher) (gone : List Ticket) : Operation → List Ticket
  | .register _ => []
  | .drop t => if (d.box t).isSome then t :: gone else gone
  | .take _ | .dispatch _ | .cancelAll => gone

/-- Who has given up since the last registration, after a log of operations. -/
def goneSince (d : Dispatcher) (gone : List Ticket) : List Operation → List Ticket
  | [] => gone
  | op :: log => (d.apply op).2.goneSince (d.noteGone gone op) log

variable {d : Dispatcher} {gone : List Ticket}

theorem tidy_apply (h : d.waiters.Tidy gone) (op : Operation) :
    (d.apply op).2.waiters.Tidy (d.noteGone gone op) := by
  cases op with
  | register key => exact h.register key
  | drop t => exact h.drop t
  | take t => exact h.take t
  | dispatch f => exact h.complete (replyKey f) f
  | cancelAll => exact .cancelAll gone d.waiters

theorem tidy_after (h : d.waiters.Tidy gone) (log : List Operation) :
    (d.after log).waiters.Tidy (d.goneSince gone log) := by
  induction log generalizing d gone with
  | nil => exact h
  | cons op log ih => exact ih (tidy_apply h op)

/-- After any operations no queue is empty, and no more are in the queues than those who still wait
and those who have given up since the last registration. Right after one more registration everyone
in a queue waits. -/
theorem waiters_do_not_pile_up (capacity : Nat) (log : List Operation) :
    let d := (empty capacity).after log
    (∀ key queue, (key, queue) ∈ d.waiters.queues → queue ≠ []) ∧
    (∀ key, let w := (d.apply (.register key)).2.waiters
      ∀ t ∈ w.queued, w.isLive t = true) ∧
    d.waiters.queued.length ≤
      d.waiters.count + ((empty capacity).goneSince [] log).length := by
  intro d
  have h : d.waiters.Tidy ((empty capacity).goneSince [] log) :=
    tidy_after Waiters.tidy_none log
  refine ⟨fun key queue hmem => h.no_empty _ hmem, ?_, h.length_queued_le⟩
  intro key w t ht
  exact ((h.register key).live_or_gone t ht).resolve_right List.not_mem_nil

/-- Two of three waiters have given up. All three are in the queues until the next registration, so
the bound is reached. -/
theorem two_who_gave_up_are_swept_later :
    let key : Key := ⟨.response, .af, 0x01⟩
    let other : Key := ⟨.notice, .zdo, 0xC1⟩
    let log : List Operation :=
      [.register key, .register key, .register other, .drop 0, .drop 2, .drop 2]
    let d := (empty 4).after log
    let w := (d.apply (.register other)).2.waiters
    d.waiters.queued = [0, 1, 2] ∧ d.waiters.count = 1 ∧
      (empty 4).goneSince [] log = [2, 0] ∧ d.waiters.queued.length ≤ d.waiters.count + 2 ∧
      w.queued = [1, 3] ∧ w.isLive 1 = true := by
  intro key other log d w
  obtain ⟨-, hlive, hlength⟩ := waiters_do_not_pile_up 4 log
  have hgone : (empty 4).goneSince [] log = [2, 0] := by decide
  rw [hgone] at hlength
  have hqueued : w.queued = [1, 3] := by decide
  exact ⟨by decide, by decide, hgone, hlength, hqueued, hlive other 1 (by decide)⟩

end Dispatcher

end ZigbeeGateway.Radio
