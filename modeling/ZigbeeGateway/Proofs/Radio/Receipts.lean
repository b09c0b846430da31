-- The radio's side of a run: which frames have come to it, which answers have come back, and who
-- waits for an answer when it comes in.
import ZigbeeGateway.Proofs.Radio.Endings
namespace ZigbeeGateway.Radio

/-! ## The radio's side of a run -/

/-- The call whose frame has come to the radio. -/
def Move.receipt? : Move → Option Nat
  | .receipt place => some place
  | _ => none

namespace Run

variable (run : Run)

/-- The calls whose frames have come to the radio with the first moves, in order. -/
def receipts (k : Nat) : List Nat := (run.log.take k).filterMap Move.receipt?

/-- The frames that come in with a move. -/
def heard (k : Nat) : List Frame :=
  match run.log[k]? with
  | some (.event (.data bs)) =>
    if (run.upTo k).client.reading then
      Stream.goodFrames (Stream.push (run.upTo k).client.held bs).1
    else []
  | _ => []

/-- The answers that have come in with the first moves, in order. -/
def answers (k : Nat) : List Frame :=
  ((List.range k).flatMap run.heard).filter (·.kind = .response)

/-- The answers that have come in with the first moves and with some frames of the next one. -/
def answersThen (k : Nat) (frames : List Frame) : List Frame :=
  run.answers k ++ frames.filter (·.kind = .response)

/-- The dispatcher after the first moves and some frames of the next one. -/
def dispatcherThen (k : Nat) (frames : List Frame) : Dispatcher :=
  (run.upTo k).client.dispatcher.dispatchAll frames

/-- A call waits for a frame of a key. -/
def Waits (d : Dispatcher) (p : Nat) (key : Key) : Prop :=
  ∃ name call, run.Begun p name call ∧ call.key? = some key ∧ d.box (run.ticket p) = some .empty

/-- A frame answers the frame that a call has written. An error report answers the request that it
names. -/
def Replies (p : Nat) (f : Frame) : Prop :=
  ∃ name call g, run.Begun p name call ∧ call.frame? = some g ∧
    Dispatcher.replyKey f = ⟨.response, g.subsystem, g.command⟩

variable {run} {k : Nat}

/-! ### One after the other -/

theorem receipts_succ {m : Move} (h : run.log[k]? = some m) :
    run.receipts (k + 1) = run.receipts k ++ m.receipt?.toList := by
  rw [receipts, receipts, List.take_add_one, h, List.filterMap_append]
  cases m <;> rfl

/-- A receipt is an earlier one or comes with the move. -/
theorem getElem?_receipts_succ {m : Move} (h : run.log[k]? = some m) {n p : Nat}
    (hn : (run.receipts (k + 1))[n]? = some p) :
    (run.receipts k)[n]? = some p ∨ m = .receipt p ∧ n = (run.receipts k).length := by
  rw [receipts_succ h] at hn
  by_cases hlt : n < (run.receipts k).length
  · rw [List.getElem?_append_left hlt] at hn
    exact .inl hn
  · rw [List.getElem?_append_right (Nat.le_of_not_lt hlt)] at hn
    cases m with
    | event | look => cases hn
    | receipt place =>
      obtain ⟨hone, rfl⟩ := List.getElem?_eq_some_iff.mp hn
      have hzero : n - (run.receipts k).length = 0 := Nat.lt_one_iff.mp hone
      exact .inr ⟨by simp [Move.receipt?, hzero], by omega⟩

theorem getElem?_receipts_succ_of_some {m : Move} (h : run.log[k]? = some m) {n p : Nat}
    (hn : (run.receipts k)[n]? = some p) : (run.receipts (k + 1))[n]? = some p := by
  rw [receipts_succ h, List.getElem?_append_left (List.getElem?_eq_some_iff.mp hn).1]
  exact hn

theorem receipts_succ_of_none (h : run.log[k]? = none) :
    run.receipts (k + 1) = run.receipts k := by
  rw [receipts, receipts, List.take_add_one, h]
  simp

theorem answers_succ (run : Run) (k : Nat) :
    run.answers (k + 1) = run.answersThen k (run.heard k) := by
  rw [answers, List.range_succ, List.flatMap_append, List.filter_append, List.flatMap_singleton]
  rfl

theorem getElem?_receipts_of_le {j n p : Nat} (hj : j ≤ k) (hn : (run.receipts j)[n]? = some p) :
    (run.receipts k)[n]? = some p := by
  induction k, hj using Nat.le_induction with
  | base => exact hn
  | succ k _ ih =>
    cases hm : run.log[k]? with
    | none =>
      rw [receipts_succ_of_none hm]
      exact ih
    | some m => exact getElem?_receipts_succ_of_some hm ih

theorem getElem?_answers_of_le {j n : Nat} {f : Frame} (hj : j ≤ k)
    (hn : (run.answers j)[n]? = some f) : (run.answers k)[n]? = some f := by
  induction k, hj using Nat.le_induction with
  | base => exact hn
  | succ k _ ih =>
    rw [answers_succ, answersThen, List.getElem?_append_left (List.getElem?_eq_some_iff.mp ih).1]
    exact ih

theorem heard_of_ne_data (h : ∀ bs, run.log[k]? ≠ some (.event (.data bs))) : run.heard k = [] := by
  unfold heard
  split
  · exact absurd ‹_› (h _)
  · rfl

theorem dispatcher_succ {bs : Bytes} (h : run.log[k]? = some (.event (.data bs))) :
    (run.upTo (k + 1)).client.dispatcher = run.dispatcherThen k (run.heard k) := by
  rw [upTo_succ h, heard, h]
  cases hreading : (run.upTo k).client.reading with
  | false =>
    simp [Session.move, Session.apply, Client.receive, hreading, dispatcherThen,
      Dispatcher.dispatchAll]
  | true =>
    rw [Session.move, Session.apply, Client.receive_eq hreading]
    rfl

theorem answersThen_snoc (k : Nat) (before : List Frame) (f : Frame) :
    run.answersThen k (before ++ [f]) =
      run.answersThen k before ++ if f.kind = .response then [f] else [] := by
  rw [answersThen, answersThen, List.filter_append, List.append_assoc]
  by_cases hf : f.kind = .response <;> simp [hf]

theorem dispatcherThen_snoc (k : Nat) (before : List Frame) (f : Frame) :
    run.dispatcherThen k (before ++ [f]) = ((run.dispatcherThen k before).dispatch f).2 := by
  rw [dispatcherThen, Dispatcher.dispatchAll, List.foldl_append]
  rfl

/-! ## Who waits -/

theorem Begun.place_unique {p p' : Nat} {name name' : String} {call call' : Call}
    (h : run.Begun p name call) (h' : run.Begun p' name' call') {key key' : Key}
    (hkey : call.key? = some key) (hkey' : call'.key? = some key')
    (hticket : run.ticket p = run.ticket p') : p = p' := by
  rcases Nat.lt_trichotomy p p' with hlt | heq | hlt
  · exact absurd hticket (Nat.ne_of_lt (ticket_lt h hkey hlt))
  · exact heq
  · exact absurd hticket (Nat.ne_of_gt (ticket_lt h' hkey' hlt))

/-- The room that a dispatcher serves after some frames of a move. -/
theorem exists_roomThen (run : Run) (k : Nat) (frames : List Frame) :
    ∃ room, (run.dispatcherThen k frames).waiters.Serves room ∧ room.Orderly ∧ room.InTurn := by
  obtain ⟨room, hserves, hroom, hturn⟩ := run.exists_room k
  exact (Dispatcher.Leads.dispatchAll _ frames).serves hserves hroom hturn

/-- Whoever stands in a line is the waiter of a call that waits for the key of the line. -/
theorem exists_waits {frames : List Frame} {room : WaitingRoom}
    (hserves : (run.dispatcherThen k frames).waiters.Serves room) (hroom : room.Orderly)
    {t : Ticket} {key : Key} (ht : t ∈ room.line key) :
    ∃ p, run.ticket p = t ∧ run.Waits (run.dispatcherThen k frames) p key := by
  have hempty : room.box t = some .empty :=
    (hroom.waits_iff t).mp (WaitingRoom.mem_tickets.mpr ⟨key, ht⟩)
  -- The books are those of the session before the frames come in.
  obtain ⟨calls, results, before, h⟩ := exists_books run k
  have hserves' : (run.dispatcherThen k frames).waiters.Serves (before.dispatchAll frames) :=
    Dispatcher.serves_dispatchAll h.serves frames
  have hbox : (before.dispatchAll frames).box t = some .empty :=
    ((hserves'.box_eq t).symm.trans (hserves.box_eq t)).trans hempty
  have hbefore : before.box t = some .empty := by
    by_contra hne
    rw [WaitingRoom.box_dispatchAll_settled h.orderly hne] at hbox
    exact hne hbox
  obtain ⟨c, hc, htc⟩ := mem_ticketsOf.mp (h.owned t (by simp [hbefore]))
  obtain ⟨-, hbegun, hgoing⟩ := h.going c hc
  obtain ⟨key', hkey', hmailed⟩ := h.mailed c hc t htc
  obtain rfl := hgoing.ticket?_eq htc
  have hline : run.ticket c.1 ∈ before.line key' := by
    cases hmailed with
    | waits hline => exact hline
    | holds hholds => simp [hbefore] at hholds
    | closed hclosed => simp [hbefore] at hclosed
  rcases WaitingRoom.line_dispatchAll h.orderly hline frames with hline' | ⟨f, -, -, hholds⟩
  · rw [← hserves'.line_eq, hserves.line_eq] at hline'
    obtain rfl := hroom.key_unique hline' ht
    exact ⟨c.1, rfl, c.2.name, c.2.call, hbegun, hkey', (hserves.box_eq _).trans hempty⟩
  · rw [hbox] at hholds
    cases hholds

/-- A call that waits for a key stands in the line of the key. -/
theorem Waits.mem_line {frames : List Frame} {room : WaitingRoom}
    (hserves : (run.dispatcherThen k frames).waiters.Serves room) (hroom : room.Orderly)
    {p : Nat} {key : Key} (h : run.Waits (run.dispatcherThen k frames) p key) :
    run.ticket p ∈ room.line key := by
  obtain ⟨name, call, hbegun, hkey, hbox⟩ := h
  have hempty : room.box (run.ticket p) = some .empty := (hserves.box_eq _).symm.trans hbox
  obtain ⟨key', hline⟩ := WaitingRoom.mem_tickets.mp ((hroom.waits_iff _).mpr hempty)
  obtain ⟨p', hticket, name', call', hbegun', hkey', -⟩ := exists_waits hserves hroom hline
  obtain rfl := hbegun'.place_unique hbegun hkey' hkey hticket
  obtain ⟨-, rfl⟩ := hbegun.unique hbegun'
  rw [hkey] at hkey'
  cases hkey'
  exact hline

/-! ## A frame comes in -/

theorem kind_of_replyKey {f : Frame} (h : (Dispatcher.replyKey f).kind = .response) :
    f.kind = .response := by
  unfold Dispatcher.replyKey at h
  split at h
  · assumption
  · exact h

/-- Whoever waits and is answered waits for the answer. -/
theorem Replies.key_eq {p : Nat} {f : Frame} (h : run.Replies p f) {name : String} {call : Call}
    (hbegun : run.Begun p name call) {key : Key} (hkey : call.key? = some key) :
    key = Dispatcher.replyKey f := by
  obtain ⟨name', call', g, hbegun', hframe, hreply⟩ := h
  obtain ⟨-, rfl⟩ := hbegun.unique hbegun'
  rcases Call.cases_of_key hkey with ⟨r, hrequest, rfl⟩ | rfl
  · rw [Call.frame?_of_request hrequest] at hframe
    cases hframe
    exact hreply.symm
  · cases hframe

section Delivery

variable {d : Dispatcher} {room : WaitingRoom} {f : Frame}

theorem box_dispatch_of_nil (hserves : d.waiters.Serves room)
    (hline : room.line (Dispatcher.replyKey f) = []) (t : Ticket) :
    (d.dispatch f).2.box t = d.box t := by
  rw [Dispatcher.box_dispatch hserves, WaitingRoom.dispatch, hline]
  exact (hserves.box_eq t).symm

theorem box_dispatch_of_cons (hserves : d.waiters.Serves room) {t : Ticket} {rest : List Ticket}
    (hline : room.line (Dispatcher.replyKey f) = t :: rest) (u : Ticket) :
    (d.dispatch f).2.box u = if u = t then some (.holding f) else d.box u := by
  rw [Dispatcher.box_dispatch hserves, WaitingRoom.dispatch, hline]
  exact (Function.update_apply ..).trans (by rw [← hserves.box_eq u]; rfl)

end Delivery

/-- A mailbox changes only if its owner waits in front of the line of the frame. -/
theorem box_hear {before : List Frame} {room : WaitingRoom}
    (hserves : (run.dispatcherThen k before).waiters.Serves room) (hroom : room.Orderly)
    (f : Frame) (t : Ticket) :
    ((run.dispatcherThen k before).dispatch f).2.box t = (run.dispatcherThen k before).box t ∨
      ((run.dispatcherThen k before).dispatch f).2.box t = some (.holding f) ∧ ∃ p rest,
        run.ticket p = t ∧ room.line (Dispatcher.replyKey f) = run.ticket p :: rest ∧
        run.Waits (run.dispatcherThen k before) p (Dispatcher.replyKey f) := by
  cases hline : room.line (Dispatcher.replyKey f) with
  | nil => exact .inl (box_dispatch_of_nil hserves hline t)
  | cons u rest =>
    rw [box_dispatch_of_cons hserves hline]
    by_cases htu : t = u
    · obtain ⟨p, rfl, hwaits⟩ := exists_waits hserves hroom (hline ▸ List.mem_cons_self)
      exact .inr ⟨if_pos htu, p, rest, htu.symm, rfl, hwaits⟩
    · exact .inl (if_neg htu)

/-! ## Moves without frames -/

/-- A frame that is in a mailbox has not come with such a move. -/
theorem box_holding_of_succ (hquiet : ∀ bs, run.log[k]? ≠ some (.event (.data bs))) {t : Ticket}
    {f : Frame} (hbox : run.box (k + 1) t = some (.holding f)) :
    run.box k t = some (.holding f) := by
  obtain ⟨calls, results, room, h⟩ := exists_books run (k + 1)
  have hroom : room.box t = some (.holding f) := (h.serves.box_eq t).symm.trans hbox
  obtain ⟨c, hc, htc⟩ := mem_ticketsOf.mp (h.owned t (by simp [hroom]))
  obtain ⟨key, -, hmailed⟩ := h.mailed c hc t htc
  obtain rfl := (h.going c hc).2.2.ticket?_eq htc
  cases hmailed with
  | waits hline =>
    rw [(h.orderly.waits_iff _).mp (WaitingRoom.mem_tickets.mpr ⟨key, hline⟩)] at hroom
    cases hroom
  | closed hclosed =>
    rw [hclosed] at hroom
    cases hroom
  | @holds f' q hholds _ _ hq hdelivers =>
    rw [hholds] at hroom
    cases hroom
    obtain ⟨bs, hdata, -⟩ := hdelivers.arrives
    have hqk : q < k := by
      refine Nat.lt_of_le_of_ne (Nat.le_of_lt_succ hq) ?_
      rintro rfl
      exact hquiet bs hdata
    have hgot := hdelivers.after
    have hlt : run.ticket c.1 < run.ticket (q + 1) := lt_ticket (by simp [hgot])
    have hne : run.box (q + 1) (run.ticket c.1) ≠ some .empty := by simp [hgot]
    rcases box_settled hqk hlt hne with hsame | hnone
    · exact hsame.trans hgot
    · rw [box_eq_none (Nat.le_succ k) (Nat.lt_of_lt_of_le hlt (ticket_mono hqk)) hnone] at hbox
      cases hbox

end Run

end ZigbeeGateway.Radio
