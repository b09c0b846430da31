-- Answers carry no number, so a request takes whatever answer comes for its subsystem and command.
-- The answer is its own if, for this subsystem and command, those that have waited longer have come
-- to the radio before it and nobody has given up in the meantime. A late answer, or a listener in
-- between, leads to a wrong one, until nobody waits any more.
import Mathlib.Data.List.Induction
import Mathlib.Tactic.IntervalCases
import ZigbeeGateway.Proofs.Radio.Receipts
namespace ZigbeeGateway.Radio

namespace Run

/-! ## Answering -/

section Answering

variable (run : Run)

/-- The radio gets requests that calls have written, each of them once, and answers them in the
order in which it gets them, as late as it likes. -/
structure Answering : Prop where
  receipt : ∀ k p, run.log[k]? = some (.receipt p) → p < k ∧ p ∉ run.receipts k ∧
    ∃ name call f, run.Begun p name call ∧ call.frame? = some f ∧ f.kind = .request
  answer : ∀ k before f after, run.heard k = before ++ f :: after → f.kind = .response →
    ∃ p, (run.receipts k)[(run.answersThen k before).length]? = some p ∧ run.Replies p f

/-- When an answer of the key comes in with a move, the call that it is for still waits, or nobody
waits for the key. -/
def InTime (key : Key) (k : Nat) : Prop :=
  ∀ before f after, run.heard k = before ++ f :: after → f.kind = .response →
    Dispatcher.replyKey f = key →
    ∀ p, (run.receipts k)[(run.answersThen k before).length]? = some p →
      run.Waits (run.dispatcherThen k before) p key ∨
        ∀ p', ¬ run.Waits (run.dispatcherThen k before) p' key

/-- When the frame of a call that waits for the key comes to the radio with a move, those who have
waited longer for the key have had theirs come there before. -/
def InTurn (key : Key) (k : Nat) : Prop :=
  ∀ p, run.log[k]? = some (.receipt p) → run.Waits (run.upTo k).client.dispatcher p key →
    ∀ p' < p, run.Waits (run.upTo k).client.dispatcher p' key → p' ∈ run.receipts k

/-- From the move `i`, before which nobody waits for the key, up to the move `k` nothing disturbs
those who wait for it. What becomes of other keys makes no difference. -/
structure Undisturbed (key : Key) (i k : Nat) : Prop where
  quiet : ∀ p, ¬ run.Waits (run.upTo i).client.dispatcher p key
  inTime : ∀ j, i ≤ j → j < k → run.InTime key j
  inTurn : ∀ j, i ≤ j → j < k → run.InTurn key j

/-- Nothing has disturbed those who wait for the same answer as a request, since a move before it
was begun. -/
def Sure (k p : Nat) (r : Request) : Prop := ∃ i ≤ p, run.Undisturbed r.replyKey i k

/-- A frame is the answer to the frame of a call: it has the same place among the answers as the
call among the receipts. -/
def AnswersTo (k p : Nat) (f : Frame) : Prop :=
  ∃ n : Nat, (run.receipts k)[n]? = some p ∧ (run.answers k)[n]? = some f

/-- Each request that has succeeded has done so with the payload of the answer to it, if it is one
of those that are sure to. -/
def OwnAnswers (k : Nat) (sure : Nat → Request → Prop) : Prop :=
  ∃ results : List (Nat × Ended), results.map (·.2) = (run.upTo k).ended ∧
    (results.map (·.1)).Nodup ∧ ∀ e ∈ results, ∃ call, run.Begun e.1 e.2.name call ∧
      ∀ r o, call.request? = .ok (some r) → sure e.1 r → e.2.result = .ok o →
        ∃ f, run.Answered k e.1 e.2.name call f ∧ run.AnswersTo k e.1 f ∧
          f.subsystem ≠ .rpcError ∧ call.read f.payload = .ok o

end Answering

variable {run : Run} {key : Key} {i k : Nat}

namespace Answering

theorem lt_of_mem (h : run.Answering) {p : Nat} (hp : p ∈ run.receipts k) : p < k := by
  obtain ⟨m, hm, hreceipt⟩ := List.mem_filterMap.mp hp
  obtain ⟨i, hi⟩ := List.mem_iff_getElem?.mp hm
  cases m with
  | receipt place =>
    cases hreceipt
    rw [List.getElem?_take] at hi
    split at hi
    · exact Nat.lt_trans (h.receipt i _ hi).1 ‹_›
    · cases hi
  | event | look => cases hreceipt

/-- An answer more is an answer to a frame that has come to the radio. -/
theorem length_answersThen_le (h : run.Answering)
    (hle : (run.answers k).length ≤ (run.receipts k).length) (before after : List Frame)
    (hheard : run.heard k = before ++ after) :
    (run.answersThen k before).length ≤ (run.receipts k).length := by
  induction before using List.reverseRecOn generalizing after with
  | nil => rwa [answersThen, List.filter_nil, List.append_nil]
  | append_singleton before f ih =>
    rw [List.append_assoc, List.singleton_append] at hheard
    rw [answersThen_snoc]
    by_cases hresponse : f.kind = .response
    · obtain ⟨p, hp, -⟩ := h.answer k before f after hheard hresponse
      rw [if_pos hresponse, List.length_append, List.length_singleton]
      exact (List.getElem?_eq_some_iff.mp hp).1
    · rw [if_neg hresponse, List.append_nil]
      exact ih _ hheard

/-- There are never more answers than frames that have come to the radio. -/
theorem length_answers_le (h : run.Answering) (k : Nat) :
    (run.answers k).length ≤ (run.receipts k).length := by
  induction k with
  | zero => exact Nat.le_refl _
  | succ k ih =>
    have hnow := h.length_answersThen_le ih (run.heard k) [] (List.append_nil _).symm
    rw [answers_succ]
    cases hm : run.log[k]? with
    | none => rwa [receipts_succ_of_none hm]
    | some m =>
      rw [receipts_succ hm, List.length_append]
      exact Nat.le_add_right_of_le hnow

end Answering

/-! ## Frames that come in -/

/-- Receipts and answers fit together for a key, and every request from a place of the log on that
has a frame of the key has its own answer. -/
structure Paired (run : Run) (key : Key) (i : Nat) (receipts : List Nat) (answers : List Frame)
    (d : Dispatcher) : Prop where
  /-- Whose answer has come in does not wait. -/
  answered : ∀ p n : Nat, n < answers.length → receipts[n]? = some p → ¬ run.Waits d p key
  /-- Of those who wait for the key, the longest waiting come first among the receipts. -/
  inTurn : ∀ p p' n : Nat, run.Waits d p key → run.Waits d p' key → p' < p →
    receipts[n]? = some p → ∃ n' < n, receipts[n']? = some p'
  own : ∀ p name call r f, i ≤ p → run.Begun p name call → call.request? = .ok (some r) →
    r.replyKey = key → d.box (run.ticket p) = some (.holding f) →
      ∃ n : Nat, receipts[n]? = some p ∧ answers[n]? = some f

/-- Before anybody waits for the key, everything fits. -/
theorem Paired.start (h : ∀ p, ¬ run.Waits (run.upTo i).client.dispatcher p key) :
    run.Paired key i (run.receipts i) (run.answers i) (run.upTo i).client.dispatcher where
  answered p _ _ _ := h p
  inTurn p _ _ hp := absurd hp (h p)
  own p name call r f hp _ _ _ hholds := by
    have hholds' : run.box i (run.ticket p) = some (.holding f) := hholds
    have hlt : run.ticket p < run.ticket i := lt_ticket (by simp [hholds'])
    exact absurd (ticket_mono hp) (Nat.not_le.mpr hlt)

/-- The one in front of the line of an answer is the one whom the answer is for. -/
theorem front_is_due (h : run.Answering) (h' : run.InTime key k) {before after : List Frame}
    {f : Frame} (hheard : run.heard k = before ++ f :: after) (hresponse : f.kind = .response)
    (hkey : Dispatcher.replyKey f = key)
    (hpaired : run.Paired key i (run.receipts k) (run.answersThen k before)
      (run.dispatcherThen k before))
    {room : WaitingRoom} (hserves : (run.dispatcherThen k before).waiters.Serves room)
    (hroom : room.Orderly) (hturn : room.InTurn) {p : Nat} {rest : List Ticket}
    (hline : room.line key = run.ticket p :: rest)
    (hwaits : run.Waits (run.dispatcherThen k before) p key) :
    (run.receipts k)[(run.answersThen k before).length]? = some p := by
  obtain ⟨q, hq, -⟩ := h.answer k before f after hheard hresponse
  have hqwaits : run.Waits (run.dispatcherThen k before) q key :=
    (h' before f after hheard hresponse hkey q hq).resolve_right fun hnone => hnone p hwaits
  have hle := hturn.front_le hline (hqwaits.mem_line hserves hroom)
  rcases Nat.lt_trichotomy p q with hlt | rfl | hlt
  · -- Then the front would have come to the radio before, and its answer would have come in.
    obtain ⟨n, hn, hp⟩ := hpaired.inTurn q p _ hqwaits hwaits hlt hq
    exact absurd hwaits (hpaired.answered p n hn hp)
  · exact hq
  · obtain ⟨name, call, hbegun, hkey, -⟩ := hqwaits
    exact absurd hle (Nat.not_le.mpr (ticket_lt hbegun hkey hlt))

/-- Nobody starts to wait because a frame comes in. -/
theorem waits_of_dispatch {before : List Frame} {f : Frame} {p : Nat} {key : Key}
    (h : run.Waits ((run.dispatcherThen k before).dispatch f).2 p key) :
    run.Waits (run.dispatcherThen k before) p key := by
  obtain ⟨room, hserves, hroom, -⟩ := run.exists_roomThen k before
  obtain ⟨name, call, hbegun, hkey, hempty⟩ := h
  refine ⟨name, call, hbegun, hkey, ?_⟩
  rcases box_hear hserves hroom f (run.ticket p) with hsame | ⟨hholds, -⟩
  · rwa [hsame] at hempty
  · rw [hempty] at hholds
    cases hholds

/-- The one whom an answer is for does not wait for the key any more when it has come in. -/
theorem not_waits_of_answer (h : run.Answering) (h' : run.InTime key k) {before after : List Frame}
    {f : Frame} (hheard : run.heard k = before ++ f :: after) (hresponse : f.kind = .response)
    (hpaired : run.Paired key i (run.receipts k) (run.answersThen k before)
      (run.dispatcherThen k before))
    {p : Nat} (hp : (run.receipts k)[(run.answersThen k before).length]? = some p) :
    ¬ run.Waits ((run.dispatcherThen k before).dispatch f).2 p key := by
  intro hwaits
  obtain ⟨room, hserves, hroom, hturn⟩ := run.exists_roomThen k before
  have hstands := (waits_of_dispatch hwaits).mem_line hserves hroom
  obtain ⟨name, call, hbegun, hcall, hempty⟩ := hwaits
  obtain ⟨q, hq, hreplies⟩ := h.answer k before f after hheard hresponse
  obtain rfl : q = p := Option.some.inj (hq.symm.trans hp)
  have hkey : Dispatcher.replyKey f = key := (hreplies.key_eq hbegun hcall).symm
  cases hline : room.line key with
  | nil =>
    rw [hline] at hstands
    cases hstands
  | cons u rest =>
    obtain ⟨p, rfl, hfront⟩ := exists_waits hserves hroom (hline ▸ List.mem_cons_self)
    have hdue := front_is_due h h' hheard hresponse hkey hpaired hserves hroom hturn hline hfront
    obtain rfl : q = p := Option.some.inj (hq.symm.trans hdue)
    rw [box_dispatch_of_cons hserves (hkey ▸ hline), if_pos rfl] at hempty
    cases hempty

namespace Paired

/-- An answer comes in. -/
theorem hearAnswer (h : run.Answering) (h' : run.InTime key k) {before after : List Frame}
    {f : Frame} (hheard : run.heard k = before ++ f :: after) (hresponse : f.kind = .response)
    (hpaired : run.Paired key i (run.receipts k) (run.answersThen k before)
      (run.dispatcherThen k before)) :
    run.Paired key i (run.receipts k) (run.answersThen k before ++ [f])
      ((run.dispatcherThen k before).dispatch f).2 where
  answered p n hn hp hwaits := by
    rw [List.length_append, List.length_singleton] at hn
    rcases Nat.lt_succ_iff_lt_or_eq.mp hn with hn | rfl
    · exact hpaired.answered p n hn hp (waits_of_dispatch hwaits)
    · exact not_waits_of_answer h h' hheard hresponse hpaired hp hwaits
  inTurn p p' n hp hp' :=
    hpaired.inTurn p p' n (waits_of_dispatch hp) (waits_of_dispatch hp')
  own p name call r g hi hbegun hrequest hkey hholds := by
    obtain ⟨room, hserves, hroom, hturn⟩ := run.exists_roomThen k before
    rcases box_hear hserves hroom f (run.ticket p) with
      hsame | ⟨hgets, p', rest, hticket, hline, hwaits⟩
    · obtain ⟨n, hn, hg⟩ := hpaired.own p name call r g hi hbegun hrequest hkey (hsame ▸ hholds)
      refine ⟨n, hn, ?_⟩
      rw [List.getElem?_append_left (List.getElem?_eq_some_iff.mp hg).1]
      exact hg
    · obtain ⟨name', call', hbegun', hkey', -⟩ := id hwaits
      have hcall := Call.key?_of_request hrequest
      obtain rfl := hbegun'.place_unique hbegun hkey' hcall hticket
      obtain ⟨-, rfl⟩ := hbegun.unique hbegun'
      obtain rfl : Dispatcher.replyKey f = key :=
        (Option.some.inj (hkey'.symm.trans hcall)).trans hkey
      have hdue := front_is_due h h' hheard hresponse rfl hpaired hserves hroom hturn hline hwaits
      rw [hholds] at hgets
      cases hgets
      exact ⟨_, hdue, List.getElem?_concat_length⟩

/-- A frame comes in that is no answer. No request gets it. -/
theorem hearOther {before : List Frame} {f : Frame} (hother : f.kind ≠ .response)
    (hpaired : run.Paired key i (run.receipts k) (run.answersThen k before)
      (run.dispatcherThen k before)) :
    run.Paired key i (run.receipts k) (run.answersThen k before)
      ((run.dispatcherThen k before).dispatch f).2 where
  answered p n hn hp hwaits := hpaired.answered p n hn hp (waits_of_dispatch hwaits)
  inTurn p p' n hp hp' :=
    hpaired.inTurn p p' n (waits_of_dispatch hp) (waits_of_dispatch hp')
  own p name call r g hi hbegun hrequest hkey hholds := by
    obtain ⟨room, hserves, hroom, -⟩ := run.exists_roomThen k before
    rcases box_hear hserves hroom f (run.ticket p) with
      hsame | ⟨-, p', rest, hticket, -, name', call', hbegun', hkey', -⟩
    · exact hpaired.own p name call r g hi hbegun hrequest hkey (hsame ▸ hholds)
    · have hcall := Call.key?_of_request hrequest
      obtain rfl := hbegun'.place_unique hbegun hkey' hcall hticket
      obtain ⟨-, rfl⟩ := hbegun.unique hbegun'
      rw [hcall] at hkey'
      exact absurd (kind_of_replyKey (by rw [← Option.some.inj hkey']; rfl)) hother

/-- A frame comes in. -/
theorem hear (h : run.Answering) (h' : run.InTime key k) {before after : List Frame}
    {f : Frame} (hheard : run.heard k = before ++ f :: after)
    (hpaired : run.Paired key i (run.receipts k) (run.answersThen k before)
      (run.dispatcherThen k before)) :
    run.Paired key i (run.receipts k) (run.answersThen k (before ++ [f]))
      (run.dispatcherThen k (before ++ [f])) := by
  rw [answersThen_snoc, dispatcherThen_snoc]
  by_cases hresponse : f.kind = .response
  · rw [if_pos hresponse]
    exact hpaired.hearAnswer h h' hheard hresponse
  · rw [if_neg hresponse, List.append_nil]
    exact hpaired.hearOther hresponse

/-- All the frames of a move come in. -/
theorem hearAll (h : run.Answering) (h' : run.InTime key k)
    (hpaired : run.Paired key i (run.receipts k) (run.answers k)
      (run.upTo k).client.dispatcher) :
    run.Paired key i (run.receipts k) (run.answersThen k (run.heard k))
      (run.dispatcherThen k (run.heard k)) := by
  have hfront : ∀ before after, run.heard k = before ++ after →
      run.Paired key i (run.receipts k) (run.answersThen k before)
        (run.dispatcherThen k before) := by
    intro before
    induction before using List.reverseRecOn with
    | nil =>
      intro after _
      rw [answersThen, List.filter_nil, List.append_nil]
      exact hpaired
    | append_singleton before f ih =>
      intro after hheard
      rw [List.append_assoc, List.singleton_append] at hheard
      exact (ih _ hheard).hear h h' hheard
  exact hfront _ [] (List.append_nil _).symm

end Paired

/-! ## Moves without frames -/

/-- A move without frames leaves everything in its place. -/
theorem Paired.move (h : run.Answering) (h' : run.InTurn key k) {m : Move}
    (hm : run.log[k]? = some m) (hquiet : ∀ bs, m ≠ .event (.data bs))
    (hpaired : run.Paired key i (run.receipts k) (run.answers k)
      (run.upTo k).client.dispatcher) :
    run.Paired key i (run.receipts (k + 1)) (run.answers k)
      (run.upTo (k + 1)).client.dispatcher := by
  have hwaits {p : Nat} (hp : p < k)
      (hlater : run.Waits (run.upTo (k + 1)).client.dispatcher p key) :
      run.Waits (run.upTo k).client.dispatcher p key := by
    obtain ⟨name, call, hbegun, hkey, hempty⟩ := hlater
    exact ⟨name, call, hbegun, hkey,
      box_empty_of_le (Nat.le_succ k) (ticket_lt hbegun hkey hp) hempty⟩
  have hmem {n p : Nat} (hn : (run.receipts k)[n]? = some p) : p < k :=
    h.lt_of_mem (List.mem_of_getElem? hn)
  refine ⟨fun p n hn hp hpwaits => ?_, fun p p' n hp hp' hlt hn => ?_, ?_⟩
  · rcases getElem?_receipts_succ hm hp with hp | ⟨-, rfl⟩
    · exact hpaired.answered p n hn hp (hwaits (hmem hp) hpwaits)
    · exact absurd (h.length_answers_le k) (Nat.not_le.mpr hn)
  · rcases getElem?_receipts_succ hm hn with hn | ⟨rfl, rfl⟩
    · obtain ⟨n', hn', hearlier⟩ := hpaired.inTurn p p' n (hwaits (hmem hn) hp)
        (hwaits (Nat.lt_trans hlt (hmem hn)) hp') hlt hn
      exact ⟨n', hn', getElem?_receipts_succ_of_some hm hearlier⟩
    · have hpk := (h.receipt k p hm).1
      obtain ⟨n', hn'⟩ := List.mem_iff_getElem?.mp (h' p hm (hwaits hpk hp) p' hlt
        (hwaits (Nat.lt_trans hlt hpk) hp'))
      exact ⟨n', (List.getElem?_eq_some_iff.mp hn').1, getElem?_receipts_succ_of_some hm hn'⟩
  · intro p name call r f hi hbegun hrequest hkey hholds
    obtain ⟨n, hn, hf⟩ := hpaired.own p name call r f hi hbegun hrequest hkey
      (box_holding_of_succ (fun bs hbs => hquiet bs (Option.some.inj (hm.symm.trans hbs))) hholds)
    exact ⟨n, getElem?_receipts_succ_of_some hm hn, hf⟩

/-- As long as nothing disturbs those who wait for the key, receipts and answers fit together. -/
theorem Undisturbed.paired (h' : run.Undisturbed key i k) (h : run.Answering) {j : Nat}
    (hij : i ≤ j) (hjk : j ≤ k) :
    run.Paired key i (run.receipts j) (run.answers j) (run.upTo j).client.dispatcher := by
  induction j, hij using Nat.le_induction with
  | base => exact .start h'.quiet
  | succ j hij ih =>
    have hpaired := ih (Nat.le_of_succ_le hjk)
    cases hm : run.log[j]? with
    | none =>
      have hquiet : run.heard j = [] := heard_of_ne_data fun bs hbs => nomatch hm.symm.trans hbs
      rw [receipts_succ_of_none hm, answers_succ, hquiet, upTo_succ_of_none hm]
      simpa [answersThen] using hpaired
    | some m =>
      by_cases hdata : ∃ bs, m = .event (.data bs)
      · obtain ⟨bs, rfl⟩ := hdata
        rw [receipts_succ hm, answers_succ, dispatcher_succ hm]
        simpa [Move.receipt?] using hpaired.hearAll h (h'.inTime j hij hjk)
      · have hquiet : ∀ bs, m ≠ .event (.data bs) := fun bs hbs => hdata ⟨bs, hbs⟩
        have hheard : run.heard j = [] :=
          heard_of_ne_data fun bs hbs => hquiet bs (Option.some.inj (hm.symm.trans hbs))
        rw [answers_succ, hheard]
        simpa [answersThen] using hpaired.move h (h'.inTurn j hij hjk) hm hquiet

/-! ## The law -/

/-- If the radio answers what it gets in order, then a request that succeeds does so with the
payload of the answer to it, provided that nothing has disturbed those who wait for the same
answer. -/
theorem requests_get_their_own_answers (h : run.Answering) (k : Nat) :
    run.OwnAnswers k (run.Sure k) := by
  obtain ⟨calls, results, room, hbooks⟩ := exists_books run k
  refine ⟨results, hbooks.ended, hbooks.places.of_append_right, fun e he => ?_⟩
  obtain ⟨-, call, hbegun, d, hd, -, hends⟩ := hbooks.ends e he
  refine ⟨call, hbegun, fun r o hrequest hsure hresult => ?_⟩
  obtain ⟨i, hi, h'⟩ := hsure
  obtain ⟨f, hanswered, hreport, hread⟩ := (hends.mono hd).succeeds hrequest hresult
  refine ⟨f, hanswered, ?_, hreport, hread⟩
  obtain ⟨-, q, j, hj, -, -, hpq, hqj, -, hholds⟩ := hanswered
  have hij : i ≤ j := by omega
  obtain ⟨n, hn, hf⟩ := (h'.paired h hij (Nat.le_of_lt hj)).own _ _ _ r f hi hbegun hrequest rfl
    hholds
  exact ⟨n, getElem?_receipts_of_le (Nat.le_of_lt hj) hn,
    getElem?_answers_of_le (Nat.le_of_lt hj) hf⟩

/-! ## Runs in which frames come in one by one -/

/-- If only one frame comes in, no other has come in before it. -/
theorem only_frame {g f : Frame} {before after : List Frame} (h : [g] = before ++ f :: after) :
    before = [] ∧ g = f := by
  cases before with
  | nil => exact ⟨rfl, (List.cons.inj h).1⟩
  | cons b before => exact absurd (List.cons.inj h).2 (by simp)

theorem exists_data_of_heard {before after : List Frame} {f : Frame}
    (h : run.heard k = before ++ f :: after) :
    ∃ bs, run.log[k]? = some (.event (.data bs)) := by
  by_contra hnone
  rw [heard_of_ne_data fun bs hbs => hnone ⟨bs, hbs⟩] at h
  exact List.append_ne_nil_of_right_ne_nil _ (by simp) h.symm

/-- If only one frame comes in with a move, all others have come in with the moves before. -/
theorem only_frame_heard {g f : Frame} {before after : List Frame} (hone : run.heard k = [g])
    (h : run.heard k = before ++ f :: after) :
    f = g ∧ run.answersThen k before = run.answers k ∧
      run.dispatcherThen k before = (run.upTo k).client.dispatcher := by
  obtain ⟨rfl, rfl⟩ := only_frame (hone.symm.trans h)
  exact ⟨rfl, List.append_nil _, rfl⟩

theorem answering_of_singles
    (hreceipt : ∀ k p, run.log[k]? = some (.receipt p) → p < k ∧ p ∉ run.receipts k ∧
      ∃ name call f, run.Begun p name call ∧ call.frame? = some f ∧ f.kind = .request)
    (hdata : ∀ k bs, run.log[k]? = some (.event (.data bs)) → ∃ f p, run.heard k = [f] ∧
      (run.receipts k)[(run.answers k).length]? = some p ∧ run.Replies p f) : run.Answering where
  receipt := hreceipt
  answer k before f after h _ := by
    obtain ⟨bs, hbs⟩ := exists_data_of_heard h
    obtain ⟨g, p, hone, hp, hreplies⟩ := hdata k bs hbs
    obtain ⟨rfl, hanswers, -⟩ := only_frame_heard hone h
    exact ⟨p, hanswers ▸ hp, hreplies⟩

theorem undisturbed_of_singles
    (hquiet : ∀ p, ¬ run.Waits (run.upTo i).client.dispatcher p key)
    (hdata : ∀ j bs, i ≤ j → j < k → run.log[j]? = some (.event (.data bs)) →
      ∃ f, run.heard j = [f] ∧ (Dispatcher.replyKey f = key →
        ∃ p, (run.receipts j)[(run.answers j).length]? = some p ∧
          run.Waits (run.upTo j).client.dispatcher p key))
    (hturn : ∀ j p, i ≤ j → j < k → run.log[j]? = some (.receipt p) →
      ∀ p' < p, ¬ run.Waits (run.upTo j).client.dispatcher p' key) :
    run.Undisturbed key i k where
  quiet := hquiet
  inTime j hi hk before f after h _ hkey p hp := by
    obtain ⟨bs, hbs⟩ := exists_data_of_heard h
    obtain ⟨g, hone, hwaits⟩ := hdata j bs hi hk hbs
    obtain ⟨rfl, hanswers, hdispatcher⟩ := only_frame_heard hone h
    obtain ⟨q, hq, hwaits⟩ := hwaits hkey
    rw [hanswers, hq] at hp
    cases hp
    rw [hdispatcher]
    exact .inl hwaits
  inTurn j hi hk p h _ p' hp hwaits := absurd hwaits (hturn j p hi hk h p' hp)

theorem not_waits_of_box {d : Dispatcher} {p : Nat} {key : Key}
    (h : d.box (run.ticket p) = none) : ¬ run.Waits d p key := by
  rintro ⟨name, call, -, -, hbox⟩
  rw [h] at hbox
  cases hbox

theorem not_ownAnswers {name : String} {o : Outcome} (hended : ⟨name, .ok o⟩ ∈ (run.upTo k).ended)
    {p : Nat} {call : Call} {r : Request}
    (hbegun : ∀ p' call', run.Begun p' name call' → p' = p ∧ call' = call)
    (hrequest : call.request? = .ok (some r))
    (hwrong : ∀ f, run.AnswersTo k p f → call.read f.payload ≠ .ok o) :
    ¬ run.OwnAnswers k fun _ _ => True := by
  rintro ⟨results, hresults, -, hown⟩
  rw [← hresults] at hended
  obtain ⟨⟨p', e⟩, he, rfl⟩ := List.mem_map.mp hended
  obtain ⟨call', hcall', hanswers⟩ := hown _ he
  obtain ⟨rfl, rfl⟩ := hbegun _ _ hcall'
  obtain ⟨f, -, hf, -, hread⟩ := hanswers r o hrequest trivial rfl
  exact hwrong f hf hread

/-- What the radio answers to a command of its system in these runs. -/
def reply (command n : UInt8) : Frame := ⟨.response, .sys, command, [n]⟩

/-- The bytes of such an answer. -/
def replyBytes (command n : UInt8) : Bytes :=
  [0xfe, 0x01, 0x61, command, n, 0x60 ^^^ command ^^^ n]

/-- One request waits in vain until its time is over; another one waits when the answer comes. -/
def lateAnswer : Run where
  timeout := 5000
  log := [.event (.start "a" (.request .ping)), .event (.flushed "a"), .receipt 0,
    .event (.advance 5000), .look fun _ => true,
    .event (.start "b" (.request .ping)), .event (.flushed "b"), .receipt 5,
    .event (.data (replyBytes 1 1)), .look fun _ => true, .event (.data (replyBytes 1 2))]

/-- A listener waits for the answer to a request; the request waits when the next answer comes. -/
def intercepted : Run where
  timeout := 5000
  log := [.event (.start "w" (.waitFor ⟨.response, .sys, 0x01⟩)),
    .event (.start "a" (.request .ping)), .event (.flushed "a"), .receipt 1,
    .event (.data (replyBytes 1 1)),
    .event (.start "b" (.request .ping)), .event (.flushed "b"), .receipt 5,
    .event (.data (replyBytes 1 2)), .look fun _ => true]

theorem answering_lateAnswer : lateAnswer.Answering := by
  refine answering_of_singles (fun k p h => ?_) fun k bs h => ?_
  · have hk : k < 11 := (List.getElem?_eq_some_iff.mp h).1
    interval_cases k <;> cases h
    · exact ⟨by decide, by decide, "a", _, _, rfl, rfl, rfl⟩
    · exact ⟨by decide, by decide, "b", _, _, rfl, rfl, rfl⟩
  · have hk : k < 11 := (List.getElem?_eq_some_iff.mp h).1
    interval_cases k <;> cases h
    · exact ⟨reply 1 1, 0, by decide +kernel, by decide +kernel, "a", _, _, rfl, rfl, rfl⟩
    · exact ⟨reply 1 2, 5, by decide +kernel, by decide +kernel, "b", _, _, rfl, rfl, rfl⟩

theorem answering_intercepted : intercepted.Answering := by
  refine answering_of_singles (fun k p h => ?_) fun k bs h => ?_
  · have hk : k < 10 := (List.getElem?_eq_some_iff.mp h).1
    interval_cases k <;> cases h
    · exact ⟨by decide, by decide, "a", _, _, rfl, rfl, rfl⟩
    · exact ⟨by decide, by decide, "b", _, _, rfl, rfl, rfl⟩
  · have hk : k < 10 := (List.getElem?_eq_some_iff.mp h).1
    interval_cases k <;> cases h
    · exact ⟨reply 1 1, 1, by decide +kernel, by decide +kernel, "a", _, _, rfl, rfl, rfl⟩
    · exact ⟨reply 1 2, 5, by decide +kernel, by decide +kernel, "b", _, _, rfl, rfl, rfl⟩

theorem not_ownAnswers_lateAnswer : ¬ lateAnswer.OwnAnswers 11 fun _ _ => True := by
  have hended : (lateAnswer.upTo 11).ended =
      [⟨"b", .ok (.bytes [1])⟩, ⟨"a", .error .timeout⟩] := by decide +kernel
  have hreceipts : lateAnswer.receipts 11 = [0, 5] := by decide +kernel
  have hanswers : lateAnswer.answers 11 = [reply 1 1, reply 1 2] := by decide +kernel
  have hbegun : ∀ p call, lateAnswer.Begun p "b" call → p = 5 ∧ call = .request .ping := by
    intro p call h
    have hp : p < 11 := (List.getElem?_eq_some_iff.mp h).1
    interval_cases p <;> simp [Begun, lateAnswer] at h
    exact ⟨rfl, h.symm⟩
  refine not_ownAnswers (hended.symm ▸ List.mem_cons_self) hbegun rfl fun f hf => ?_
  obtain ⟨n, hn, hf⟩ := hf
  rw [hreceipts] at hn
  rw [hanswers] at hf
  rcases n with _ | _ | n
  · cases hn
  · cases hf
    decide
  · cases hn

theorem not_ownAnswers_intercepted : ¬ intercepted.OwnAnswers 10 fun _ _ => True := by
  have hended : (intercepted.upTo 10).ended =
      [⟨"a", .ok (.bytes [2])⟩, ⟨"w", .ok (.frame (reply 1 1))⟩] := by decide +kernel
  have hreceipts : intercepted.receipts 10 = [1, 5] := by decide +kernel
  have hanswers : intercepted.answers 10 = [reply 1 1, reply 1 2] := by decide +kernel
  have hbegun : ∀ p call, intercepted.Begun p "a" call → p = 1 ∧ call = .request .ping := by
    intro p call h
    have hp : p < 10 := (List.getElem?_eq_some_iff.mp h).1
    interval_cases p <;> simp [Begun, intercepted] at h
    exact ⟨rfl, h.symm⟩
  refine not_ownAnswers (hended.symm ▸ List.mem_cons_self) hbegun rfl fun f hf => ?_
  obtain ⟨n, hn, hf⟩ := hf
  rw [hreceipts] at hn
  rw [hanswers] at hf
  rcases n with _ | _ | n
  · cases hf
    decide
  · cases hn
  · cases hn

/-- The radio answers in order, and still a request takes the answer to another one: a late answer
goes to the next request, and if a listener has taken the answer to a request, the request takes the
next answer. -/
theorem a_wrong_answer_may_be_taken :
    (lateAnswer.Answering ∧ ¬ lateAnswer.OwnAnswers 11 fun _ _ => True) ∧
      intercepted.Answering ∧ ¬ intercepted.OwnAnswers 10 fun _ _ => True :=
  ⟨⟨answering_lateAnswer, not_ownAnswers_lateAnswer⟩, answering_intercepted,
    not_ownAnswers_intercepted⟩

/-- Asks for the version of the radio. -/
def versionRequest : Request := ⟨.sys, 0x02, []⟩

/-- A late answer to a ping goes to the next ping. A question for the version is asked before that
and answered after it, and a third ping begins when no ping waits any more. -/
def recovered : Run where
  timeout := 5000
  log := [.event (.start "a" (.request .ping)), .event (.flushed "a"), .receipt 0,
    .event (.advance 5000), .look fun _ => true,
    .event (.start "b" (.request .ping)), .event (.flushed "b"), .receipt 5,
    .event (.start "v" (.request versionRequest)), .event (.flushed "v"), .receipt 8,
    .event (.data (replyBytes 1 1)), .event (.data (replyBytes 1 2)),
    .event (.data (replyBytes 2 3)), .look fun _ => true,
    .event (.start "c" (.request .ping)), .event (.flushed "c"), .receipt 15,
    .event (.data (replyBytes 1 4)), .look fun _ => true]

theorem answering_recovered : recovered.Answering := by
  refine answering_of_singles (fun k p h => ?_) fun k bs h => ?_
  · have hk : k < 20 := (List.getElem?_eq_some_iff.mp h).1
    interval_cases k <;> cases h
    · exact ⟨by decide, by decide, "a", _, _, rfl, rfl, rfl⟩
    · exact ⟨by decide, by decide, "b", _, _, rfl, rfl, rfl⟩
    · exact ⟨by decide, by decide, "v", _, _, rfl, rfl, rfl⟩
    · exact ⟨by decide, by decide, "c", _, _, rfl, rfl, rfl⟩
  · have hk : k < 20 := (List.getElem?_eq_some_iff.mp h).1
    interval_cases k <;> cases h
    · exact ⟨reply 1 1, 0, by decide +kernel, by decide +kernel, "a", _, _, rfl, rfl, rfl⟩
    · exact ⟨reply 1 2, 5, by decide +kernel, by decide +kernel, "b", _, _, rfl, rfl, rfl⟩
    · exact ⟨reply 2 3, 8, by decide +kernel, by decide +kernel, "v", _, _, rfl, rfl, rfl⟩
    · exact ⟨reply 1 4, 15, by decide +kernel, by decide +kernel, "c", _, _, rfl, rfl, rfl⟩

/-- The late answer to a ping does not disturb those who ask for the version. -/
theorem undisturbed_version : recovered.Undisturbed versionRequest.replyKey 0 20 := by
  have hplace : ∀ d p, recovered.Waits d p versionRequest.replyKey → p = 8 := by
    rintro d p ⟨name, call, hbegun, hkey, -⟩
    have hp : p < 20 := (List.getElem?_eq_some_iff.mp hbegun).1
    interval_cases p <;> cases hbegun <;> first | rfl | cases hkey
  refine undisturbed_of_singles (fun p hwaits => ?_) (fun j bs _ hj h => ?_)
    fun j p _ hj h p' hp hwaits => ?_
  · exact not_waits_of_box (by decide +kernel) (hplace _ _ hwaits ▸ hwaits)
  · interval_cases j <;> cases h
    · exact ⟨reply 1 1, by decide +kernel, fun hkey => by cases hkey⟩
    · exact ⟨reply 1 2, by decide +kernel, fun hkey => by cases hkey⟩
    · exact ⟨reply 2 3, by decide +kernel, fun _ =>
        ⟨8, by decide +kernel, "v", _, rfl, rfl, by decide +kernel⟩⟩
    · exact ⟨reply 1 4, by decide +kernel, fun hkey => by cases hkey⟩
  · obtain rfl := hplace _ _ hwaits
    interval_cases j <;> cases h <;> try omega
    exact not_waits_of_box (by decide +kernel) hwaits

/-- Once no ping waits, the pings that come then are not disturbed. -/
theorem undisturbed_ping : recovered.Undisturbed Request.ping.replyKey 15 20 := by
  have hplaces : ∀ d p, recovered.Waits d p Request.ping.replyKey → p = 0 ∨ p = 5 ∨ p = 15 := by
    rintro d p ⟨name, call, hbegun, hkey, -⟩
    have hp : p < 20 := (List.getElem?_eq_some_iff.mp hbegun).1
    interval_cases p <;> cases hbegun <;> first | exact absurd hkey (by decide) | simp
  refine undisturbed_of_singles (fun p hwaits => ?_) (fun j bs hi hj h => ?_)
    fun j p hi hj h p' hp hwaits => ?_
  · rcases hplaces _ _ hwaits with rfl | rfl | rfl <;>
      exact not_waits_of_box (by decide +kernel) hwaits
  · interval_cases j <;> cases h
    exact ⟨reply 1 4, by decide +kernel, fun _ =>
      ⟨15, by decide +kernel, "c", _, rfl, rfl, by decide +kernel⟩⟩
  · have hp' := hplaces _ _ hwaits
    interval_cases j <;> cases h
    obtain rfl | rfl : p' = 0 ∨ p' = 5 := by omega
    · exact not_waits_of_box (by decide +kernel) hwaits
    · exact not_waits_of_box (by decide +kernel) hwaits

/-- The second ping has taken the answer to the first one. The question and the third ping are sure
to have their own answers. -/
theorem two_of_three_get_their_answers : recovered.Answering ∧
    recovered.Sure 20 8 versionRequest ∧ recovered.Sure 20 15 .ping ∧
    (recovered.upTo 20).ended = [⟨"c", .ok (.bytes [4])⟩, ⟨"v", .ok (.bytes [3])⟩,
      ⟨"b", .ok (.bytes [1])⟩, ⟨"a", .error .timeout⟩] ∧
    recovered.OwnAnswers 20 (recovered.Sure 20) :=
  ⟨answering_recovered, ⟨0, Nat.zero_le 8, undisturbed_version⟩,
    ⟨15, Nat.le_refl 15, undisturbed_ping⟩, by decide +kernel,
    requests_get_their_own_answers answering_recovered 20⟩

end Run

end ZigbeeGateway.Radio
