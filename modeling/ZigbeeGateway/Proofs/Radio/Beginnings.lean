-- Calls begin. A call that begins comes into the books, with a waiter of its own if it waits for
-- something, or it has its result at once.
import ZigbeeGateway.Proofs.Radio.Books
namespace ZigbeeGateway.Radio

theorem Lodged.lt_next {run : Run} {k : Nat} {d : Dispatcher} {calls : List (Nat × Running)}
    {room : WaitingRoom} (h : Lodged run k d calls room) {t : Ticket}
    (ht : t ∈ ticketsOf calls) : t < room.next := by
  obtain ⟨c, hc, htc⟩ := mem_ticketsOf.mp ht
  obtain ⟨key, -, hmailed⟩ := h.mailed c hc t htc
  rw [(h.going c hc).2.2.ticket?_eq htc]
  cases hmailed with
  | waits hline => exact h.orderly.lt_next_of_mem (WaitingRoom.mem_tickets.mpr ⟨key, hline⟩)
  | holds hbox => exact h.orderly.lt_next hbox
  | closed hbox => exact h.orderly.lt_next hbox

namespace Books

variable {run : Run} {k : Nat} {name : String} {call : Call} {s : Session}
  {calls : List (Nat × Running)} {results : List (Nat × Ended)} {room : WaitingRoom}

/-! ## Coming into the books -/

section Coming

variable (h : Books run k (run.upTo k) [] calls results room)
include h

theorem fresh : k ∉ calls.map (·.1) ++ results.map (·.1) := by
  intro hmem
  rcases List.mem_append.mp hmem with hmem | hmem
  · obtain ⟨c, hc, hk⟩ := List.mem_map.mp hmem
    exact absurd (h.going c hc).1 (by omega)
  · obtain ⟨e, he, hk⟩ := List.mem_map.mp hmem
    exact absurd (h.ends e he).1 (by omega)

/-- A call that has just begun comes into the books if there is a place for it in the waiting
room. -/
theorem enter {client : Client} {room' : WaitingRoom} {phase : Phase}
    (htimeout : client.timeout = (run.upTo k).client.timeout)
    (hlodged : Lodged run (k + 1) client.dispatcher ((k, ⟨name, call, phase⟩) :: calls) room') :
    Books run (k + 1) { run.upTo k with client } [⟨name, call, phase⟩]
      ((k, ⟨name, call, phase⟩) :: calls) results room' :=
  { hlodged with
    running := by
      have hrunning := h.running
      rw [List.append_nil] at hrunning
      exact (hrunning.cons _).trans (List.perm_append_singleton ..).symm
    ended := h.ended
    places := List.nodup_cons.mpr ⟨h.fresh, h.places⟩
    timeout := htimeout.trans h.timeout
    standing := by
      refine List.forall_mem_cons.mpr ⟨fun j hk hj => by omega, fun c hc j hp hj => ?_⟩
      exact h.standing_succ c hc j hp (Nat.lt_of_succ_lt_succ hj)
    unflushed := by
      refine List.forall_mem_cons.mpr ⟨fun _ _ _ j hk hj => by omega, ?_⟩
      intro c hc bs ticket hphase j hp hj
      exact h.unflushed_succ c hc bs ticket hphase j hp (Nat.lt_of_succ_lt_succ hj)
    ends := h.ends_succ
    cutOff := h.cutOff_succ
    complete := h.complete_succ (fun _ hp => List.mem_cons_of_mem k hp) fun _ _ _ =>
      List.mem_cons_self }

variable (hbegun : run.Begun k name call)
include hbegun

/-- A call that has just begun has its result at once, and the waiting room has not changed. -/
theorem finish (client : Client) (htimeout : client.timeout = (run.upTo k).client.timeout)
    (hwaiters : client.dispatcher.waiters = (run.upTo k).client.dispatcher.waiters)
    {result : Except LinkError Outcome} (hends : run.Ends (k + 1) k name call result) :
    Books run (k + 1) (({ run.upTo k with client } : Session).finish name result) [] calls
      ((k, ⟨name, result⟩) :: results) room :=
  { h.toLodged.mono with
    serves := hwaiters ▸ h.serves
    running := h.running
    ended := congrArg _ h.ended
    places := List.perm_middle.nodup_iff.mpr (List.nodup_cons.mpr ⟨h.fresh, h.places⟩)
    timeout := htimeout.trans h.timeout
    standing := fun c hc j hp hj => h.standing_succ c hc j hp (Nat.lt_of_succ_lt_succ hj)
    unflushed := fun c hc bs ticket hphase j hp hj =>
      h.unflushed_succ c hc bs ticket hphase j hp (Nat.lt_of_succ_lt_succ hj)
    ends := List.forall_mem_cons.mpr ⟨⟨Nat.lt_succ_self k, call, hbegun, k + 1, Nat.le_refl _,
      Run.not_givenUp_succ, hends⟩, h.ends_succ⟩
    cutOff := List.forall_mem_cons.mpr ⟨fun _ _ q _ _ hk hq => by omega, h.cutOff_succ⟩
    complete := h.complete_succ
      (fun _ hp => List.perm_middle.mem_iff.mpr (List.mem_cons_of_mem k hp)) fun _ _ _ =>
      List.perm_middle.mem_iff.mpr List.mem_cons_self }

/-- A call without a waiter comes into the books. -/
theorem enterUnlodged {phase : Phase} (hticket : phase.ticket? = none)
    (hgoing : run.Going (k + 1) k name call phase) :
    Books run (k + 1) (run.upTo k) [⟨name, call, phase⟩] ((k, ⟨name, call, phase⟩) :: calls) results
      room :=
  h.enter rfl
    { h.toLodged.mono with
      tickets := by
        rw [ticketsOf_cons, hticket]
        exact h.tickets
      owned := fun t ht => by
        rw [ticketsOf_cons, hticket]
        exact h.owned t ht
      going := List.forall_mem_cons.mpr
        ⟨⟨Nat.lt_succ_self k, hbegun, hgoing⟩, h.toLodged.mono.going⟩
      mailed := List.forall_mem_cons.mpr
        ⟨fun t ht => absurd (hticket.symm.trans ht) (by simp), h.toLodged.mono.mailed⟩ }

/-- A call comes into the books with a waiter of its own. -/
theorem register {key : Key} (hkey : call.key? = some key) {phase : Phase}
    (hticket : phase.ticket? = some (run.ticket k))
    (hgoing : run.Going (k + 1) k name call phase) :
    Books run (k + 1) { run.upTo k with client := ((run.upTo k).client.register key).2 }
      [⟨name, call, phase⟩] ((k, ⟨name, call, phase⟩) :: calls) results (room.register key).2 := by
  have hnext : run.ticket k = room.next := h.serves.next_eq
  have hnew : run.ticket k ∉ ticketsOf calls := fun hmem => by
    rw [hnext] at hmem
    exact Nat.lt_irrefl _ (h.lt_next hmem)
  refine h.enter rfl {
    tickets := by
      rw [ticketsOf_cons, hticket]
      exact List.nodup_cons.mpr ⟨hnew, h.tickets⟩
    serves := (h.serves.register h.orderly key).2
    orderly := h.orderly.register key
    owned := fun t ht => by
      rw [ticketsOf_cons, hticket, Option.toList_some, List.singleton_append, List.mem_cons, hnext]
      by_cases htn : t = room.next
      · exact .inl htn
      · rw [WaitingRoom.box_register_of_ne htn] at ht
        exact .inr (h.owned t ht)
    going := List.forall_mem_cons.mpr
      ⟨⟨Nat.lt_succ_self k, hbegun, hgoing⟩, h.toLodged.mono.going⟩
    mailed := ?_ }
  refine List.forall_mem_cons.mpr ⟨fun t ht => ⟨key, hkey, .waits ?_⟩, fun c hc t ht => ?_⟩
  · simp [hnext]
  · obtain ⟨key', hkey', hmailed⟩ := h.toLodged.mono.mailed c hc t ht
    refine ⟨key', hkey', hmailed.register ?_ key⟩
    rw [← (h.going c hc).2.2.ticket?_eq ht]
    exact Nat.ne_of_lt (h.lt_next (mem_ticketsOf.mpr ⟨c, hc, ht⟩))

end Coming

/-! ## Beginning -/

/-- The line takes the frame of a call that has just begun, or the call ends at once. -/
theorem startWriting {ticket : Option Ticket} {bs : Bytes}
    (h : Books run (k + 1) s [⟨name, call, .writing bs ticket⟩]
      ((k, ⟨name, call, .writing bs ticket⟩) :: calls) results room) {f : Frame}
    (hframe : call.frame? = some f)
    (hconnected : s.client.connected = (run.upTo k).client.connected) :
    ∃ calls' results' room', Books run (k + 1) (s.startWriting name call f ticket) [] calls'
      results' room' := by
  have htoWrite : s.client.toWrite f = (run.upTo k).client.toWrite f := by
    unfold Client.toWrite
    rw [hconnected]
  unfold Session.startWriting
  cases hbytes : s.client.toWrite f with
  | ok bs' =>
    obtain ⟨⟨-, -, hgoing⟩, -⟩ := List.forall_mem_cons.mp h.going
    exact ⟨_, _, _, h.keep rfl (hgoing.withBytes bs') fun _ _ _ => ⟨bs, ticket, rfl⟩⟩
  | error e =>
    obtain ⟨room', h'⟩ := h.conclude Run.not_givenUp_succ (.refused hframe (htoWrite ▸ hbytes))
      fun _ q _ hk hq => by omega
    exact ⟨_, _, room', h'⟩

theorem begin (h : Books run k (run.upTo k) [] calls results room)
    (hbegun : run.Begun k name call) :
    ∃ calls' results' room', Books run (k + 1) ((run.upTo k).begin name call) [] calls' results'
      room' := by
  unfold Session.begin
  cases hrequest : call.request? with
  | error e => exact ⟨_, _, _, h.finish hbegun (run.upTo k).client rfl rfl (.unfit hrequest)⟩
  | ok request =>
    cases request with
    | some r =>
      have hgoing : run.Going (k + 1) k name call (.writing [] (some (run.ticket k))) :=
        .asking hrequest
      exact (h.register hbegun (Call.key?_of_request hrequest) rfl hgoing).startWriting
        (Call.frame?_of_request hrequest) rfl
    | none =>
      rcases Call.cases_of_request hrequest with ⟨f, rfl⟩ | ⟨key, rfl⟩ | rfl
      · have hgoing : run.Going (k + 1) k name (.send f) (.writing [] none) := .sending rfl
        exact (h.enterUnlodged hbegun rfl hgoing).startWriting rfl rfl
      · have hgoing : run.Going (k + 1) k name (.waitFor key)
            (.waiting ((run.upTo k).client.await key).1) := by
          have hwait : ((run.upTo k).client.await key).1 =
              ⟨run.ticket k, (run.upTo k).client.now + run.timeout⟩ := by
            rw [← h.timeout]
            rfl
          rw [hwait]
          exact .waiting (.begun rfl) (Nat.lt_succ_self k)
        exact ⟨_, _, _, (h.register hbegun rfl rfl hgoing).keep rfl hgoing
          fun _ _ hphase => by cases hphase⟩
      · exact ⟨_, _, _, h.finish hbegun (run.upTo k).client.close rfl rfl (.closed rfl)⟩

end Books

end ZigbeeGateway.Radio
