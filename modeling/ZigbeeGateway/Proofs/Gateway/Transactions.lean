-- The numbers of transactions over the whole life of a handler. There is one count for each device.
-- A command that becomes a message takes the next number of its device, and a command that fails
-- takes none.
import ZigbeeGateway.Proofs.Gateway.Repeats
namespace ZigbeeGateway.Handler

open Radio (DataRequest IncomingMessage)

variable {h h' : Handler} {subject : Topic.Subject} {payload : Bytes} {short other : UInt16}
  {r : DataRequest} {e : GatewayError}

/-! ## Steps on a handler -/

/-- Steps that are taken one after the other on a handler. One that fails ends them, and the handler
stays as the steps before have left it. -/
abbrev Steps (α : Type) := ExceptT GatewayError (StateM Handler) α

section Steps

variable {α β : Type} {m : Steps α} {f : α → Steps β}

/-- What some steps come to on a handler, and the handler that they leave. -/
def Steps.on (m : Steps α) (h : Handler) : Except GatewayError α × Handler := m.run.run h

theorem Steps.on_bind_ok {x : α} (hm : m.on h = (.ok x, h')) : (m >>= f).on h = (f x).on h' := by
  unfold Steps.on at *
  rw [ExceptT.run_bind, StateT.run_bind, hm]
  rfl

theorem Steps.on_bind_error (hm : m.on h = (.error e, h')) : (m >>= f).on h = (.error e, h') := by
  unfold Steps.on at *
  rw [ExceptT.run_bind, StateT.run_bind, hm]
  rfl

theorem Steps.on_get : (get : Steps Handler).on h = (.ok h, h) := rfl

theorem Steps.on_liftExcept (x : Except GatewayError α) :
    (liftExcept x : Steps α).on h = (x, h) := by
  cases x <;> rfl

end Steps

/-- A command is made into a message step by step. -/
def attempt (subject : Topic.Subject) (payload : Bytes) (short : UInt16) : Steps DataRequest := do
  let h ← get
  let some cluster := cluster? h.schema subject.cluster
    | throw (.unknownClusterName subject.cluster)
  let some (isGlobal, command) := command? h.schema cluster subject.command
    | throw (.unknownCommandName cluster.name subject.command)
  let value ← liftExcept (argument h.readJson payload)
  let encoded ← liftExcept
    ((command.encodePayload (some cluster) value).mapError GatewayError.write)
  let transaction ← modifyGet (nextTransaction · short)
  let frameType := if isGlobal then .global else .clusterSpecific
  let frame : Zcl.Frame := ⟨.plain frameType transaction command.id, encoded⟩
  return {
    destination := short
    endpoint := subject.endpoint
    sourceEndpoint := h.endpoint
    cluster := cluster.id
    transaction
    options := 0
    radius := DataRequest.defaultRadius
    data := frame.encode }

/-- The steps come to what making a command into a message comes to. If they fail, no step before
the failure has changed the handler. -/
theorem attempt_on (h : Handler) (subject : Topic.Subject) (payload : Bytes) (short : UInt16) :
    (attempt subject payload short).on h =
      match h.commandRequest subject payload short with
      | .ok (r, h') => (.ok r, h')
      | .error e => (.error e, h) := by
  unfold attempt commandRequest
  rw [Steps.on_bind_ok Steps.on_get]
  cases cluster? h.schema subject.cluster with
  | none => rfl
  | some cluster =>
    dsimp only
    cases command? h.schema cluster subject.command with
    | none => rfl
    | some found =>
      obtain ⟨isGlobal, command⟩ := found
      dsimp only
      cases argument h.readJson payload with
      | error e =>
        rw [Steps.on_bind_error (Steps.on_liftExcept _)]
        rfl
      | ok value =>
        rw [Steps.on_bind_ok (Steps.on_liftExcept _)]
        cases hencoded : command.encodePayload (some cluster) value with
        | error e =>
          simp only [Except.mapError]
          rw [Steps.on_bind_error (Steps.on_liftExcept _)]
          simp only [hencoded, bind, Except.bind]
        | ok encoded =>
          simp only [hencoded, bind, Except.bind, Except.mapError]
          rfl

/-! ## One command -/

/-- The number that the next message to a device will carry. -/
def nextNumber (h : Handler) (short : UInt16) : UInt8 := (h.nextTransaction short).1

/-- A message to a device that carries a number, for the radio and in its frame. -/
structure Carries (r : DataRequest) (short : UInt16) (number : UInt8) : Prop where
  destination : r.destination = short
  transaction : r.transaction = number
  frame : ∃ frame, Zcl.Frame.decode r.data = .ok frame ∧ frame.header.transaction = number

theorem nextNumber_fresh (schema : Schema) (first : String) (endpoint : UInt8) (short : UInt16) :
    (fresh schema first endpoint).nextNumber short = 0 := by
  simp [nextNumber, nextTransaction, fresh]

theorem nextNumber_accept (h : Handler) (m : IncomingMessage) (short : UInt16) :
    (h.accept m).2.nextNumber short = h.nextNumber short := by
  unfold accept
  split <;> rfl

/-- Taking a number moves the count of one device. -/
theorem nextNumber_nextTransaction (h : Handler) (short other : UInt16) :
    (h.nextTransaction short).2.nextNumber other =
      if other = short then h.nextNumber short + 1 else h.nextNumber other := by
  simp only [nextNumber, nextTransaction, Std.TreeMap.getElem?_insert, Std.compare_eq_iff_eq,
    eq_comm (a := short)]
  split <;> rfl

theorem nextNumber_afterCommand_ok (hr : h.commandRequest subject payload short = .ok (r, h')) :
    (h.afterCommand subject payload short).nextNumber other =
      if other = short then h.nextNumber short + 1 else h.nextNumber other := by
  obtain ⟨-, -, -, -, -, -, -, -, -, rfl, -⟩ := commandRequest_eq_ok hr
  unfold afterCommand
  rw [hr]
  exact nextNumber_nextTransaction h short other

theorem afterCommand_error (hr : h.commandRequest subject payload short = .error e) :
    h.afterCommand subject payload short = h := by
  unfold afterCommand
  rw [hr]

theorem carries_of_commandRequest (hr : h.commandRequest subject payload short = .ok (r, h')) :
    Carries r short (h.nextNumber short) := by
  obtain ⟨-, -, -, -, -, -, -, -, -, -, rfl⟩ := commandRequest_eq_ok hr
  exact ⟨rfl, rfl, _, Zcl.Frame.decode_encode_plain _ _ _ _, rfl⟩

/-! ## A whole life -/

/-- What becomes of the commands among some calls, each with the device that it is for. -/
def answers (h : Handler) : List Call → List (UInt16 × Except GatewayError DataRequest)
  | [] => []
  | .message m :: calls => answers (h.accept m).2 calls
  | .command subject payload short :: calls =>
    (short, (h.commandRequest subject payload short).map Prod.fst) ::
      answers (h.afterCommand subject payload short) calls

/-- The messages to one device. -/
def sentTo (short : UInt16) (answers : List (UInt16 × Except GatewayError DataRequest)) :
    List DataRequest :=
  answers.filterMap fun (device, answer) => if device = short then answer.toOption else none

section Lives

variable {calls : List Call} {device : UInt16}
  {rest : List (UInt16 × Except GatewayError DataRequest)}

theorem answers_ok (hr : h.commandRequest subject payload device = .ok (r, h')) :
    h.answers (.command subject payload device :: calls) =
      (device, .ok r) :: (h.afterCommand subject payload device).answers calls := by
  rw [answers, hr]
  rfl

theorem answers_error (hr : h.commandRequest subject payload device = .error e) :
    h.answers (.command subject payload device :: calls) =
      (device, .error e) :: h.answers calls := by
  rw [answers, hr, afterCommand_error hr]
  rfl

theorem sentTo_cons_ok : sentTo short ((short, .ok r) :: rest) = r :: sentTo short rest := by
  simp [sentTo, Except.toOption]

theorem sentTo_cons_error : sentTo short ((device, .error e) :: rest) = sentTo short rest := by
  simp [sentTo, Except.toOption]

theorem sentTo_cons_other {answer : Except GatewayError DataRequest} (hdevice : device ≠ short) :
    sentTo short ((device, answer) :: rest) = sentTo short rest := by
  simp [sentTo, hdevice]

/-- The messages to a device carry the numbers from its next one on. -/
theorem carries_of_sentTo {k : Nat} (hk : (sentTo short (h.answers calls))[k]? = some r) :
    Carries r short (h.nextNumber short + .ofNat k) := by
  induction calls generalizing h k with
  | nil => simp [answers, sentTo] at hk
  | cons call calls ih =>
    cases call with
    | message m =>
      rw [← nextNumber_accept h m]
      exact ih hk
    | command subject payload device =>
      rcases hr : h.commandRequest subject payload device with e | ⟨first, h'⟩
      · rw [answers_error hr, sentTo_cons_error] at hk
        exact ih hk
      · rw [answers_ok hr] at hk
        by_cases hdevice : device = short
        · subst hdevice
          rw [sentTo_cons_ok] at hk
          cases k with
          | zero =>
            simp at hk
            subst hk
            simpa using carries_of_commandRequest hr
          | succ k =>
            have hrest := ih hk
            rw [nextNumber_afterCommand_ok hr, if_pos rfl, UInt8.add_assoc] at hrest
            have hnumber : UInt8.ofNat (k + 1) = 1 + .ofNat k := by
              rw [UInt8.ofNat_add, UInt8.add_comm]
              rfl
            rw [hnumber]
            exact hrest
        · rw [sentTo_cons_other hdevice] at hk
          have hrest := ih hk
          rw [nextNumber_afterCommand_ok hr, if_neg (Ne.symm hdevice)] at hrest
          exact hrest

end Lives

/-- In the life of a handler the messages to one device carry the numbers from zero on, and from
zero again after 256 of them, whatever goes to other devices and comes in between. And no step
before one that fails changes the handler, so a command that fails leaves all counts as they
are. -/
theorem only_messages_are_counted (schema : Schema) (first : String) (endpoint : UInt8)
    (calls : List Call) (short : UInt16) :
    (∀ k r, (sentTo short ((fresh schema first endpoint).answers calls))[k]? = some r →
      Carries r short (.ofNat (k % 256))) ∧
    ∀ (h : Handler) (subject : Topic.Subject) (payload : Bytes),
      (attempt subject payload short).on h =
        match h.commandRequest subject payload short with
        | .ok (r, h') => (.ok r, h')
        | .error e => (.error e, h) := by
  refine ⟨?_, fun h subject payload => attempt_on h subject payload short⟩
  intro k r hk
  have hcarries := carries_of_sentTo hk
  rw [nextNumber_fresh, UInt8.zero_add] at hcarries
  have hnumber : UInt8.ofNat (k % 256) = .ofNat k := by simp [← UInt8.toNat_inj]
  rw [hnumber]
  exact hcarries

/-- The command to read some attributes of a switch. -/
def readingCall (payload : Bytes) (short : UInt16) : Call :=
  .command ⟨0, 1, "On_Off", "Read Attributes"⟩ payload short

/-- Between two messages to a device stand a command for it with a broken payload and a message to
another device. The second message carries the next number. -/
theorem a_failed_command_takes_no_number :
    let calls := [readingCall twoAttributes 0x1234, readingCall [0x7b] 0x1234,
      readingCall twoAttributes 0x5678, readingCall twoAttributes 0x1234]
    ∃ s sent first second, Schema.load switchSchema = .ok s ∧
      sent = sentTo 0x1234 ((fresh s "zhub" 1).answers calls) ∧
      sent[0]? = some first ∧ Carries first 0x1234 0 ∧
      sent[1]? = some second ∧ Carries second 0x1234 1 ∧ sent[2]? = none := by
  intro calls
  have hcount : ((Schema.load switchSchema).toOption.map fun s =>
      (sentTo 0x1234 ((fresh s "zhub" 1).answers calls)).length) = some 2 := by
    unfold Schema.load Info.parse switchSchema
    rw [String.toList_ofList]
    decide +kernel
  rcases hload : Schema.load switchSchema with e | s
  · rw [hload] at hcount
    cases hcount
  · rw [hload] at hcount
    simp only [Except.toOption, Option.map_some, Option.some.injEq] at hcount
    obtain ⟨hnumbers, -⟩ := only_messages_are_counted s "zhub" 1 calls 0x1234
    have hfirst := List.getElem?_eq_getElem (i := 0) (by rw [hcount]; decide)
    have hsecond := List.getElem?_eq_getElem (i := 1) (by rw [hcount]; decide)
    have hthird := List.getElem?_eq_none (i := 2) (Nat.le_of_eq hcount)
    exact ⟨s, _, _, _, rfl, rfl, hfirst, hnumbers 0 _ hfirst, hsecond, hnumbers 1 _ hsecond, hthird⟩

end ZigbeeGateway.Handler
