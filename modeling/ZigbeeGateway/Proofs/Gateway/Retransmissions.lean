-- Messages whose sender could not be looked up, and what becomes of the next message of the same
-- device. The message that was let in last is remembered although nothing has come of it: a
-- repetition of it is dropped, and anything else is let in and makes the gateway look again.
import ZigbeeGateway.Proofs.Gateway.Runs
namespace ZigbeeGateway.Gateway

open Radio (Client Frame IncomingMessage LinkError Request Wait)

/-! ## Places in a log -/

section Places

variable (g : Gateway) (log : List Happening)

/-- At a place of the log the loop hears a message. -/
structure Hears (k : Nat) (m : IncomingMessage) : Prop where
  entry : log[k]? = some .hear
  message : (g.upTo log k).heard? = some m

/-- At a place of the log a message is let in. -/
structure LetsIn (k : Nat) (m : IncomingMessage) : Prop extends Hears g log k m where
  accepted : ((g.upTo log k).handler.accept m).1 = true

/-- At a place of the log the gateway gives up looking for the sender of a message: its time is
over, or what it got is no answer with an address. -/
structure GivesUp (k : Nat) (m : IncomingMessage) : Prop where
  entry : log[k]? = some .poll
  failed : ∃ wait answer e, (g.upTo log k).pending = some ⟨.lookUp m, wait⟩ ∧
    (g.upTo log k).client.outcome? wait = some answer ∧ answer.bind (addressOf m) = .error e

/-- At a place of the log a request for the address of a device is written. -/
def LooksUp (k : Nat) (short : UInt16) : Prop :=
  ∃ bs, (Request.lookUp short).frame.encode = .ok bs ∧
    (g.upTo log (k + 1)).client.written = bs :: (g.upTo log k).client.written

/-- A message of a device that is not known was let in, and looking for its sender has failed. -/
structure Fails (i j : Nat) (m : IncomingMessage) : Prop where
  letIn : LetsIn g log i m
  unknown : (g.upTo log i).book.address? m.source = none
  later : i < j
  givesUp : GivesUp g log j m

end Places

/-- Two states that differ in nothing but the frames that wait to be heard or answered. -/
structure Idles (g g' : Gateway) : Prop where
  written : g'.client.written = g.client.written
  bus : g'.bus = g.bus
  handler : g'.handler = g.handler
  book : g'.book = g.book
  pending : g'.pending = g.pending

/-! ## Invariants of the memory -/

/-- While the sender of a message is looked up, the message is the last one of its device, and the
device is not known. -/
def Memory.Sound (memory : Memory) : Prop :=
  ∀ m wait, memory.pending = some ⟨.lookUp m, wait⟩ →
    m.endpoint = memory.endpoint ∧ memory.lastData[m.source]? = some m.data ∧
      memory.book.address? m.source = none

/-- The last message of a device that is not known had some data, and it is looked up no more. -/
structure Memory.Remembers (memory : Memory) (short : UInt16) (data : Bytes) : Prop where
  last : memory.lastData[short]? = some data
  unknown : memory.book.address? short = none
  idle : ∀ m wait, memory.pending = some ⟨.lookUp m, wait⟩ → m.source ≠ short

section Invariants

variable {g : Gateway} {x : Happening} {memory : Memory}

theorem Change.endpoint (h : Change g x memory) : memory.endpoint = g.memory.endpoint := by
  cases h <;> rfl

theorem Change.sound (h : Change g x memory) (hg : g.memory.Sound) : memory.Sound := by
  intro m wait hm
  cases h with
  | nothing => exact hg m wait hm
  | ends => cases hm
  | found => cases hm
  | letIn hheard haccept hpending =>
    obtain ⟨herrand, hunknown⟩ := hpending _ hm
    cases herrand
    exact ⟨(Handler.accept_fst_iff.mp haccept).1, Std.TreeMap.getElem?_insert_self, hunknown⟩
  | sends => cases hm

/-- Until another message of the device is let in, the last one is remembered. -/
theorem Change.remembers {short : UInt16} {data : Bytes} (h : Change g x memory)
    (hg : g.memory.Remembers short data)
    (hother : ∀ m, x = .hear → g.heard? = some m → (g.handler.accept m).1 = true →
      m.source ≠ short) : memory.Remembers short data := by
  cases h with
  | nothing => exact hg
  | ends => exact ⟨hg.last, hg.unknown, by simp⟩
  | @found m wait address hpending =>
    refine ⟨hg.last, ?_, by simp⟩
    have hne : m.source ≠ short := hg.idle m wait hpending
    have hunknown : g.book.address? short = none := hg.unknown
    simp only [AddressBook.address?_insert, hne.symm, hunknown, if_false, ite_self]
  | @letIn m pending hheard haccept hpending =>
    have hne : m.source ≠ short := hother m rfl hheard haccept
    refine ⟨?_, hg.unknown, ?_⟩
    · have hlast : g.handler.lastData[short]? = some data := hg.last
      simpa only [Std.TreeMap.getElem?_insert, Std.compare_eq_iff_eq, hne, if_false] using hlast
    · intro m' wait hm
      obtain ⟨herrand, -⟩ := hpending _ hm
      cases herrand
      exact hne
  | sends => exact ⟨hg.last, hg.unknown, by simp⟩

end Invariants

/-! ## Runs -/

section Runs

variable {g : Gateway} {log : List Happening}

theorem change_upTo (g : Gateway) (log : List Happening) (k : Nat) :
    (∃ x, log[k]? = some x ∧ Change (g.upTo log k) x (g.upTo log (k + 1)).memory) ∨
      log[k]? = none ∧ g.upTo log (k + 1) = g.upTo log k := by
  rcases hx : log[k]? with _ | x
  · exact .inr ⟨rfl, upTo_succ_of_none hx⟩
  · rw [upTo_succ hx]
    exact .inl ⟨x, rfl, change_happen _ x⟩

theorem sound_upTo (hg : g.memory.Sound) (log : List Happening) (k : Nat) :
    (g.upTo log k).memory.Sound := by
  induction k with
  | zero => exact hg
  | succ k ih =>
    rcases change_upTo g log k with ⟨x, -, hchange⟩ | ⟨-, hsame⟩
    · exact hchange.sound ih
    · rw [hsame]
      exact ih

theorem endpoint_upTo (k : Nat) : (g.upTo log k).handler.endpoint = g.handler.endpoint := by
  induction k with
  | zero => rfl
  | succ k ih =>
    rcases change_upTo g log k with ⟨x, -, hchange⟩ | ⟨-, hsame⟩
    · exact hchange.endpoint.trans ih
    · rw [hsame]
      exact ih

theorem remembers_upTo {short : UInt16} {data : Bytes} {j k : Nat}
    (hj : (g.upTo log j).memory.Remembers short data) (hle : j ≤ k)
    (hother : ∀ l m, j ≤ l → l < k → LetsIn g log l m → m.source ≠ short) :
    (g.upTo log k).memory.Remembers short data := by
  induction k, hle using Nat.le_induction with
  | base => exact hj
  | succ k hle ih =>
    have hk := ih fun l m hjl hlk => hother l m hjl (Nat.lt_succ_of_lt hlk)
    rcases change_upTo g log k with ⟨x, hx, hchange⟩ | ⟨-, hsame⟩
    · refine hchange.remembers hk fun m hhear hheard haccept => ?_
      subst hhear
      exact hother k m hle (Nat.lt_succ_self k) ⟨⟨hx, hheard⟩, haccept⟩
    · rw [hsame]
      exact hk

/-- A look-up that fails leaves the message behind as the last one of its device. -/
theorem GivesUp.remembers {j : Nat} {m : IncomingMessage} (h : GivesUp g log j m)
    (hg : g.memory.Sound) :
    m.endpoint = g.handler.endpoint ∧
      (g.upTo log (j + 1)).memory.Remembers m.source m.data := by
  obtain ⟨wait, answer, e, hpending, hanswer, hfailed⟩ := h.failed
  obtain ⟨hendpoint, hlast, hunknown⟩ := sound_upTo hg log j m wait hpending
  have hmemory : (g.upTo log j).poll.memory = { (g.upTo log j).memory with pending := none } := by
    simp only [poll, hpending, hanswer, conclude, hfailed, memory]
  rw [upTo_succ h.entry, happen, hmemory]
  exact ⟨hendpoint.trans (endpoint_upTo j), hlast, hunknown, by simp⟩

end Runs

/-! ## Hearing again -/

theorem pending_of_start {client : Client} {handler : Handler} {bus : Mqtt.Bus} {qos : Mqtt.QoS}
    {g : Gateway} (h : start client handler bus qos = .ok g) : g.pending = none := by
  unfold start at h
  rcases hbus : bus.start with e | bus'
  · rw [hbus] at h
    cases h
  · rw [hbus] at h
    cases h
    rfl

/-- The line takes frames. -/
structure Ready (c : Client) : Prop where
  connected : c.connected = true
  working : c.failing = none

theorem ask_of_ready {c : Client} {r : Request} {bs : Bytes} (hready : Ready c)
    (hencode : r.frame.encode = .ok bs) :
    ∃ wait c', c.ask r = (.ok wait, c') ∧ c'.written = bs :: c.written := by
  let c' : Client := { (c.register r.replyKey).2 with written := bs :: c.written }
  have hwrite : (c.register r.replyKey).2.write r.frame = (.ok (), c') := by
    simp [c', Client.register, Client.write, Client.toWrite, Client.writeBytes, hready.connected,
      hready.working, hencode]
  have hask : c.ask r = (.ok (c'.waitOf (c.register r.replyKey).1), c') := by
    simp only [Client.ask, hwrite]
  exact ⟨_, c', hask, rfl⟩

theorem lookUp_encodes (short : UInt16) : ∃ bs, (Request.lookUp short).frame.encode = .ok bs := by
  have hlength : (Request.lookUp short).frame.payload.length ≤ 255 := by
    simp [Request.lookUp, Request.frame, Radio.bytes16]
  exact ⟨_, if_pos hlength⟩

/-- A message that is not let in goes by. -/
theorem idles_of_refused {g : Gateway} {m : IncomingMessage} (hheard : g.heard? = some m)
    (hrefuse : (g.handler.accept m).1 = false) : Idles g g.hearNext := by
  obtain ⟨dispatcher, hsame⟩ := hearNext_of_refused hheard hrefuse
  rw [hsame]
  exact ⟨rfl, rfl, rfl, rfl, rfl⟩

/-- A message of an unknown device that is let in makes the gateway look for its sender. -/
theorem written_of_unknown {g : Gateway} {m : IncomingMessage} (hheard : g.heard? = some m)
    (haccept : (g.handler.accept m).1 = true) (hunknown : g.book.address? m.source = none)
    (hready : Ready g.client) :
    ∃ bs wait, (Request.lookUp m.source).frame.encode = .ok bs ∧
      g.hearNext.client.written = bs :: g.client.written ∧
      g.hearNext.pending = some ⟨.lookUp m, wait⟩ := by
  obtain ⟨-, dispatcher, htake⟩ := hearNext_of_accepted hheard haccept
  obtain ⟨bs, hencode⟩ := lookUp_encodes m.source
  obtain ⟨wait, c', hask, hwritten⟩ :=
    ask_of_ready (c := { g.client with dispatcher }) ⟨hready.connected, hready.working⟩ hencode
  refine ⟨bs, wait, hencode, ?_, ?_⟩
  · simp only [htake, take, hunknown, goOn, hask]
    exact hwritten
  · simp only [htake, take, hunknown, goOn, hask]

/-! ## The law -/

/-- After a failed look-up for the sender of a message, the next message of the same device is
dropped if it is the same again, for whatever becomes of a message, it was the last one. With any
other data it is let in, and the gateway writes another request for the address. -/
theorem after_a_failed_look_up_only_a_repetition_is_dropped {client : Client} {handler : Handler}
    {bus : Mqtt.Bus} {qos : Mqtt.QoS} {g : Gateway} {log : List Happening} {i j k : Nat}
    {m m' : IncomingMessage} (hstart : start client handler bus qos = .ok g)
    (hfails : Fails g log i j m) (hlater : j < k)
    (hnext : ∀ l m₁, j < l → l < k → LetsIn g log l m₁ → m₁.source ≠ m.source)
    (hhears : Hears g log k m') (hsource : m'.source = m.source)
    (hendpoint : m'.endpoint = m.endpoint) :
    (m'.data = m.data → Idles (g.upTo log k) (g.upTo log (k + 1))) ∧
      (m'.data ≠ m.data → Ready (g.upTo log k).client →
        LooksUp g log k m.source ∧
          ∃ wait, (g.upTo log (k + 1)).pending = some ⟨.lookUp m', wait⟩) := by
  have hsound : g.memory.Sound := by
    intro m₁ wait hpending
    rw [memory, pending_of_start hstart] at hpending
    cases hpending
  obtain ⟨hours, hlast⟩ := hfails.givesUp.remembers hsound
  have hlast := remembers_upTo hlast hlater fun l m₁ hl hk => hnext l m₁ hl hk
  have haccept : ((g.upTo log k).handler.accept m').1 = true ↔ m'.data ≠ m.data := by
    have hlastData : (g.upTo log k).handler.lastData[m'.source]? = some m.data := by
      rw [hsource]
      exact hlast.last
    have hours' : m'.endpoint = (g.upTo log k).handler.endpoint := by
      rw [hendpoint, hours, endpoint_upTo]
    rw [Handler.accept_fst_iff, hlastData, ne_eq, Option.some.injEq, eq_comm (a := m.data)]
    exact and_iff_right hours'
  rw [upTo_succ hhears.entry, happen]
  constructor
  · intro hdata
    have hrefuse : ((g.upTo log k).handler.accept m').1 = false := by
      rw [← Bool.not_eq_true, haccept]
      exact fun hne => hne hdata
    exact idles_of_refused hhears.message hrefuse
  · intro hdata hready
    have hunknown : (g.upTo log k).book.address? m'.source = none := by
      rw [hsource]
      exact hlast.unknown
    obtain ⟨bs, wait, hencode, hwritten, hpending⟩ :=
      written_of_unknown hhears.message (haccept.mpr hdata) hunknown hready
    rw [hsource] at hencode
    refine ⟨⟨bs, hencode, ?_⟩, wait, hpending⟩
    rw [upTo_succ hhears.entry, happen]
    exact hwritten

/-- A gateway that knows no device. -/
def newcomer : Gateway where
  client := (Client.start 5000).subscribe
  listener := 0
  handler := .fresh .empty "zhub" 1
  bus := ⟨"mqtt://localhost", true, []⟩
  qos := .atMostOnce
  book := .empty
  pending := none

theorem newcomer_starts :
    start (.start 5000) (.fresh .empty "zhub" 1) (.idle "mqtt://localhost") .atMostOnce =
      .ok newcomer := by
  have hurl : (Mqtt.Url.parse "mqtt://localhost").isOk = true := by decide +kernel
  rcases hparse : Mqtt.Url.parse "mqtt://localhost" with fault | url
  · rw [hparse] at hurl
    cases hurl
  · simp only [start, Mqtt.Bus.start, Mqtt.Bus.idle, hparse]
    rfl

/-- What a device sends to the gateway, with some data. -/
def noteWith (data : Bytes) : IncomingMessage :=
  ⟨0, 6, 0x1234, 1, 1, false, 0x80, false, 0, 0, data⟩

/-- The bytes on the line that carry it. -/
def onLineWith (data : Bytes) : Bytes :=
  let f : Frame := ⟨.notice, .af, 0x81, [0x00, 0x00, 0x06, 0x00, 0x34, 0x12, 0x01, 0x01, 0x00, 0x80,
    0x00, 0x00, 0x00, 0x00, 0x00, 0x00, UInt8.ofNat data.length] ++ data⟩
  Radio.startByte :: f.body ++ [Radio.checksum f.body]

/-- A device sends a message, its address does not come in time, it sends the same again, and then
something else. -/
def patience : List Happening :=
  [.data (onLineWith [0x18, 0x01, 0x0a]), .hear, .advance 5000, .poll,
    .data (onLineWith [0x18, 0x01, 0x0a]), .hear, .data (onLineWith [0x18, 0x02, 0x0a]), .hear]

theorem patience_fails : Fails newcomer patience 1 3 (noteWith [0x18, 0x01, 0x0a]) where
  letIn := ⟨⟨rfl, by decide +kernel⟩, by decide +kernel⟩
  unknown := by decide +kernel
  later := by decide
  givesUp := by
    have hpending : (newcomer.upTo patience 3).pending =
        some ⟨.lookUp (noteWith [0x18, 0x01, 0x0a]), ⟨0, 5000⟩⟩ := by decide +kernel
    have hbox : (newcomer.upTo patience 3).client.dispatcher.waiters.boxes[0]? = some .empty := by
      decide +kernel
    have hdue : 5000 ≤ (newcomer.upTo patience 3).client.now := by decide +kernel
    refine ⟨rfl, ⟨0, 5000⟩, .error .timeout, .timeout, hpending, ?_, rfl⟩
    simp only [Client.outcome?, hbox, hdue, if_true]

theorem patience_hears_again : Hears newcomer patience 5 (noteWith [0x18, 0x01, 0x0a]) :=
  ⟨rfl, by decide +kernel⟩

/-- The repetition is heard, but not let in. -/
theorem patience_lets_nothing_in {l : Nat} (hafter : 3 < l) (hbefore : l < 7)
    (m : IncomingMessage) : ¬ LetsIn newcomer patience l m := by
  intro hin
  have hl : l = 4 ∨ l = 5 ∨ l = 6 := by omega
  rcases hl with rfl | rfl | rfl
  · cases hin.entry
  · have hsame := hin.message
    rw [patience_hears_again.message] at hsame
    obtain rfl := Option.some.inj hsame
    have hrefuse : ((newcomer.upTo patience 5).handler.accept (noteWith [0x18, 0x01, 0x0a])).1 =
        false := by decide +kernel
    rw [hin.accepted] at hrefuse
    cases hrefuse
  · cases hin.entry

theorem a_third_message_is_looked_up_again :
    Fails newcomer patience 1 3 (noteWith [0x18, 0x01, 0x0a]) ∧
      Idles (newcomer.upTo patience 5) (newcomer.upTo patience 6) ∧
      LooksUp newcomer patience 7 0x1234 := by
  have hnews : Hears newcomer patience 7 (noteWith [0x18, 0x02, 0x0a]) := ⟨rfl, by decide +kernel⟩
  have hready : Ready (newcomer.upTo patience 7).client := ⟨by decide +kernel, by decide +kernel⟩
  have hagain := after_a_failed_look_up_only_a_repetition_is_dropped newcomer_starts patience_fails
    (by decide) (fun l m₁ hl hk hin => absurd hin (patience_lets_nothing_in hl (by omega) m₁))
    patience_hears_again rfl rfl
  have hother := after_a_failed_look_up_only_a_repetition_is_dropped newcomer_starts patience_fails
    (by decide) (fun l m₁ hl hk hin => absurd hin (patience_lets_nothing_in hl hk m₁)) hnews rfl rfl
  exact ⟨patience_fails, hagain.1 rfl, (hother.2 (by decide) hready).1⟩

/-- A failed message can suppress its repetition, even on a line that works. -/
theorem a_failed_message_may_suppress_its_repetition :
    ¬ ∀ (client : Client) (handler : Handler) (bus : Mqtt.Bus) (qos : Mqtt.QoS) (g : Gateway)
      (log : List Happening) (i j k : Nat) (m : IncomingMessage),
      start client handler bus qos = .ok g → Fails g log i j m → j < k →
      (∀ l m₁, j < l → l < k → Hears g log l m₁ → m₁.source ≠ m.source) → Hears g log k m →
      Ready (g.upTo log k).client → LooksUp g log k m.source := by
  intro h
  have hnext : ∀ l m₁, 3 < l → l < 5 → Hears newcomer patience l m₁ →
      m₁.source ≠ (noteWith [0x18, 0x01, 0x0a]).source := by
    intro l m₁ hl hk hhears
    obtain rfl : l = 4 := by omega
    cases hhears.entry
  have hready : Ready (newcomer.upTo patience 5).client := ⟨by decide +kernel, by decide +kernel⟩
  obtain ⟨bs, -, hwritten⟩ := h _ _ _ _ newcomer patience 1 3 5 _ newcomer_starts patience_fails
    (by decide) hnext patience_hears_again hready
  have hsame : (newcomer.upTo patience 6).client.written =
      (newcomer.upTo patience 5).client.written := by decide +kernel
  rw [hsame] at hwritten
  exact List.cons_ne_self bs _ hwritten.symm

end ZigbeeGateway.Gateway
