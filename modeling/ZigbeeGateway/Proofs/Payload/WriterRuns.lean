-- How writers run. Every writer adds the same bytes to whatever buffer it is given and ends in
-- the same way, so a writer is known by the bytes it adds and by how it ends.
import Mathlib.Data.List.Forall2
import ZigbeeGateway.Payload.Write
namespace ZigbeeGateway

namespace Writer

/-- The writer ends with `result` after it has added `bs` to the buffer. -/
def Appends (w : Writer) (result : Except WriteError Unit) (bs : Bytes) : Prop :=
  ∀ out : Array UInt8, w.run.run out = (result, out ++ bs)

/-- The writer adds `bs` and does not fail. -/
def Writes (w : Writer) (bs : Bytes) : Prop := w.Appends (.ok ()) bs

/-- What the writer does hangs on nothing that the buffer holds. -/
def Additive (w : Writer) : Prop := ∃ result bs, w.Appends result bs

theorem Appends.unique {w : Writer} {result result' : Except WriteError Unit} {bs bs' : Bytes}
    (h : w.Appends result bs) (h' : w.Appends result' bs') : result = result' ∧ bs = bs' := by
  have he : (result, (#[] : Array UInt8) ++ bs) = (result', #[] ++ bs') := (h #[]).symm.trans (h' #[])
  exact ⟨(Prod.mk.inj he).1, by simpa using congrArg Array.toList (Prod.mk.inj he).2⟩

theorem Writes.unique {w : Writer} {bs bs' : Bytes} (h : w.Writes bs) (h' : w.Writes bs') :
    bs = bs' := (Appends.unique h h').2

/-! ## Single writers -/

theorem writes_pure : Writes (pure ()) [] := by
  intro out
  exact congrArg (Prod.mk _) (by simp)

theorem appends_throw (e : WriteError) : Appends (throw e) (.error e) [] := by
  intro out
  exact congrArg (Prod.mk _) (by simp)

theorem writes_bytes (bs : Bytes) : Writes (bytes bs) bs := fun _ => rfl

theorem writes_number (width n : Nat) : Writes (number width n) (LittleEndian.bytes width n) :=
  writes_bytes _

/-! ## One writer after the other -/

theorem then_run (w w' : Writer) (out : Array UInt8) :
    (w >>= fun _ => w').run.run out =
      match w.run.run out with
      | (.ok (), out') => w'.run.run out'
      | (.error e, out') => (.error e, out') := by
  change StateT.run (ExceptT.run w >>= ExceptT.bindCont fun _ => w') out = _
  rw [StateT.run_bind]
  rcases h : (ExceptT.run w).run out with ⟨e | ⟨⟩, out'⟩
  · rfl
  · rfl

theorem Writes.then {w w' : Writer} {bs bs' : Bytes} {result : Except WriteError Unit}
    (h : w.Writes bs) (h' : w'.Appends result bs') :
    Appends (w >>= fun _ => w') result (bs ++ bs') := by
  intro out
  have hout : out ++ bs ++ bs' = out ++ (bs ++ bs') := Array.toList_inj.mp (by simp)
  rw [then_run, h out, ← hout]
  exact h' (out ++ bs)

theorem Appends.stop {w w' : Writer} {bs : Bytes} {e : WriteError} (h : w.Appends (.error e) bs) :
    Appends (w >>= fun _ => w') (.error e) bs := by
  intro out
  rw [then_run, h out]

theorem Additive.then {w w' : Writer} (h : w.Additive) (h' : w'.Additive) :
    Additive (w >>= fun _ => w') := by
  obtain ⟨e | ⟨⟩, bs, hw⟩ := h
  · exact ⟨_, _, hw.stop⟩
  · obtain ⟨result, bs', hw'⟩ := h'
    exact ⟨_, _, Writes.then hw hw'⟩

/-- What two writers write is what the first writes and then what the second writes. -/
theorem writes_then {w w' : Writer} {bs : Bytes} (h : w.Additive) (h' : w'.Additive)
    (hb : Writes (w >>= fun _ => w') bs) :
    ∃ bs₁ bs₂, bs = bs₁ ++ bs₂ ∧ w.Writes bs₁ ∧ w'.Writes bs₂ := by
  obtain ⟨e | ⟨⟩, bs₁, hw⟩ := h
  · cases (hw.stop.unique hb).1
  · obtain ⟨result, bs₂, hw'⟩ := h'
    obtain ⟨rfl, rfl⟩ := (Writes.then hw hw').unique hb
    exact ⟨bs₁, bs₂, rfl, hw, hw'⟩

/-! ## Fields and lists -/

theorem inside_run (name : String) (w : Writer) (out : Array UInt8) :
    (inside name w).run.run out =
      ((w.run.run out).1.mapError (WriteError.inside name), (w.run.run out).2) := by
  change StateT.run (Except.mapError (WriteError.inside name) <$> ExceptT.run w) out = _
  rw [StateT.run_map]
  rfl

theorem Appends.inside {w : Writer} {result : Except WriteError Unit} {bs : Bytes}
    (h : w.Appends result bs) (name : String) :
    Appends (inside name w) (result.mapError (WriteError.inside name)) bs := by
  intro out
  rw [inside_run, h out]

theorem Writes.inside {w : Writer} {bs : Bytes} (h : w.Writes bs) (name : String) :
    Writes (inside name w) bs := Appends.inside h name

theorem Additive.inside {w : Writer} (h : w.Additive) (name : String) :
    Additive (inside name w) := by
  obtain ⟨result, bs, hw⟩ := h
  exact ⟨_, _, hw.inside name⟩

theorem writes_inside {w : Writer} {name : String} {bs : Bytes} (h : w.Additive) :
    Writes (inside name w) bs ↔ w.Writes bs := by
  refine ⟨fun hb => ?_, fun hb => hb.inside name⟩
  obtain ⟨e | ⟨⟩, bs', hw⟩ := h
  · cases ((hw.inside name).unique hb).1
  · obtain ⟨-, rfl⟩ := (hw.inside name).unique hb
    exact hw

theorem additive_pure : Additive (pure ()) := ⟨_, _, writes_pure⟩

theorem additive_throw (e : WriteError) : Additive (throw e) := ⟨_, _, appends_throw e⟩

theorem additive_bytes (bs : Bytes) : (bytes bs).Additive := ⟨_, _, writes_bytes bs⟩

theorem additive_number (width n : Nat) : (number width n).Additive := additive_bytes _

theorem not_writes_throw {e : WriteError} {bs : Bytes} : ¬ Writes (throw e) bs := by
  intro h
  cases ((appends_throw e).unique h).1

theorem additive_each {α : Type} {item : α → Writer} (h : ∀ x, (item x).Additive) (xs : List α) :
    (each item xs).Additive := by
  induction xs with
  | nil => exact additive_pure
  | cons x xs ih => exact (h x).then ih

theorem writes_each {α : Type} {item : α → Writer} {xs : List α} {bss : List Bytes}
    (h : List.Forall₂ (fun x bs => (item x).Writes bs) xs bss) :
    (each item xs).Writes bss.flatten := by
  induction h with
  | nil => exact writes_pure
  | cons hx _ ih => exact hx.then ih

theorem exists_writes_each {α : Type} {item : α → Writer} (hitem : ∀ x, (item x).Additive)
    {xs : List α} {bs : Bytes} (h : (each item xs).Writes bs) :
    ∃ bss, bs = bss.flatten ∧ List.Forall₂ (fun x bs => (item x).Writes bs) xs bss := by
  induction xs generalizing bs with
  | nil => exact ⟨[], Writes.unique h writes_pure, .nil⟩
  | cons x xs ih =>
    obtain ⟨bs₁, bs₂, rfl, hx, hxs⟩ := writes_then (hitem x) (additive_each hitem xs) h
    obtain ⟨bss, rfl, hbss⟩ := ih hxs
    exact ⟨bs₁ :: bss, rfl, .cons hx hbss⟩

/-! ## A byte for each -/

theorem additive_oneByte (x : Except WriteError UInt8) : (oneByte x).Additive := by
  cases x with
  | error e => exact additive_throw e
  | ok b => exact additive_bytes [b]

theorem writes_oneByte {x : Except WriteError UInt8} {bs : Bytes} :
    (oneByte x).Writes bs ↔ ∃ b, x = .ok b ∧ bs = [b] := by
  refine ⟨fun h => ?_, ?_⟩
  · cases x with
    | error e => exact absurd h not_writes_throw
    | ok b => exact ⟨b, rfl, h.unique (writes_bytes [b])⟩
  · rintro ⟨b, rfl, rfl⟩
    exact writes_bytes [b]

theorem additive_eachByte {α : Type} (byte : α → Except WriteError UInt8) (xs : List α) :
    (eachByte byte xs).Additive :=
  additive_each (fun x => additive_oneByte (byte x)) xs

/-- Bytes for some things are written if each of the things has its byte. -/
theorem writes_eachByte {α : Type} {byte : α → Except WriteError UInt8} {xs : List α}
    {bs : Bytes} :
    (eachByte byte xs).Writes bs ↔ List.Forall₂ (fun x b => byte x = .ok b) xs bs := by
  refine ⟨fun h => ?_, fun h => ?_⟩
  · induction xs generalizing bs with
    | nil =>
      rw [Writes.unique h writes_pure]
      exact .nil
    | cons x xs ih =>
      obtain ⟨bs₁, bs₂, rfl, hx, hxs⟩ :=
        writes_then (additive_oneByte _) (additive_eachByte byte xs) h
      obtain ⟨b, hb, rfl⟩ := writes_oneByte.mp hx
      exact .cons hb (ih hxs)
  · induction h with
    | nil => exact writes_pure
    | cons hb _ ih => exact (writes_oneByte.mpr ⟨_, hb, rfl⟩).then ih

/-! ## The bytes made -/

theorem Appends.toBytes {w : Writer} {result : Except WriteError Unit} {bs : Bytes}
    (h : w.Appends result bs) : w.toBytes = result.map fun _ => bs := by
  simp only [Writer.toBytes, h #[]]
  rcases result with e | ⟨⟩
  · rfl
  · simp [Except.map]

theorem toBytes_eq_ok {w : Writer} {bs : Bytes} (h : w.Additive) :
    w.toBytes = .ok bs ↔ w.Writes bs := by
  obtain ⟨result, bs', hw⟩ := h
  rw [hw.toBytes]
  refine ⟨fun h => ?_, fun h => ?_⟩
  · rcases result with e | ⟨⟩
    · cases h
    · cases h
      exact hw
  · obtain ⟨rfl, rfl⟩ := hw.unique h
    rfl

theorem Writes.onto {w : Writer} {bs : Bytes} (h : w.Writes bs) (out : Array UInt8) :
    w.onto out = (.ok (), out ++ bs) := by
  unfold Writer.onto
  rw [h out]

/-- Whatever stands behind the old end of the buffer after a failure is cut off again. -/
theorem Appends.onto_error {w : Writer} {e : WriteError} {bs : Bytes}
    (h : w.Appends (.error e) bs) (out : Array UInt8) : w.onto out = (.error e, out) := by
  unfold Writer.onto
  rw [h out]
  have htake : (out ++ bs).take out.size = out := Array.toList_inj.mp (by simp)
  exact congrArg (Prod.mk _) htake

end Writer

end ZigbeeGateway
