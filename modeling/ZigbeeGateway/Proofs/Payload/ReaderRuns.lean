-- How readers run: what a reader that is made of others does with some bytes. The laws on
-- readers below `Proofs` use these equations and never unfold the reader monad.
import ZigbeeGateway.Payload.Read
namespace ZigbeeGateway

namespace Reader

variable {α β : Type}

/-! ## One reader after the other -/

theorem pure_run (x : α) (bs : Bytes) : (pure x : Reader α) bs = .ok (x, bs) := rfl

theorem bind_run {m : Reader α} {f : α → Reader β} {bs mid : Bytes} {x : α}
    (h : m bs = .ok (x, mid)) : (m >>= f) bs = f x mid := by
  simp only [bind, StateT.bind, h, Except.bind]

theorem bind_error {m : Reader α} {f : α → Reader β} {bs : Bytes} {e : ReadError}
    (h : m bs = .error e) : (m >>= f) bs = .error e := by
  simp only [bind, StateT.bind, h, Except.bind]

theorem bind_eq_ok {m : Reader α} {f : α → Reader β} {bs rest : Bytes} {y : β}
    (h : (m >>= f) bs = .ok (y, rest)) : ∃ x mid, m bs = .ok (x, mid) ∧ f x mid = .ok (y, rest) := by
  rcases hm : m bs with e | ⟨x, mid⟩
  · rw [bind_error hm] at h
    cases h
  · rw [bind_run hm] at h
    exact ⟨x, mid, rfl, h⟩

theorem map_eq_bind (g : α → β) (m : Reader α) : g <$> m = m >>= fun x => pure (g x) := rfl

theorem map_run {g : α → β} {m : Reader α} {bs mid : Bytes} {x : α} (h : m bs = .ok (x, mid)) :
    (g <$> m) bs = .ok (g x, mid) := by
  rw [map_eq_bind, bind_run h, pure_run]

theorem map_error {g : α → β} {m : Reader α} {bs : Bytes} {e : ReadError} (h : m bs = .error e) :
    (g <$> m) bs = .error e := by
  rw [map_eq_bind, bind_error h]

theorem map_eq_ok {g : α → β} {m : Reader α} {bs rest : Bytes} {y : β}
    (h : (g <$> m) bs = .ok (y, rest)) : ∃ x, m bs = .ok (x, rest) ∧ g x = y := by
  obtain ⟨x, mid, hm, hx⟩ := bind_eq_ok (map_eq_bind g m ▸ h)
  cases hx
  exact ⟨x, hm, rfl⟩

/-! ## Bytes and numbers -/

theorem take_eq_ok {count : Nat} {bs c rest : Bytes} (h : take count bs = .ok (c, rest)) :
    bs = c ++ rest ∧ c.length = count := by
  simp only [take] at h
  split at h
  · cases h
  · rename_i hlen
    cases h
    simp only [List.length_take] at hlen ⊢
    exact ⟨(List.take_append_drop ..).symm, by omega⟩

theorem take_run {count : Nat} {c : Bytes} (h : c.length = count) (rest : Bytes) :
    take count (c ++ rest) = .ok (c, rest) := h ▸ take_append c rest

theorem take_short {count : Nat} {bs : Bytes} (h : bs.length < count) :
    take count bs = .error (.bufferTooSmall count bs.length) := by
  unfold take
  rw [if_pos (by simp only [List.length_take]; omega)]

theorem number_eq_ok {width n : Nat} {bs rest : Bytes} (h : number width bs = .ok (n, rest)) :
    n < LittleEndian.limit width ∧ bs = LittleEndian.bytes width n ++ rest := by
  obtain ⟨c, hc, rfl⟩ := map_eq_ok h
  obtain ⟨rfl, rfl⟩ := take_eq_ok hc
  exact ⟨LittleEndian.value_lt c, by rw [LittleEndian.bytes_value]⟩

theorem number_run {width n : Nat} (h : n < LittleEndian.limit width) (rest : Bytes) :
    number width (LittleEndian.bytes width n ++ rest) = .ok (n, rest) := by
  rw [number_append, Nat.mod_eq_of_lt h]

theorem byte_eq_ok {b : UInt8} {bs rest : Bytes} (h : byte bs = .ok (b, rest)) :
    bs = b :: rest := by
  obtain ⟨n, hn, rfl⟩ := map_eq_ok h
  obtain ⟨-, rfl⟩ := number_eq_ok hn
  rfl

theorem byte_run (b : UInt8) (rest : Bytes) : byte (b :: rest) = .ok (b, rest) := by
  have h : take 1 (b :: rest) = .ok ([b], rest) := take_run (c := [b]) rfl rest
  unfold byte number
  rw [map_run (map_run h)]
  simp [LittleEndian.value]

/-! ## Reading up to the end -/

section UntilEnd

variable {item : Reader α} (stuck : ReadError) (before : List α)

/-- At the end of the message the results are all there. -/
theorem untilEndFrom_nil (item : Reader α) :
    untilEndFrom item stuck before [] = .ok (before.reverse, []) := by
  rw [untilEndFrom]
  rfl

/-- A result that took some bytes is one result more. -/
theorem untilEndFrom_step {bs mid : Bytes} {x : α} (h : item bs = .ok (x, mid))
    (hshort : mid.length < bs.length) :
    untilEndFrom item stuck before bs = untilEndFrom item stuck (x :: before) mid := by
  have hempty : bs.isEmpty = false := by
    rw [List.isEmpty_eq_false_iff_exists_mem]
    exact List.exists_mem_of_length_pos (by omega)
  rw [untilEndFrom, hempty, if_neg Bool.false_ne_true, h]
  simp only [dif_pos hshort]

theorem untilEndFrom_piece {piece s : Bytes} {x : α} (hne : piece ≠ [])
    (h : item (piece ++ s) = .ok (x, s)) :
    untilEndFrom item stuck before (piece ++ s) = untilEndFrom item stuck (x :: before) s := by
  refine untilEndFrom_step stuck before h ?_
  have hpos := List.length_pos_iff.mpr hne
  rw [List.length_append]
  omega

theorem untilEndFrom_error {bs : Bytes} {e : ReadError} (hne : bs ≠ []) (h : item bs = .error e) :
    untilEndFrom item stuck before bs = .error e := by
  have hempty : bs.isEmpty = false := by simp [hne]
  rw [untilEndFrom, hempty, if_neg Bool.false_ne_true, h]

end UntilEnd

end Reader

/-! ## Datatypes and payload types -/

namespace Datatype

/-- Whether no values stand inside those of a datatype. -/
def isFlat : Datatype → Bool
  | sequence _ | struct => false
  | _ => true

variable {t : Datatype}

/-- Values that hold no other ones need no room for them. -/
theorem read_flat (cluster : Option Cluster) (room : Nat) (h : t.isFlat = true) :
    t.read cluster room = t.readFlat cluster := by
  cases t with
  | sequence _ | struct => cases h
  | _ => cases room <;> rfl

theorem read_noRoom (cluster : Option Cluster) (h : t.isFlat = false) :
    t.read cluster 0 = throw .nestingTooDeep := by
  cases t with
  | sequence _ | struct => rfl
  | _ => cases h

end Datatype

namespace PayloadType

variable {cluster : Option Cluster} {type : PayloadType} {v : Value} {bs : Bytes}

theorem decodeAll_run (h : type.decode cluster bs = .ok (v, [])) :
    type.decodeAll cluster bs = .ok v := by
  simp only [decodeAll, h]
  rfl

theorem decodeAll_eq_ok (h : type.decodeAll cluster bs = .ok v) :
    type.decode cluster bs = .ok (v, []) := by
  rcases hd : type.decode cluster bs with e | ⟨w, rest⟩
  · simp [decodeAll, hd, bind, Except.bind] at h
  · rcases rest with _ | ⟨b, rest⟩
    · rw [decodeAll_run hd] at h
      rw [Except.ok.inj h]
    · simp [decodeAll, hd, bind, Except.bind, throw, throwThe, MonadExceptOf.throw] at h

theorem decodeAll_error {e : ReadError} (h : type.decode cluster bs = .error e) :
    type.decodeAll cluster bs = .error e := by
  simp only [decodeAll, h]
  rfl

end PayloadType

end ZigbeeGateway
