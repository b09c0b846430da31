-- Values that end by themselves. Outside repetitions a reader knows from the bytes of a value
-- alone where the value ends: what follows is left untouched, and every cut through the value is
-- noticed as a buffer that is too small.
import ZigbeeGateway.Proofs.Payload.ReaderRuns
namespace ZigbeeGateway

namespace Reader

variable {α β : Type}

/-! ## Results that end by themselves -/

/-- The bytes `c` are read as `x` whatever follows them, and any shorter beginning of them is
refused with a count of bytes that are missing. -/
structure Delimits (r : Reader α) (c : Bytes) (x : α) : Prop where
  full : ∀ s, r (c ++ s) = .ok (x, s)
  cut : ∀ p, p <+: c → p ≠ c →
    ∃ needed present, r p = .error (.bufferTooSmall needed present) ∧ present < needed

/-- Whatever the reader accepts ends by itself. -/
def SelfDelimiting (r : Reader α) : Prop :=
  ∀ bs x rest, r bs = .ok (x, rest) → ∃ c, bs = c ++ rest ∧ r.Delimits c x

/-- A beginning of two parts ends in the first one, or it has all of the first one. -/
theorem cut_append {p c d : Bytes} (h : p <+: c ++ d) (hne : p ≠ c ++ d) :
    (p <+: c ∧ p ≠ c) ∨ ∃ q, p = c ++ q ∧ q <+: d ∧ q ≠ d := by
  rcases List.prefix_or_prefix_of_prefix h (List.prefix_append c d) with hp | ⟨q, rfl⟩
  · by_cases hpc : p = c
    · subst hpc
      refine Or.inr ⟨[], by simp, List.nil_prefix, ?_⟩
      rintro rfl
      simp at hne
    · exact Or.inl ⟨hp, hpc⟩
  · refine Or.inr ⟨q, rfl, (List.prefix_append_right_inj c).mp h, ?_⟩
    rintro rfl
    exact hne rfl

theorem Delimits.pure (x : α) : Delimits (Pure.pure x : Reader α) [] x where
  full _ := rfl
  cut _ hp hne := absurd (List.prefix_nil.mp hp) hne

theorem Delimits.bind {m : Reader α} {f : α → Reader β} {c d : Bytes} {x : α} {y : β}
    (hm : m.Delimits c x) (hf : (f x).Delimits d y) : Delimits (m >>= f) (c ++ d) y where
  full s := by
    rw [List.append_assoc, bind_run (hm.full _), hf.full]
  cut p hp hne := by
    rcases cut_append hp hne with ⟨hpc, hpne⟩ | ⟨q, rfl, hq, hqne⟩
    · obtain ⟨needed, present, he, hlt⟩ := hm.cut p hpc hpne
      exact ⟨needed, present, bind_error he, hlt⟩
    · rw [bind_run (hm.full q)]
      exact hf.cut q hq hqne

/-! ## Readers that are made of others -/

theorem selfDelimiting_pure (x : α) : SelfDelimiting (pure x : Reader α) := by
  intro bs y rest h
  cases h
  exact ⟨[], rfl, Delimits.pure x⟩

theorem selfDelimiting_throw (e : ReadError) : SelfDelimiting (throw e : Reader α) := by
  intro bs x rest h
  cases h

theorem SelfDelimiting.bind {m : Reader α} {f : α → Reader β} (hm : m.SelfDelimiting)
    (hf : ∀ x, (f x).SelfDelimiting) : SelfDelimiting (m >>= f) := by
  intro bs y rest h
  obtain ⟨x, mid, hx, hy⟩ := bind_eq_ok h
  obtain ⟨c, rfl, hc⟩ := hm bs x mid hx
  obtain ⟨d, rfl, hd⟩ := hf x mid y rest hy
  exact ⟨c ++ d, (List.append_assoc ..).symm, hc.bind hd⟩

theorem SelfDelimiting.map {m : Reader α} (g : α → β) (hm : m.SelfDelimiting) :
    SelfDelimiting (g <$> m) :=
  hm.bind fun x => selfDelimiting_pure (g x)

theorem SelfDelimiting.ite {p : Prop} [Decidable p] {r r' : Reader α} (h : r.SelfDelimiting)
    (h' : r'.SelfDelimiting) : SelfDelimiting (if p then r else r') := by
  split
  · exact h
  · exact h'

theorem selfDelimiting_take (count : Nat) : (take count).SelfDelimiting := by
  intro bs c rest h
  obtain ⟨rfl, rfl⟩ := take_eq_ok h
  refine ⟨c, rfl, ⟨take_append c, ?_⟩⟩
  intro p hp hne
  have hlt : p.length < c.length := by
    refine Nat.lt_of_le_of_ne hp.length_le ?_
    exact fun hlen => hne (hp.eq_of_length hlen)
  exact ⟨_, _, take_short hlt, hlt⟩

theorem selfDelimiting_number (width : Nat) : (number width).SelfDelimiting :=
  (selfDelimiting_take width).map _

theorem selfDelimiting_byte : byte.SelfDelimiting := (selfDelimiting_number 1).map _

theorem selfDelimiting_timesFrom {item : Reader α} (h : item.SelfDelimiting) (before : List α)
    (count : Nat) : (timesFrom item before count).SelfDelimiting := by
  induction count generalizing before with
  | zero => exact selfDelimiting_pure _
  | succ n ih => exact h.bind fun x => ih (x :: before)

theorem selfDelimiting_times {item : Reader α} (h : item.SelfDelimiting) (count : Nat) :
    (times item count).SelfDelimiting := selfDelimiting_timesFrom h [] count

end Reader

open Reader

/-! ## Datatypes -/

theorem selfDelimiting_readOrNull (width : Nat) (meaning : Nat → Value) :
    (readOrNull width meaning).SelfDelimiting :=
  (selfDelimiting_number width).bind fun _ => selfDelimiting_pure _

theorem selfDelimiting_readFloat (layout : FloatLayout) : (readFloat layout).SelfDelimiting :=
  (selfDelimiting_number layout.width).map _

theorem selfDelimiting_readCounted (size : LengthSize) (meaning : Bytes → Value) :
    (readCounted size meaning).SelfDelimiting := by
  refine (selfDelimiting_number size.bytes).bind fun length => ?_
  refine (selfDelimiting_pure _).ite ?_
  exact (selfDelimiting_take length).bind fun bs => selfDelimiting_pure (meaning bs)

theorem selfDelimiting_readFields (fields : List (String × Int)) :
    (readFields fields).SelfDelimiting :=
  (selfDelimiting_take fields.length).bind fun _ => selfDelimiting_pure _

theorem selfDelimiting_readBool : readBool.SelfDelimiting := by
  refine selfDelimiting_byte.bind fun b => ?_
  split
  · exact selfDelimiting_pure _
  · exact selfDelimiting_pure _
  · exact selfDelimiting_pure _
  · exact selfDelimiting_throw _

theorem selfDelimiting_readTag : readTag.SelfDelimiting := by
  refine selfDelimiting_byte.bind fun tag => ?_
  split
  · exact selfDelimiting_pure _
  · exact selfDelimiting_throw _

theorem selfDelimiting_readTagged {read : Datatype → Reader Value}
    (h : ∀ t, (read t).SelfDelimiting) : (readTagged read).SelfDelimiting :=
  selfDelimiting_readTag.bind fun t => (h t).bind fun _ => selfDelimiting_pure _

theorem selfDelimiting_readItems {item : Reader Value} (h : item.SelfDelimiting) :
    (readItems item).SelfDelimiting := by
  refine (selfDelimiting_number 2).bind fun count => ?_
  refine (selfDelimiting_pure _).ite ?_
  exact (selfDelimiting_times h count).bind fun _ => selfDelimiting_pure _

theorem selfDelimiting_readFlat (cluster : Option Cluster) (t : Datatype) :
    (t.readFlat cluster).SelfDelimiting := by
  cases t with
  | data w => exact (selfDelimiting_take w.bytes).map _
  | key128 => exact (selfDelimiting_take 16).map _
  | bool => exact selfDelimiting_readBool
  | semi => exact selfDelimiting_readFloat _
  | single => exact selfDelimiting_readFloat _
  | double => exact selfDelimiting_readFloat _
  | octets size => exact selfDelimiting_readCounted _ _
  | text size => exact selfDelimiting_readCounted _ _
  | timeOfDay => exact selfDelimiting_readFields _
  | date => exact selfDelimiting_readFields _
  | noData => exact selfDelimiting_pure _
  | unknown => exact selfDelimiting_pure _
  | sequence kind => exact selfDelimiting_pure _
  | struct => exact selfDelimiting_pure _
  | _ => exact selfDelimiting_readOrNull _ _

theorem selfDelimiting_datatype (cluster : Option Cluster) (room : Nat) (t : Datatype) :
    (t.read cluster room).SelfDelimiting := by
  induction room generalizing t with
  | zero =>
    cases t with
    | sequence kind => exact selfDelimiting_throw _
    | struct => exact selfDelimiting_throw _
    | _ => exact selfDelimiting_readFlat cluster _
  | succ room ih =>
    cases t with
    | sequence kind =>
      refine selfDelimiting_readTag.bind fun element => ?_
      exact (selfDelimiting_readItems (ih element)).bind fun _ => selfDelimiting_pure _
    | struct => exact selfDelimiting_readItems (selfDelimiting_readTagged ih)
    | _ => exact selfDelimiting_readFlat cluster _

/-! ## Payload types -/

namespace PayloadType

mutual

theorem selfDelimiting_read (cluster : Option Cluster) (room : Nat) (type : PayloadType)
    (h : type.hasRepeated = false) : (type.read cluster room).SelfDelimiting := by
  match room, type with
  | room, variant => exact selfDelimiting_readTagged (selfDelimiting_datatype cluster room)
  | room, scalar t => exact selfDelimiting_datatype cluster room t
  | 0, object _ => exact selfDelimiting_throw _
  | room + 1, object properties =>
    exact (selfDelimiting_readProperties cluster room [] properties h).map _
  | _, repeated _ => simp [hasRepeated] at h
  | room, errorOr inner =>
    refine selfDelimiting_byte.bind fun status => ?_
    refine (selfDelimiting_pure _).ite ?_
    match room with
    | 0 => exact selfDelimiting_throw _
    | room + 1 => exact (selfDelimiting_read cluster room inner h).bind fun _ => selfDelimiting_pure _

theorem selfDelimiting_readProperties (cluster : Option Cluster) (room : Nat)
    (fields : Fields Value) (properties : List (String × PayloadType))
    (h : anyRepeated properties = false) :
    (readProperties cluster room fields properties).SelfDelimiting := by
  match properties with
  | [] => exact selfDelimiting_pure _
  | (name, type) :: rest =>
    rw [anyRepeated, Bool.or_eq_false_iff] at h
    refine (selfDelimiting_read cluster room type h.1).bind fun v => ?_
    exact selfDelimiting_readProperties cluster room _ rest h.2

end

/-! ## The law -/

/-- A value of a type without repetitions ends by itself. Its bytes `c` are read as that value
whatever follows them, and nothing of what follows is touched; every shorter beginning of `c` is
refused, and the refusal says that more bytes are needed than there are. So no message that is
read to its end begins another one. -/
theorem a_cut_through_a_value_is_noticed (cluster : Option Cluster) (type : PayloadType)
    (htype : type.hasRepeated = false) :
    (∀ bs v rest, type.decode cluster bs = .ok (v, rest) →
      ∃ c, bs = c ++ rest ∧ (∀ s, type.decode cluster (c ++ s) = .ok (v, s)) ∧
        ∀ p, p <+: c → p ≠ c → ∃ needed present,
          type.decode cluster p = .error (.bufferTooSmall needed present) ∧ present < needed) ∧
    ∀ d₁ d₂ v₁ v₂, type.decodeAll cluster d₁ = .ok v₁ → type.decodeAll cluster d₂ = .ok v₂ →
      d₁ <+: d₂ → d₁ = d₂ := by
  have hself := selfDelimiting_read cluster maxNesting type htype
  refine ⟨?_, ?_⟩
  · intro bs v rest h
    obtain ⟨c, hc, hfull, hcut⟩ := hself bs v rest h
    exact ⟨c, hc, hfull, hcut⟩
  · intro d₁ d₂ v₁ v₂ h₁ h₂ hpre
    have h₁ := decodeAll_eq_ok h₁
    obtain ⟨c, rfl, -, hcut⟩ := hself d₂ v₂ [] (decodeAll_eq_ok h₂)
    rw [List.append_nil] at hpre ⊢
    by_cases hne : d₁ = c
    · exact hne
    · obtain ⟨needed, present, he, -⟩ := hcut d₁ hpre hne
      rw [decode, he] at h₁
      cases h₁

/-- An attribute report that is cut after the first byte of its number. -/
theorem a_cut_report_is_noticed :
    let report := object [("id", scalar .attributeId), ("result", errorOr variant)]
    report.hasRepeated = false ∧ ∃ c : Bytes, [0x05, 0x00, 0x00, 0x20, 0x2a, 0x77] = c ++ [0x77] ∧
      ∃ needed present, report.decode none [0x05] = .error (.bufferTooSmall needed present) ∧
        present < needed := by
  intro report
  have hread : report.decode none [0x05, 0x00, 0x00, 0x20, 0x2a, 0x77] = .ok (.ofFields
      [("id", .ofNat 5), ("result", .ofFields [("status", .ofNat 0),
        ("value", .typed "uint8" (.ofNat 42))])], [0x77]) := by rfl
  obtain ⟨hvalue, -⟩ := a_cut_through_a_value_is_noticed none report rfl
  obtain ⟨c, hc, -, hcut⟩ := hvalue _ _ _ hread
  have hvaluebytes : c = [0x05, 0x00, 0x00, 0x20, 0x2a] := List.append_cancel_right hc.symm
  subst hvaluebytes
  exact ⟨rfl, _, hc, hcut [0x05] (by decide) (by decide)⟩

end PayloadType

end ZigbeeGateway
