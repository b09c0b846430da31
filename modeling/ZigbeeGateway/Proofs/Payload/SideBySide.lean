-- Two readings of the same bytes, side by side: in the light of two clusters, or with room for
-- fewer and for more values inside each other. They take the same bytes, and what they give
-- differs in nothing but what the attributes are called.
import Mathlib.Data.List.Forall2
import ZigbeeGateway.Proofs.Fields
import ZigbeeGateway.Proofs.Payload.ReaderRuns
namespace ZigbeeGateway

namespace Reader

variable {α β α' β' : Type} {strict : Prop} {R : α → α' → Prop} {S : β → β' → Prop}

/-! ## Two readers on the same bytes -/

/-- What the first reader accepts the second one accepts too, with a result that belongs to the
first one's. If `strict` holds, what the first reader refuses the second one refuses too. -/
structure Beside (strict : Prop) (R : α → α' → Prop) (r : Reader α) (r' : Reader α') : Prop where
  accepts : ∀ {bs x rest}, r bs = .ok (x, rest) → ∃ y, r' bs = .ok (y, rest) ∧ R x y
  refuses : strict → ∀ {bs e}, r bs = .error e → r' bs = .error e

theorem Beside.mono {R' : α → α' → Prop} {r : Reader α} {r' : Reader α'}
    (h : Beside strict R r r') (hR : ∀ x y, R x y → R' x y) : Beside strict R' r r' where
  accepts hr := by
    obtain ⟨y, hy, hxy⟩ := h.accepts hr
    exact ⟨y, hy, hR _ y hxy⟩
  refuses := h.refuses

theorem beside_self (r : Reader α) : Beside strict Eq r r where
  accepts hr := ⟨_, hr, rfl⟩
  refuses _ _ _ hr := hr

theorem beside_pure {x : α} {y : α'} (h : R x y) : Beside strict R (pure x) (pure y) where
  accepts hr := by
    cases hr
    exact ⟨y, rfl, h⟩
  refuses _ _ _ hr := by cases hr

theorem beside_throw {e : ReadError} {r' : Reader α'} (h : strict → r' = throw e) :
    Beside strict R (throw e) r' where
  accepts hr := by cases hr
  refuses hstrict bs e' hr := by
    rw [h hstrict]
    cases hr
    rfl

theorem Beside.bind {m : Reader α} {m' : Reader α'} {f : α → Reader β} {f' : α' → Reader β'}
    (hm : Beside strict R m m') (hf : ∀ x y, R x y → Beside strict S (f x) (f' y)) :
    Beside strict S (m >>= f) (m' >>= f') where
  accepts {bs z rest} hr := by
    obtain ⟨x, mid, hx, hz⟩ := bind_eq_ok hr
    obtain ⟨y, hy, hxy⟩ := hm.accepts hx
    obtain ⟨z', hz', hzz'⟩ := (hf x y hxy).accepts hz
    exact ⟨z', by rw [bind_run hy, hz'], hzz'⟩
  refuses hstrict {bs e} hr := by
    rcases hx : m bs with e' | ⟨x, mid⟩
    · rw [bind_error hx] at hr
      cases hr
      exact bind_error (hm.refuses hstrict hx)
    · rw [bind_run hx] at hr
      obtain ⟨y, hy, hxy⟩ := hm.accepts hx
      rw [bind_run hy, (hf x y hxy).refuses hstrict hr]

/-- A part that the two readers have in common. -/
theorem Beside.after {f : α → Reader β} {f' : α → Reader β'} (m : Reader α)
    (h : ∀ x, Beside strict S (f x) (f' x)) : Beside strict S (m >>= f) (m >>= f') := by
  refine (beside_self m).bind ?_
  rintro x _ rfl
  exact h x

theorem Beside.map {m : Reader α} {m' : Reader α'} {g : α → β} {g' : α' → β'}
    (hm : Beside strict R m m') (hg : ∀ x y, R x y → S (g x) (g' y)) :
    Beside strict S (g <$> m) (g' <$> m') :=
  hm.bind fun x y hxy => beside_pure (hg x y hxy)

/-! ## Readers used more than once -/

variable {item : Reader α} {item' : Reader α'}

theorem Beside.timesFrom (h : Beside strict R item item') {before : List α} {before' : List α'}
    (hbefore : List.Forall₂ R before before') (count : Nat) :
    Beside strict (List.Forall₂ R) (timesFrom item before count)
      (timesFrom item' before' count) := by
  induction count generalizing before before' with
  | zero => exact beside_pure (List.rel_reverse hbefore)
  | succ count ih => exact h.bind fun x y hxy => ih (.cons hxy hbefore)

theorem Beside.untilEndFrom (h : Beside strict R item item') (stuck : ReadError)
    {before : List α} {before' : List α'} (hbefore : List.Forall₂ R before before') :
    Beside strict (List.Forall₂ R) (untilEndFrom item stuck before)
      (untilEndFrom item' stuck before') where
  accepts {bs xs rest} hr := by
    fun_induction Reader.untilEndFrom item stuck before bs generalizing before' with
    | case1 before bs hempty =>
      cases hr
      obtain rfl := List.isEmpty_iff.mp hempty
      exact ⟨before'.reverse, untilEndFrom_nil .., List.rel_reverse hbefore⟩
    | case2 => cases hr
    | case3 before bs hempty x mid hx hshort ih =>
      obtain ⟨y, hy, hxy⟩ := h.accepts hx
      obtain ⟨ys, hys, hall⟩ := ih (.cons hxy hbefore) hr
      exact ⟨ys, (untilEndFrom_step stuck before' hy hshort).trans hys, hall⟩
    | case4 => cases hr
  refuses hstrict {bs e} hr := by
    fun_induction Reader.untilEndFrom item stuck before bs generalizing before' with
    | case1 => cases hr
    | case2 before bs hempty e' hx =>
      cases hr
      exact untilEndFrom_error stuck before' (by simpa using hempty) (h.refuses hstrict hx)
    | case3 before bs hempty x mid hx hshort ih =>
      obtain ⟨y, hy, hxy⟩ := h.accepts hx
      rw [untilEndFrom_step stuck before' hy hshort]
      exact ih (.cons hxy hbefore) hr
    | case4 before bs hempty x mid hx hlong =>
      obtain ⟨y, hy, -⟩ := h.accepts hx
      cases hr
      rw [Reader.untilEndFrom, if_neg hempty, hy]
      simp only [dif_neg hlong]

end Reader

open Reader

/-! ## Values that differ in the names of attributes -/

mutual

/-- Two values of a type that are the same but for the attributes in them, each of which is told in
the light of another cluster. -/
inductive PayloadType.Alike (rc wc : Option Cluster) : PayloadType → Value → Value → Prop
  | named (id : Nat) :
      Alike rc wc (.scalar .attributeId) (attributeValue rc id) (attributeValue wc id)
  | null (t : Datatype) : Alike rc wc (.scalar t) .null .null
  | flat {t : Datatype} (v : Value) :
      t.isFlat = true → t ≠ .attributeId → Alike rc wc (.scalar t) v v
  | elements {kind : SequenceKind} {t : Datatype} {vs ws : List Value} :
      AlikeItems rc wc (.scalar t) vs ws →
      Alike rc wc (.scalar (.sequence kind))
        (.ofFields [("element_type", .text t.name), ("elements", .list vs)])
        (.ofFields [("element_type", .text t.name), ("elements", .list ws)])
  | noElements {kind : SequenceKind} {t : Datatype} :
      Alike rc wc (.scalar (.sequence kind))
        (.ofFields [("element_type", .text t.name), ("elements", .null)])
        (.ofFields [("element_type", .text t.name), ("elements", .null)])
  | members {vs ws : List Value} :
      AlikeItems rc wc .variant vs ws → Alike rc wc (.scalar .struct) (.list vs) (.list ws)
  | typed {t : Datatype} {v w : Value} :
      Alike rc wc (.scalar t) v w → Alike rc wc .variant (.typed t.name v) (.typed t.name w)
  | object {properties : Properties} {entries entries' : List (String × Value)} :
      AlikeProperties rc wc properties entries entries' →
      Alike rc wc (.object properties) (.ofFields entries) (.ofFields entries')
  | items {item : PayloadType} {vs ws : List Value} :
      AlikeItems rc wc item vs ws → Alike rc wc (.repeated item) (.list vs) (.list ws)
  | failed {inner : PayloadType} (status : UInt8) :
      Alike rc wc (.errorOr inner) (.ofFields [("status", .ofByte status)])
        (.ofFields [("status", .ofByte status)])
  | success {inner : PayloadType} {status : UInt8} {v w : Value} :
      Alike rc wc inner v w →
      Alike rc wc (.errorOr inner) (.ofFields [("status", .ofByte status), ("value", v)])
        (.ofFields [("status", .ofByte status), ("value", w)])

/-- As many items on both sides, each alike the one beside it. -/
inductive PayloadType.AlikeItems (rc wc : Option Cluster) :
    PayloadType → List Value → List Value → Prop
  | nil {item : PayloadType} : AlikeItems rc wc item [] []
  | cons {item : PayloadType} {v w : Value} {vs ws : List Value} :
      Alike rc wc item v w → AlikeItems rc wc item vs ws →
      AlikeItems rc wc item (v :: vs) (w :: ws)

/-- The values of the same properties, each alike the one beside it. -/
inductive PayloadType.AlikeProperties (rc wc : Option Cluster) :
    Properties → List (String × Value) → List (String × Value) → Prop
  | nil : AlikeProperties rc wc [] [] []
  | cons {name : String} {type : PayloadType} {rest : Properties} {v w : Value}
      {entries entries' : List (String × Value)} :
      Alike rc wc type v w → AlikeProperties rc wc rest entries entries' →
      AlikeProperties rc wc ((name, type) :: rest) ((name, v) :: entries) ((name, w) :: entries')

end

namespace PayloadType

variable {rc wc : Option Cluster}

theorem alikeItems_of_forall₂ {item : PayloadType} {vs ws : List Value}
    (h : List.Forall₂ (Alike rc wc item) vs ws) : AlikeItems rc wc item vs ws := by
  induction h with
  | nil => exact .nil
  | cons hv _ ih => exact .cons hv ih

mutual

/-- In the light of one cluster nothing differs. -/
theorem Alike.eq {type : PayloadType} {v w : Value} : Alike rc rc type v w → v = w
  | .named _ | .null _ | .flat _ _ _ | .noElements | .failed _ => rfl
  | .elements h => by rw [h.eq]
  | .members h => by rw [h.eq]
  | .typed h => by rw [h.eq]
  | .object h => by rw [h.eq]
  | .items h => by rw [h.eq]
  | .success h => by rw [h.eq]

theorem AlikeItems.eq {item : PayloadType} {vs ws : List Value} :
    AlikeItems rc rc item vs ws → vs = ws
  | .nil => rfl
  | .cons h hs => by rw [h.eq, hs.eq]

theorem AlikeProperties.eq {properties : Properties} {entries entries' : List (String × Value)} :
    AlikeProperties rc rc properties entries entries' → entries = entries'
  | .nil => rfl
  | .cons h hs => by rw [h.eq, hs.eq]

end

end PayloadType

/-! ## Datatypes -/

section Datatypes

variable {rc wc : Option Cluster} {strict : Prop} {room room' : Nat}

theorem exists_room (hle : room + 1 ≤ room') (hstrict : strict → room + 1 = room') :
    ∃ less, room' = less + 1 ∧ room ≤ less ∧ (strict → room = less) :=
  ⟨room' - 1, by omega, by omega, fun h => by have := hstrict h; omega⟩

/-- Among values that hold no other ones a cluster changes the attributes alone. -/
theorem beside_flat (room room' : Nat) {t : Datatype} (h : t.isFlat = true) :
    Beside strict (PayloadType.Alike rc wc (.scalar t)) (t.read rc room) (t.read wc room') := by
  rw [Datatype.read_flat rc room h, Datatype.read_flat wc room' h]
  by_cases hattribute : t = .attributeId
  · subst hattribute
    refine Beside.after (number 2) fun id => beside_pure ?_
    split
    · exact .null _
    · exact .named id
  · have hsame : t.readFlat rc = t.readFlat wc := by
      cases t with
      | attributeId => exact absurd rfl hattribute
      | _ => rfl
    rw [hsame]
    refine (beside_self _).mono ?_
    rintro v _ rfl
    exact .flat v h hattribute

theorem beside_items {item item' : Reader Value} {R S : Value → Value → Prop}
    (h : Beside strict R item item') (hnull : S .null .null)
    (hlist : ∀ vs ws, List.Forall₂ R vs ws → S (.list vs) (.list ws)) :
    Beside strict S (readItems item) (readItems item') := by
  refine Beside.after (number 2) fun count => ?_
  split
  · exact beside_pure hnull
  · exact (h.timesFrom .nil count).map hlist

theorem beside_tagged {read read' : Datatype → Reader Value}
    (h : ∀ t, Beside strict (PayloadType.Alike rc wc (.scalar t)) (read t) (read' t)) :
    Beside strict (PayloadType.Alike rc wc .variant) (readTagged read) (readTagged read') :=
  Beside.after readTag fun t => (h t).map fun _ _ => .typed

/-- With the same room a datatype is read alike in the light of two clusters, and with more room
nothing is lost. -/
theorem beside_datatype (hle : room ≤ room') (hstrict : strict → room = room') (t : Datatype) :
    Beside strict (PayloadType.Alike rc wc (.scalar t)) (t.read rc room) (t.read wc room') := by
  induction room generalizing room' t with
  | zero =>
    by_cases hflat : t.isFlat = true
    · exact beside_flat 0 room' hflat
    · rw [Bool.not_eq_true] at hflat
      rw [Datatype.read_noRoom rc hflat]
      refine beside_throw fun h => ?_
      rw [← hstrict h, Datatype.read_noRoom wc hflat]
  | succ room ih =>
    obtain ⟨less, rfl, hless, hsame⟩ := exists_room hle hstrict
    have hinside := ih hless hsame
    cases t with
    | sequence kind =>
      refine Beside.after readTag fun element => ?_
      refine Beside.bind (beside_items (hinside element) ?_ ?_) fun v w h => beside_pure h
      · exact .noElements
      · exact fun vs ws h => .elements (PayloadType.alikeItems_of_forall₂ h)
    | struct =>
      refine beside_items (beside_tagged hinside) (.null _) ?_
      exact fun vs ws h => .members (PayloadType.alikeItems_of_forall₂ h)
    | _ => exact beside_flat (room + 1) (less + 1) rfl

end Datatypes

/-! ## Payload types -/

namespace PayloadType

variable {rc wc : Option Cluster} {strict : Prop}

mutual

/-- With the same room a value is read alike in the light of two clusters, and with more room
nothing is lost. -/
theorem beside_read {room room' : Nat} (hle : room ≤ room') (hstrict : strict → room = room')
    (type : PayloadType) :
    Beside strict (Alike rc wc type) (type.read rc room) (type.read wc room') := by
  match type with
  | variant => exact beside_tagged (beside_datatype hle hstrict)
  | scalar t => exact beside_datatype hle hstrict t
  | object properties =>
    cases room with
    | zero =>
      refine beside_throw fun h => ?_
      rw [← hstrict h]
      rfl
    | succ room =>
      obtain ⟨less, rfl, hless, hsame⟩ := exists_room hle hstrict
      refine Beside.map (beside_properties hless hsame properties [] []) ?_
      rintro _ _ ⟨entries, entries', halike, rfl, rfl⟩
      exact .object halike
  | repeated item =>
    cases room with
    | zero =>
      refine beside_throw fun h => ?_
      rw [← hstrict h]
      rfl
    | succ room =>
      obtain ⟨less, rfl, hless, hsame⟩ := exists_room hle hstrict
      refine Beside.map ((beside_read hless hsame item).untilEndFrom _ .nil) ?_
      exact fun vs ws h => .items (alikeItems_of_forall₂ h)
  | errorOr inner =>
    refine Beside.after byte fun status => ?_
    split
    · exact beside_pure (.failed status)
    · cases room with
      | zero =>
        refine beside_throw fun h => ?_
        rw [← hstrict h]
      | succ room =>
        obtain ⟨less, rfl, hless, hsame⟩ := exists_room hle hstrict
        exact (beside_read hless hsame inner).bind fun v w h => beside_pure (.success h)

/-- The values of some properties, set one after the other on both sides. -/
theorem beside_properties {room room' : Nat} (hle : room ≤ room')
    (hstrict : strict → room = room') (properties : Properties) (fields fields' : Fields Value) :
    Beside strict (fun result result' => ∃ entries entries',
        AlikeProperties rc wc properties entries entries' ∧
        result = Fields.setAll entries fields ∧ result' = Fields.setAll entries' fields')
      (readProperties rc room fields properties) (readProperties wc room' fields' properties) := by
  match properties with
  | [] => exact beside_pure ⟨[], [], .nil, rfl, rfl⟩
  | (name, type) :: rest =>
    refine (beside_read hle hstrict type).bind fun v w hvw => ?_
    refine (beside_properties hle hstrict rest _ _).mono ?_
    rintro _ _ ⟨entries, entries', halike, rfl, rfl⟩
    exact ⟨(name, v) :: entries, (name, w) :: entries', .cons hvw halike, rfl, rfl⟩

end

end PayloadType

end ZigbeeGateway
