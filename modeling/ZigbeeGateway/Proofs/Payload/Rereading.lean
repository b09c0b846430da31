-- What a value is read from it is written as. The bytes of a message fall into pieces, and the
-- value that they are read as is spelled by the same pieces with every NaN made quiet.
import ZigbeeGateway.Proofs.Payload.Leaves
import ZigbeeGateway.Proofs.Payload.Records
namespace ZigbeeGateway

open LittleEndian

namespace Piece

theorem join_cons (p : Piece) (ps : List Piece) : join (p :: ps) = p.bytes ++ join ps := rfl

theorem join_append (ps qs : List Piece) : join (ps ++ qs) = join ps ++ join qs :=
  List.flatMap_append

theorem length_quiet (p : Piece) : p.quiet.bytes.length = p.bytes.length := by
  cases p with
  | plain bs => rfl
  | float layout bs =>
    simp only [quiet]
    split
    · simp [Piece.bytes]
    · rfl

/-- Making NaNs quiet keeps the length. -/
theorem length_join_quiet (ps : List Piece) : (join (ps.map quiet)).length = (join ps).length := by
  induction ps with
  | nil => rfl
  | cons p ps ih => rw [List.map_cons, join_cons, join_cons, List.length_append, List.length_append,
      length_quiet, ih]

theorem join_quiet_flatten (pss : List (List Piece)) :
    join (pss.flatten.map quiet) = (pss.map fun ps => join (ps.map quiet)).flatten := by
  induction pss with
  | nil => rfl
  | cons ps pss ih => rw [List.flatten_cons, List.map_append, join_append, ih, List.map_cons,
      List.flatten_cons]

theorem bytes_quiet {p : Piece} (h : p.quiet.bytes = p.bytes) : p.quiet = p := by
  cases p with
  | plain bs => rfl
  | float layout bs =>
    simp only [quiet] at h ⊢
    split
    · rename_i hnan
      rw [if_pos hnan] at h
      exact congrArg _ h
    · rfl

/-- Only pieces that stay as they are leave the bytes as they are. -/
theorem join_quiet_eq (ps : List Piece) : join (ps.map quiet) = join ps ↔ ∀ p ∈ ps, p.quiet = p := by
  induction ps with
  | nil => simp
  | cons p ps ih =>
    rw [List.map_cons, join_cons, join_cons, List.forall_mem_cons, ← ih]
    refine ⟨fun h => ?_, fun h => by rw [h.1, h.2]⟩
    obtain ⟨hp, hps⟩ := List.append_inj h (length_quiet p)
    exact ⟨bytes_quiet hp, hps⟩

end Piece

/-- All that the reader accepts falls into pieces, and these with every NaN made quiet spell the
value. -/
def Rereads (r : Reader Value) (p : Reader (List Piece)) (w : Value → Writer)
    (toEnd : Bytes → Prop) : Prop :=
  ∀ bs v rest, r bs = .ok (v, rest) → ∃ ps, p bs = .ok (ps, rest) ∧ bs = Piece.join ps ++ rest ∧
    Spells r w (toEnd rest) v (Piece.join (ps.map Piece.quiet))

/-! ## Datatypes -/

variable {rc wc : Option Cluster}

theorem Reader.plain_run {α : Type} {r : Reader α} {c rest : Bytes} {x : α}
    (h : r (c ++ rest) = .ok (x, rest)) : r.plain (c ++ rest) = .ok ([.plain c], rest) := by
  simp [Reader.plain, h]

theorem rereads_flat (h : rc = none ∨ rc = wc) (t : Datatype) :
    Rereads (t.readFlat rc) (t.flatPieces rc) (t.writeFlat wc) fun _ => False := by
  intro bs v rest hr
  rcases hlayout : t.layout? with _ | f
  · obtain ⟨c, rfl, hc⟩ := (agree_flat h hlayout).accepts bs v rest hr
    refine ⟨[.plain c], ?_, ?_, ?_⟩
    · rw [Datatype.flatPieces, hlayout]
      exact Reader.plain_run hr
    · simp [Piece.join, Piece.bytes]
    · simpa [Piece.join, Piece.bytes, Piece.quiet] using hc
  · obtain ⟨hf, hread, hwrite⟩ := layout?_eq_some hlayout
    rw [hread] at hr
    obtain ⟨c, hc, hspells⟩ := hf.accepts t hr
    refine ⟨[.float f c], ?_, ?_, ?_⟩
    · rw [Datatype.flatPieces, hlayout]
      exact Reader.map_run hc
    · rw [(Reader.take_eq_ok hc).1]
      simp [Piece.join, Piece.bytes]
    · rw [hread, hwrite]
      simpa [Piece.join] using hspells

theorem rereads_tagged {read : Datatype → Reader Value} {pieces : Datatype → Reader (List Piece)}
    {write : Datatype → Value → Writer}
    (h : ∀ t, Rereads (read t) (pieces t) (write t) fun _ => False) :
    Rereads (readTagged read) (taggedPieces pieces) (writeTagged write) fun _ => False := by
  intro bs v rest hr
  obtain ⟨t, mid, ht, hv⟩ := Reader.bind_eq_ok hr
  obtain ⟨u, mid', hu, hpure⟩ := Reader.bind_eq_ok hv
  cases hpure
  obtain ⟨ps, hps, hmid, hspells⟩ := h t mid u rest hu
  refine ⟨.plain [t.tag] :: ps, ?_, ?_, hspells.tagged⟩
  · rw [taggedPieces, Reader.bind_run ht, Reader.bind_run hps]
    rfl
  · rw [readTag_eq_ok ht, hmid]
    rfl

theorem rereads_timesFrom {r : Reader Value} {p : Reader (List Piece)} {w : Value → Writer}
    (h : Rereads r p w fun _ => False) {count : Nat} {before vs : List Value}
    (pbefore : List (List Piece)) {bs rest : Bytes}
    (hr : Reader.timesFrom r before count bs = .ok (vs, rest)) :
    ∃ ws pss, vs = before.reverse ++ ws ∧ ws.length = count ∧
      Reader.timesFrom p pbefore count bs = .ok (pbefore.reverse ++ pss, rest) ∧
      bs = Piece.join pss.flatten ++ rest ∧
      List.Forall₂ (Spells r w False) ws (pss.map fun ps => Piece.join (ps.map Piece.quiet)) := by
  induction count generalizing before pbefore bs with
  | zero =>
    cases hr
    exact ⟨[], [], by simp, rfl, by simp [Reader.timesFrom, Reader.pure_run], rfl, .nil⟩
  | succ count ih =>
    obtain ⟨v, mid, hv, htail⟩ := Reader.bind_eq_ok hr
    obtain ⟨ps, hps, rfl, hspells⟩ := h bs v mid hv
    obtain ⟨ws, pss, rfl, rfl, htimes, rfl, hall⟩ := ih (ps :: pbefore) htail
    refine ⟨v :: ws, ps :: pss, ?_, rfl, ?_, ?_, .cons hspells hall⟩
    · rw [List.reverse_cons, List.append_assoc, List.singleton_append]
    · rw [Reader.timesFrom, Reader.bind_run hps, htimes, List.reverse_cons, List.append_assoc,
        List.singleton_append]
    · rw [List.flatten_cons, Piece.join_append, List.append_assoc]

theorem rereads_items {r : Reader Value} {p : Reader (List Piece)} {w : Value → Writer}
    (h : Rereads r p w fun _ => False) (tooMany : WriteError) (mismatch : Value → WriteError) :
    Rereads (readItems r) (itemPieces p) (fun v => writeItems w tooMany (mismatch v) v)
      fun _ => False := by
  intro bs v rest hr
  obtain ⟨count, mid, hcount, hv⟩ := Reader.bind_eq_ok hr
  obtain ⟨hlt, hbs⟩ := Reader.number_eq_ok hcount
  by_cases hnone : count = allOnes 2
  · rw [if_pos hnone] at hv
    cases hv
    refine ⟨[.plain (bytes 2 count)], ?_, ?_, ?_⟩
    · rw [itemPieces, Reader.bind_run hcount, if_pos hnone]
      rfl
    · simpa [Piece.join, Piece.bytes] using hbs
    · simpa [Piece.join, Piece.bytes, Piece.quiet, hnone] using Spells.noItems r w tooMany mismatch
  · rw [if_neg hnone] at hv
    obtain ⟨vs, rest', htimes, hpure⟩ := Reader.bind_eq_ok hv
    cases hpure
    obtain ⟨ws, pss, hvs, rfl, hpss, rfl, hall⟩ := rereads_timesFrom h [] htimes
    rw [List.reverse_nil, List.nil_append] at hvs hpss
    subst hvs
    refine ⟨.plain (bytes 2 vs.length) :: pss.flatten, ?_, ?_, ?_⟩
    · rw [itemPieces, Reader.bind_run hcount, if_neg hnone, Reader.times, Reader.bind_run hpss]
      rfl
    · rw [hbs, Piece.join_cons, Piece.bytes, List.append_assoc]
    · rw [List.map_cons, Piece.join_cons, Piece.join_quiet_flatten]
      refine Spells.items tooMany mismatch hall ?_
      rw [allOnes] at hnone ⊢
      omega

/-- A value of a datatype is written as the bytes that it was read from, but for NaNs. -/
theorem rereads_datatype (h : rc = none ∨ rc = wc) (room : Nat) (t : Datatype) :
    Rereads (t.read rc room) (t.pieces rc room) (t.write wc room) fun _ => False := by
  induction room generalizing t with
  | zero =>
    cases t with
    | sequence kind =>
      intro bs v rest hr
      cases hr
    | struct =>
      intro bs v rest hr
      cases hr
    | _ => exact rereads_flat h _
  | succ room ih =>
    cases t with
    | sequence kind =>
      intro bs v rest hr
      obtain ⟨element, mid, htag, hv⟩ := Reader.bind_eq_ok hr
      obtain ⟨u, mid', hu, hpure⟩ := Reader.bind_eq_ok hv
      cases hpure
      obtain ⟨ps, hps, rfl, hspells⟩ := rereads_items (ih element)
        (.tooManyElements (.sequence kind)) (.unfit (.sequence kind) "array of elements") mid u rest hu
      refine ⟨.plain [element.tag] :: ps, ?_, ?_, hspells.sequence⟩
      · rw [Datatype.pieces, Reader.bind_run htag, Reader.bind_run hps]
        rfl
      · rw [readTag_eq_ok htag]
        rfl
    | struct => exact rereads_items (rereads_tagged ih) .tooManyMembers _
    | _ => exact rereads_flat h _

/-! ## Payload types -/

namespace PayloadType

theorem rereads_untilEndFrom {r : Reader Value} {p : Reader (List Piece)} {w : Value → Writer}
    (h : Rereads r p w (· = [])) {stuck : ReadError} {before vs : List Value}
    (pbefore : List (List Piece)) {bs rest : Bytes}
    (hr : Reader.untilEndFrom r stuck before bs = .ok (vs, rest)) :
    ∃ ws pss, vs = before.reverse ++ ws ∧ rest = [] ∧
      Reader.untilEndFrom p stuck pbefore bs = .ok (pbefore.reverse ++ pss, []) ∧
      bs = Piece.join pss.flatten ∧
      SpellsItems r w ws (Piece.join (pss.flatten.map Piece.quiet)) := by
  fun_induction Reader.untilEndFrom r stuck before bs generalizing pbefore with
  | case1 before bs hempty =>
    cases hr
    obtain rfl := List.isEmpty_iff.mp hempty
    refine ⟨[], [], by simp, rfl, ?_, rfl, .nil r w⟩
    rw [Reader.untilEndFrom_nil, List.append_nil]
  | case2 => cases hr
  | case3 before bs hempty v mid hv hshort ih =>
    obtain ⟨ps, hps, hbs, hspells⟩ := h bs v mid hv
    obtain ⟨ws, pss, rfl, rfl, hpss, hmid, hitems⟩ := ih (ps :: pbefore) hr
    have hlen := Piece.length_join_quiet ps
    have hlens := Piece.length_join_quiet pss.flatten
    refine ⟨v :: ws, ps :: pss, ?_, rfl, ?_, ?_, ?_⟩
    · rw [List.reverse_cons, List.append_assoc, List.singleton_append]
    · rw [Reader.untilEndFrom_step stuck pbefore hps hshort, hpss, List.reverse_cons, List.append_assoc, List.singleton_append]
    · rw [List.flatten_cons, Piece.join_append, ← hmid, hbs]
    · rw [List.flatten_cons, List.map_append, Piece.join_append]
      refine hitems.cons hspells ?_ ?_
      · rw [hbs, List.length_append] at hshort
        exact List.length_pos_iff.mp (by omega)
      · intro hend
        rw [hend] at hmid
        rw [← hmid] at hlens
        exact List.length_eq_zero_iff.mp hlens
  | case4 => cases hr

/-- A value that may be an error takes its status from a byte of its own. -/
theorem rereads_errorOr {inner : PayloadType} {room : Nat}
    (h : ∀ room', room = room' + 1 →
      Rereads (inner.read rc room') (inner.pieces rc room') (inner.write wc room') (· = [])) :
    Rereads ((errorOr inner).read rc room) ((errorOr inner).pieces rc room)
      ((errorOr inner).write wc room) (· = []) := by
  intro bs v rest hr
  rw [read] at hr
  obtain ⟨status, mid, hstatus, hv⟩ := Reader.bind_eq_ok hr
  by_cases hzero : status ≠ 0
  · rw [if_pos hzero] at hv
    cases hv
    -- an error is its status alone
    refine ⟨[.plain [status]], ?_, Reader.byte_eq_ok hstatus, spells_error hzero⟩
    rw [pieces, Reader.bind_run hstatus, if_pos hzero]
    rfl
  · rw [if_neg hzero] at hv
    obtain rfl := not_not.mp hzero
    cases room with
    | zero => cases hv
    | succ room =>
      obtain ⟨u, mid', hu, hpure⟩ := Reader.bind_eq_ok hv
      cases hpure
      obtain ⟨ps, hps, rfl, hspells⟩ := h room rfl mid u rest hu
      refine ⟨.plain [0] :: ps, ?_, ?_, spells_success hspells⟩
      · rw [pieces, Reader.bind_run hstatus, if_neg hzero]
        exact Reader.bind_run hps
      · rw [Reader.byte_eq_ok hstatus]
        rfl

mutual

/-- A value of a type is written as the bytes that it was read from, but for NaNs. -/
theorem rereads_read (h : rc = none ∨ rc = wc) (room : Nat) (type : PayloadType)
    (hnames : type.distinctNames = true) :
    Rereads (type.read rc room) (type.pieces rc room) (type.write wc room) (· = []) := by
  intro bs v rest hr
  match room, type with
  | room, variant =>
    obtain ⟨ps, hps, hbs, hspells⟩ := rereads_tagged (rereads_datatype h room) bs v rest hr
    exact ⟨ps, hps, hbs, hspells.anywhere _⟩
  | room, scalar t =>
    obtain ⟨ps, hps, hbs, hspells⟩ := rereads_datatype h room t bs v rest hr
    exact ⟨ps, hps, hbs, hspells.anywhere _⟩
  | 0, object properties => cases hr
  | room + 1, object properties =>
    rw [distinctNames, Bool.and_eq_true] at hnames
    obtain ⟨fields, hfields, rfl⟩ := Reader.map_eq_ok hr
    obtain ⟨entries, ps, rfl, hps, hbs, hspells⟩ :=
      rereads_properties h room properties hnames.2 hfields
    exact ⟨ps, hps, hbs, hspells.object (of_decide_eq_true hnames.1)⟩
  | 0, repeated item => cases hr
  | room + 1, repeated item =>
    obtain ⟨vs, hvs, rfl⟩ := Reader.map_eq_ok hr
    obtain ⟨ws, pss, hws, rfl, hpss, hbs, hitems⟩ :=
      rereads_untilEndFrom (rereads_read h room item hnames) [] hvs
    rw [List.reverse_nil, List.nil_append] at hws hpss
    subst hws
    refine ⟨pss.flatten, ?_, ?_, hitems.repeated.mono fun _ => rfl⟩
    · exact Reader.map_run hpss
    · rw [hbs, List.append_nil]
  | room, errorOr inner =>
    refine rereads_errorOr (fun room hroom => ?_) bs v rest hr
    subst hroom
    exact rereads_read h room inner hnames

theorem rereads_properties (h : rc = none ∨ rc = wc) (room : Nat) (properties : Properties)
    (hnames : allDistinctNames properties = true) {fields fields' : Fields Value}
    {bs rest : Bytes} (hr : readProperties rc room fields properties bs = .ok (fields', rest)) :
    ∃ entries ps, fields' = Fields.setAll entries fields ∧
      propertyPieces rc room properties bs = .ok (ps, rest) ∧ bs = Piece.join ps ++ rest ∧
      SpellsProperties rc wc room (rest = []) properties entries
        (Piece.join (ps.map Piece.quiet)) := by
  match properties with
  | [] =>
    cases hr
    exact ⟨[], [], rfl, rfl, rfl, .nil⟩
  | (name, type) :: properties =>
    rw [allDistinctNames, Bool.and_eq_true] at hnames
    obtain ⟨v, mid, hv, htail⟩ := Reader.bind_eq_ok hr
    obtain ⟨ps, hps, rfl, hspells⟩ := rereads_read h room type hnames.1 bs v mid hv
    obtain ⟨entries, qs, rfl, hqs, rfl, hrest⟩ := rereads_properties h room properties hnames.2 htail
    refine ⟨(name, v) :: entries, ps ++ qs, rfl, ?_, ?_, ?_⟩
    · rw [propertyPieces, Reader.bind_run hps, Reader.bind_run hqs]
      rfl
    · rw [Piece.join_append, List.append_assoc]
    · rw [List.map_append, Piece.join_append]
      refine .cons hspells hrest fun hend => ?_
      obtain ⟨hqs, hnil⟩ := List.append_eq_nil_iff.mp hend
      have hlen := Piece.length_join_quiet qs
      rw [hqs] at hlen
      exact ⟨List.length_eq_zero_iff.mp hlen, hnil⟩

end

/-! ## The law -/

/-- Writing undoes reading. What a message is read as is written as a message of the same length,
which is read as the same value. It is the first message with every floating point NaN in it made
quiet, so it is the first message itself if that has no other NaNs. -/
theorem writing_undoes_reading (cluster : Option Cluster) (type : PayloadType)
    (hnames : type.distinctNames = true) (data : Bytes) (v : Value)
    (h : type.decodeAll cluster data = .ok v) :
    ∃ ps b, type.piecesOf cluster data = .ok ps ∧ Piece.join ps = data ∧
      type.encode cluster v = .ok b ∧ b = Piece.join (ps.map Piece.quiet) ∧
      b.length = data.length ∧ type.decodeAll cluster b = .ok v ∧
      (b = data ↔ ∀ p ∈ ps, p.quiet = p) := by
  have hread := decodeAll_eq_ok h
  obtain ⟨ps, hps, hdata, hspells⟩ :=
    rereads_read (Or.inr rfl) maxNesting type hnames data v [] hread
  rw [List.append_nil] at hdata
  have hdecode := hspells.reads [] fun _ => rfl
  rw [List.append_nil] at hdecode
  refine ⟨ps, Piece.join (ps.map Piece.quiet), ?_, hdata.symm, encode_eq_ok.mpr hspells.writes, rfl,
    ?_, decodeAll_run hdecode, ?_⟩
  · simp only [piecesOf, hps]
    rfl
  · rw [hdata, Piece.length_join_quiet]
  · rw [hdata, Piece.join_quiet_eq]

/-- A negative NaN with more than one bit set is written as the quiet one. -/
theorem a_noisy_nan_is_written_quiet :
    let type := object [("x", scalar .semi), ("y", variant)]
    let v := Value.ofFields [("x", .null), ("y", .typed "uint8" (.ofNat 7))]
    type.distinctNames = true ∧ type.decodeAll none [0x01, 0xfe, 0x20, 0x07] = .ok v ∧
      type.encode none v = .ok [0x00, 0x7e, 0x20, 0x07] := by
  intro type v
  have hread : type.decodeAll none [0x01, 0xfe, 0x20, 0x07] = .ok v := by rfl
  obtain ⟨ps, b, hps, -, hb, rfl, -⟩ := writing_undoes_reading none type (by rfl) _ v hread
  have hpieces : type.piecesOf none [0x01, 0xfe, 0x20, 0x07] =
    .ok [.float .semi [0x01, 0xfe], .plain [0x20], .plain [0x07]] := by rfl
  cases hps.symm.trans hpieces
  exact ⟨by rfl, hread, hb⟩

end PayloadType

end ZigbeeGateway
