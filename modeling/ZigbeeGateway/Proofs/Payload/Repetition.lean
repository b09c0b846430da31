-- Repetitions up to the end of a message. They are read item by item: a message of items is cut
-- into one piece for each, messages put together are lists put together, and a message that ends
-- inside a piece is refused.
import ZigbeeGateway.Proofs.Payload.SideBySide
import ZigbeeGateway.Proofs.Payload.Truncation
namespace ZigbeeGateway

namespace Reader

variable {α : Type} {item : Reader α}

/-- One piece for each result: some bytes that are read as the result whatever follows them. -/
def Delimited (item : Reader α) : List Bytes → List α → Prop :=
  List.Forall₂ fun piece x => piece ≠ [] ∧ item.Delimits piece x

theorem SelfDelimiting.delimits (hself : item.SelfDelimiting) {bs : Bytes} {x : α}
    (h : item bs = .ok (x, [])) : item.Delimits bs x := by
  obtain ⟨c, rfl, hc⟩ := hself bs x [] h
  rw [List.append_nil]
  exact hc

/-- The pieces at the front are as many results. -/
theorem untilEndFrom_pieces {pieces : List Bytes} {xs : List α} (h : Delimited item pieces xs)
    (stuck : ReadError) (before : List α) (s : Bytes) :
    untilEndFrom item stuck before (pieces.flatten ++ s) =
      untilEndFrom item stuck (xs.reverse ++ before) s := by
  induction h generalizing before with
  | nil => rfl
  | cons hpiece _ ih =>
    rw [List.flatten_cons, List.append_assoc,
      untilEndFrom_piece stuck before hpiece.1 (hpiece.2.full _), ih, List.reverse_cons,
      List.append_assoc, List.singleton_append]

/-- What is read up to the end falls into pieces. -/
theorem exists_pieces (hself : item.SelfDelimiting) {stuck : ReadError} {before xs : List α}
    {bs rest : Bytes} (h : untilEndFrom item stuck before bs = .ok (xs, rest)) :
    ∃ pieces ys, xs = before.reverse ++ ys ∧ bs = pieces.flatten ∧ rest = [] ∧
      Delimited item pieces ys := by
  fun_induction untilEndFrom item stuck before bs with
  | case1 before bs hempty =>
    cases h
    exact ⟨[], [], (List.append_nil _).symm, List.isEmpty_iff.mp hempty, rfl, .nil⟩
  | case2 => cases h
  | case3 before bs hempty x mid hx hshort ih =>
    obtain ⟨piece, rfl, hpiece⟩ := hself bs x mid hx
    obtain ⟨pieces, ys, rfl, rfl, hrest, hpieces⟩ := ih h
    refine ⟨piece :: pieces, x :: ys, ?_, rfl, hrest, .cons ⟨?_, hpiece⟩ hpieces⟩
    · rw [List.reverse_cons, List.append_assoc, List.singleton_append]
    · rintro rfl
      exact Nat.lt_irrefl _ hshort
  | case4 => cases h

/-- A message that ends inside a piece is refused, and the refusal says that bytes are missing. -/
theorem untilEndFrom_cut {front back : List Bytes} {piece p : Bytes} {xs : List α}
    (h : Delimited item (front ++ piece :: back) xs) (hp : p <+: piece) (hne : p ≠ [])
    (hcut : p ≠ piece) (stuck : ReadError) (before : List α) : ∃ needed present,
      untilEndFrom item stuck before (front.flatten ++ p) =
        .error (.bufferTooSmall needed present) ∧ present < needed := by
  induction front generalizing xs before with
  | nil =>
    cases h with
    | cons hpiece _ =>
      obtain ⟨needed, present, he, hlt⟩ := hpiece.2.cut p hp hcut
      exact ⟨needed, present, untilEndFrom_error stuck before hne he, hlt⟩
  | cons first front ih =>
    cases h with
    | cons hfirst hrest =>
      rw [List.flatten_cons, List.append_assoc,
        untilEndFrom_piece stuck before hfirst.1 (hfirst.2.full _)]
      exact ih hrest _

/-- What is read up to the end is the results of pieces, one for each. -/
theorem untilEnd_eq_ok (hself : item.SelfDelimiting) {stuck : ReadError} {bs rest : Bytes}
    {xs : List α} : untilEnd item stuck bs = .ok (xs, rest) ↔
      rest = [] ∧ ∃ pieces, bs = pieces.flatten ∧ Delimited item pieces xs := by
  constructor
  · intro h
    obtain ⟨pieces, ys, rfl, hbs, hrest, hpieces⟩ := exists_pieces hself h
    exact ⟨hrest, pieces, hbs, hpieces⟩
  · rintro ⟨rfl, pieces, rfl, hpieces⟩
    have hrun := untilEndFrom_pieces hpieces stuck [] []
    rw [List.append_nil, List.append_nil, untilEndFrom_nil, List.reverse_reverse] at hrun
    exact hrun

/-- Behind the results of some pieces come those of what follows them. -/
theorem untilEnd_append (hself : item.SelfDelimiting) {stuck : ReadError} {pieces : List Bytes}
    {xs zs : List α} (h : Delimited item pieces xs) {s rest : Bytes} :
    untilEnd item stuck (pieces.flatten ++ s) = .ok (zs, rest) ↔
      ∃ ys, untilEnd item stuck s = .ok (ys, rest) ∧ zs = xs ++ ys := by
  constructor
  · intro hboth
    rw [untilEnd, untilEndFrom_pieces h] at hboth
    obtain ⟨others, ys, rfl, hs, hrest, hothers⟩ := exists_pieces hself hboth
    refine ⟨ys, (untilEnd_eq_ok hself).mpr ⟨hrest, others, hs, hothers⟩, ?_⟩
    rw [List.append_nil, List.reverse_reverse]
  · rintro ⟨ys, hys, rfl⟩
    obtain ⟨rfl, others, rfl, hothers⟩ := (untilEnd_eq_ok hself).mp hys
    refine (untilEnd_eq_ok hself).mpr ⟨rfl, pieces ++ others, ?_, List.rel_append h hothers⟩
    rw [List.flatten_append]

end Reader

open Reader

namespace PayloadType

variable {cluster : Option Cluster} {item : PayloadType} {bs : Bytes}

/-- What is read in some room is also read where there is more. -/
theorem decode_of_read {room : Nat} {v : Value} {rest : Bytes} (hroom : room ≤ maxNesting)
    (h : item.read cluster room bs = .ok (v, rest)) : item.decode cluster bs = .ok (v, rest) := by
  have hmore : Beside False (Alike cluster cluster item) (item.read cluster room)
      (item.read cluster maxNesting) := beside_read hroom False.elim item
  obtain ⟨w, hw, halike⟩ := hmore.accepts h
  rw [halike.eq]
  exact hw

/-- What is read inside a list is also read by itself. -/
theorem decode_of_inside {v : Value} {rest : Bytes}
    (h : item.read cluster (maxNesting - 1) bs = .ok (v, rest)) :
    item.decode cluster bs = .ok (v, rest) :=
  decode_of_read (by decide) h

theorem decodeAll_repeated_eq_ok {v : Value} : (repeated item).decodeAll cluster bs = .ok v ↔
    ∃ xs, untilEnd (item.read cluster (maxNesting - 1)) (.emptyItem item) bs = .ok (xs, []) ∧
      v = .list xs := by
  constructor
  · intro h
    obtain ⟨xs, hxs, rfl⟩ := map_eq_ok (decodeAll_eq_ok h)
    exact ⟨xs, hxs, rfl⟩
  · rintro ⟨xs, hxs, rfl⟩
    exact decodeAll_run (map_run hxs)

/-- Repetitions are read item by item. What two messages put together are read as is what the first
is read as with the items of the second behind it, if the second is read as anything. A message is
cut into pieces, one for each item, which are not empty and are read as the items by themselves; and
a message that ends inside a piece is refused, because bytes are missing. -/
theorem a_repetition_is_read_item_by_item (cluster : Option Cluster) {item : PayloadType}
    (hitem : item.hasRepeated = false) {d₁ : Bytes} {v₁ : Value}
    (h : (repeated item).decodeAll cluster d₁ = .ok v₁) :
    ∃ a₁ pieces, v₁ = .list a₁ ∧
      (∀ d₂ v, (repeated item).decodeAll cluster (d₁ ++ d₂) = .ok v ↔
        ∃ a₂, (repeated item).decodeAll cluster d₂ = .ok (.list a₂) ∧ v = .list (a₁ ++ a₂)) ∧
      d₁ = pieces.flatten ∧
      List.Forall₂ (fun piece x => piece ≠ [] ∧ item.decodeAll cluster piece = .ok x) pieces a₁ ∧
      ∀ front piece back p, pieces = front ++ piece :: back → p <+: piece → p ≠ [] → p ≠ piece →
        ∃ needed present, (repeated item).decodeAll cluster (front.flatten ++ p) =
          .error (.bufferTooSmall needed present) ∧ present < needed := by
  have hself := selfDelimiting_read cluster (maxNesting - 1) item hitem
  obtain ⟨a₁, ha₁, rfl⟩ := decodeAll_repeated_eq_ok.mp h
  obtain ⟨-, pieces, rfl, hpieces⟩ := (untilEnd_eq_ok hself).mp ha₁
  refine ⟨a₁, pieces, rfl, fun d₂ v => ?_, rfl, hpieces.imp ?_, ?_⟩
  · rw [decodeAll_repeated_eq_ok]
    constructor
    · rintro ⟨xs, hxs, rfl⟩
      obtain ⟨a₂, ha₂, rfl⟩ := (untilEnd_append hself hpieces).mp hxs
      exact ⟨a₂, decodeAll_repeated_eq_ok.mpr ⟨a₂, ha₂, rfl⟩, rfl⟩
    · rintro ⟨a₂, hlist, rfl⟩
      obtain ⟨ys, hys, hlist⟩ := decodeAll_repeated_eq_ok.mp hlist
      cases hlist
      exact ⟨a₁ ++ a₂, (untilEnd_append hself hpieces).mpr ⟨a₂, hys, rfl⟩, rfl⟩
  · rintro piece x ⟨hne, hpiece⟩
    have hread := hpiece.full []
    rw [List.append_nil] at hread
    exact ⟨hne, decodeAll_run (decode_of_inside hread)⟩
  · rintro front piece back p rfl hp hne hcut
    obtain ⟨needed, present, he, hlt⟩ := untilEndFrom_cut hpieces hp hne hcut (.emptyItem item) []
    exact ⟨needed, present, decodeAll_error (map_error he), hlt⟩

/-- Two numbers of two bytes, and the same with a third one behind them. -/
theorem two_numbers_and_a_third :
    let number := scalar (.unsigned 1)
    let message : Bytes := [0x01, 0x00, 0x02, 0x00]
    number.hasRepeated = false ∧
      (repeated number).decodeAll none message = .ok (.list [.ofNat 1, .ofNat 2]) ∧
      (repeated number).decodeAll none (message ++ [0x03, 0x00]) =
        .ok (.list [.ofNat 1, .ofNat 2, .ofNat 3]) ∧
      ∃ first second, message = first ++ second ∧ number.decodeAll none first = .ok (.ofNat 1) ∧
        number.decodeAll none second = .ok (.ofNat 2) := by
  intro number message
  have hnumber : number.hasRepeated = false := rfl
  have hself := selfDelimiting_read none (maxNesting - 1) number hnumber
  have hread : (repeated number).decodeAll none message = .ok (.list [.ofNat 1, .ofNat 2]) := by
    refine decodeAll_repeated_eq_ok.mpr ⟨_, (untilEnd_eq_ok hself).mpr ⟨rfl, ?_⟩, rfl⟩
    exact ⟨[[0x01, 0x00], [0x02, 0x00]], rfl, .cons ⟨by decide, hself.delimits rfl⟩
      (.cons ⟨by decide, hself.delimits rfl⟩ .nil)⟩
  have hthird : (repeated number).decodeAll none [0x03, 0x00] = .ok (.list [.ofNat 3]) := by
    refine decodeAll_repeated_eq_ok.mpr ⟨_, (untilEnd_eq_ok hself).mpr ⟨rfl, ?_⟩, rfl⟩
    exact ⟨[[0x03, 0x00]], rfl, .cons ⟨by decide, hself.delimits rfl⟩ .nil⟩
  obtain ⟨a₁, pieces, hlist, happend, hpieces, hall, -⟩ :=
    a_repetition_is_read_item_by_item none hnumber hread
  cases hlist
  refine ⟨hnumber, hread, (happend [0x03, 0x00] _).mpr ⟨_, hthird, rfl⟩, ?_⟩
  obtain _ | ⟨hfirst, _ | ⟨hsecond, _ | _⟩⟩ := hall
  refine ⟨_, _, ?_, hfirst.2, hsecond.2⟩
  rw [hpieces, List.flatten_cons, List.flatten_singleton]

end PayloadType

end ZigbeeGateway
