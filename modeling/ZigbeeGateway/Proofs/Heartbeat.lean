-- Heartbeats are read item by item. Just those bytes can be read that are a row of items, a tag and
-- a value with its datatype in front each. Of the items with one tag the last one stands, so a
-- heartbeat behind another one overrides it.
import ZigbeeGateway.Heartbeat
import ZigbeeGateway.Proofs.Payload.Repetition
namespace ZigbeeGateway

/-! ## Records -/

namespace Value

/-- A record with its fields in order. -/
def Ordered (m : Value) : Prop := ∃ fields, m = record fields ∧ Fields.Sorted fields

theorem ordered_ofFields (entries : List (String × Value)) : (ofFields entries).Ordered :=
  ⟨_, rfl, Fields.sorted_ofList entries⟩

/-- Records are told by their fields. -/
theorem Ordered.eq {m m' : Value} (h : m.Ordered) (h' : m'.Ordered)
    (hsame : ∀ name, m.get? name = m'.get? name) : m = m' := by
  obtain ⟨fields, rfl, hsorted⟩ := h
  obtain ⟨fields', rfl, hsorted'⟩ := h'
  rw [Fields.eq_of_sorted hsorted hsorted' hsame]

/-- A record that has the fields of `m₂`, and those of `m₁` that `m₂` does not have. -/
structure Overrides (m m₁ m₂ : Value) : Prop where
  ordered : m.Ordered
  fields : ∀ name, m.get? name = (m₂.get? name).or (m₁.get? name)

theorem Overrides.eq {m m' m₁ m₂ : Value} (h : m.Overrides m₁ m₂) (h' : m'.Overrides m₁ m₂) :
    m = m' :=
  h.ordered.eq h'.ordered fun name => (h.fields name).trans (h'.fields name).symm

theorem overrides_append (xs ys : List (String × Value)) :
    (ofFields (xs ++ ys)).Overrides (ofFields xs) (ofFields ys) where
  ordered := ordered_ofFields _
  fields name := by
    have happend : Fields.ofList (xs ++ ys) = Fields.setAll ys (Fields.ofList xs) := by
      simp [Fields.ofList, Fields.setAll]
    simp only [ofFields, get?, happend]
    exact Fields.get?_setAll_ofList name ys _

end Value

namespace Heartbeat

open Reader

/-! ## Items -/

/-- An item as it is sent: a tag, and bytes that are read as a value with its datatype in front, all
of them. -/
structure Item where
  tag : UInt8
  bytes : Bytes
  value : Value
  reads : PayloadType.variant.decode none bytes = .ok (value, [])

/-- The bytes of an item. -/
def Item.sent (item : Item) : Bytes := item.tag :: item.bytes

/-- An item as a field. -/
def Item.field (item : Item) : String × Value := (itemName item.tag, item.value)

/-- The bytes of some items, one after the other. -/
def row (items : List Item) : Bytes := (items.map Item.sent).flatten

/-- The value of the last of some items that have a tag. -/
def last? (tag : UInt8) (items : List Item) : Option Value :=
  (items.filter (·.tag = tag)).getLast?.map (·.value)

/-- A record with the last value of every tag that occurs, under the tag in decimal, and with
nothing else. -/
structure Summarizes (m : Value) (items : List Item) : Prop where
  ordered : m.Ordered
  last : ∀ tag, m.get? (itemName tag) = last? tag items
  nothingElse : ∀ name, (∀ item ∈ items, itemName item.tag ≠ name) → m.get? name = none

theorem itemName_injective {tag tag' : UInt8} (h : itemName tag = itemName tag') : tag = tag' := by
  have hdigits : Numeral.decimal tag.toNat = Numeral.decimal tag'.toNat := String.ofList_injective h
  have hread := Numeral.ofDigits?_decimal tag.toNat
  rw [hdigits, Numeral.ofDigits?_decimal, Option.some.injEq] at hread
  exact UInt8.toNat_inj.mp hread.symm

theorem get?_fields (items : List Item) (name : String) :
    (Value.ofFields (items.map Item.field)).get? name =
      (items.filter (itemName ·.tag = name)).getLast?.map (·.value) := by
  simp only [Value.ofFields, Value.get?, Fields.get?_ofList_eq_last, List.filter_map,
    List.getLast?_map, Option.map_map]
  rfl

theorem summarizes_fields (items : List Item) :
    Summarizes (.ofFields (items.map Item.field)) items where
  ordered := Value.ordered_ofFields _
  last tag := by
    have hsame : ∀ item : Item, itemName item.tag = itemName tag ↔ item.tag = tag :=
      fun item => ⟨itemName_injective, congrArg itemName⟩
    simp only [get?_fields, hsame, last?]
  nothingElse name hnone := by
    have hempty : items.filter (itemName ·.tag = name) = [] := by simpa using hnone
    rw [get?_fields, hempty]
    rfl

theorem Summarizes.eq {m m' : Value} {items : List Item} (h : Summarizes m items)
    (h' : Summarizes m' items) : m = m' := by
  apply h.ordered.eq h'.ordered
  intro name
  by_cases hname : ∃ item ∈ items, itemName item.tag = name
  · obtain ⟨item, -, rfl⟩ := hname
    rw [h.last, h'.last]
  · have hnone : ∀ item ∈ items, itemName item.tag ≠ name :=
      fun item hitem he => hname ⟨item, hitem, he⟩
    rw [h.nothingElse name hnone, h'.nothingElse name hnone]

/-! ## Reading item by item -/

/-- An item whose errors do not tell the tag. -/
def readPlain : Reader (String × Value) := do
  let tag ← Reader.byte
  return (itemName tag, ← PayloadType.variant.read none maxNesting)

theorem selfDelimiting_readPlain : readPlain.SelfDelimiting := by
  apply selfDelimiting_byte.bind
  intro tag
  have hvariant : (PayloadType.variant.read none maxNesting).SelfDelimiting :=
    PayloadType.selfDelimiting_read none maxNesting .variant rfl
  exact hvariant.bind fun v => selfDelimiting_pure _

theorem readValue_eq_ok {tag : UInt8} {bs rest : Bytes} {v : Value} :
    readValue tag bs = .ok (v, rest) ↔
      PayloadType.variant.read none maxNesting bs = .ok (v, rest) := by
  unfold readValue PayloadType.decode
  cases PayloadType.variant.read none maxNesting bs <;> simp [Except.mapError]

/-- Errors apart, both read the same. -/
theorem beside_readItem : Beside False Eq readItem readPlain := by
  apply Beside.after
  intro tag
  apply Beside.bind (R := Eq)
  · exact ⟨fun hr => ⟨_, readValue_eq_ok.mp hr, rfl⟩, False.elim⟩
  · rintro v _ rfl
    exact beside_pure rfl

theorem beside_readPlain : Beside False Eq readPlain readItem := by
  apply Beside.after
  intro tag
  apply Beside.bind (R := Eq)
  · exact ⟨fun hr => ⟨_, readValue_eq_ok.mpr hr, rfl⟩, False.elim⟩
  · rintro v _ rfl
    exact beside_pure rfl

theorem untilEnd_readItem {stuck : ReadError} {bs rest : Bytes} {xs : List (String × Value)} :
    untilEnd readItem stuck bs = .ok (xs, rest) ↔ untilEnd readPlain stuck bs = .ok (xs, rest) := by
  constructor
  · intro h
    obtain ⟨ys, hys, hsame⟩ := (beside_readItem.untilEndFrom stuck .nil).accepts h
    rw [List.forall₂_eq_eq_eq] at hsame
    subst hsame
    exact hys
  · intro h
    obtain ⟨ys, hys, hsame⟩ := (beside_readPlain.untilEndFrom stuck .nil).accepts h
    rw [List.forall₂_eq_eq_eq] at hsame
    subst hsame
    exact hys

theorem Item.delimits (item : Item) : readPlain.Delimits item.sent item.field := by
  apply selfDelimiting_readPlain.delimits
  unfold readPlain Item.sent
  rw [bind_run (byte_run item.tag item.bytes)]
  exact map_run item.reads

theorem exists_item {piece : Bytes} {x : String × Value} (h : readPlain.Delimits piece x) :
    ∃ item : Item, item.sent = piece ∧ item.field = x := by
  have hread := h.full []
  rw [List.append_nil] at hread
  obtain ⟨tag, mid, htag, hvalue⟩ := bind_eq_ok hread
  obtain ⟨v, hv, rfl⟩ := map_eq_ok hvalue
  exact ⟨⟨tag, mid, v, hv⟩, (byte_eq_ok htag).symm, rfl⟩

/-- Pieces that are read item by item are items. -/
theorem delimited_iff {pieces : List Bytes} {xs : List (String × Value)} :
    Delimited readPlain pieces xs ↔
      ∃ items : List Item, pieces = items.map Item.sent ∧ xs = items.map Item.field := by
  constructor
  · intro h
    induction h with
    | nil => exact ⟨[], rfl, rfl⟩
    | cons hpiece _ ih =>
      obtain ⟨item, rfl, rfl⟩ := exists_item hpiece.2
      obtain ⟨items, rfl, rfl⟩ := ih
      exact ⟨item :: items, rfl, rfl⟩
  · rintro ⟨items, rfl, rfl⟩
    induction items with
    | nil => exact .nil
    | cons item items ih => exact .cons ⟨List.cons_ne_nil _ _, item.delimits⟩ ih

theorem decode_eq_ok {bs : Bytes} {m : Value} :
    decode bs = .ok m ↔ ∃ xs, untilEnd readPlain (.emptyItem .variant) bs = .ok (xs, []) ∧
      m = .ofFields xs := by
  unfold decode
  constructor
  · intro h
    rcases hread : untilEnd readItem (.emptyItem .variant) bs with e | ⟨xs, rest⟩
    · rw [hread] at h
      cases h
    · rw [hread] at h
      cases h
      rw [untilEnd_readItem] at hread
      obtain ⟨rfl, -⟩ := (untilEnd_eq_ok selfDelimiting_readPlain).mp hread
      exact ⟨xs, hread, rfl⟩
  · rintro ⟨xs, hread, rfl⟩
    rw [untilEnd_readItem.mpr hread]
    rfl

theorem decode_row (items : List Item) :
    decode (row items) = .ok (.ofFields (items.map Item.field)) := by
  apply decode_eq_ok.mpr
  refine ⟨_, (untilEnd_eq_ok selfDelimiting_readPlain).mpr ⟨rfl, _, rfl, ?_⟩, rfl⟩
  exact delimited_iff.mpr ⟨items, rfl, rfl⟩

theorem exists_row {bs : Bytes} {m : Value} (h : decode bs = .ok m) :
    ∃ items, bs = row items ∧ m = .ofFields (items.map Item.field) := by
  obtain ⟨xs, hread, rfl⟩ := decode_eq_ok.mp h
  obtain ⟨-, pieces, rfl, hpieces⟩ := (untilEnd_eq_ok selfDelimiting_readPlain).mp hread
  obtain ⟨items, rfl, rfl⟩ := delimited_iff.mp hpieces
  exact ⟨items, rfl, rfl⟩

theorem row_append (items others : List Item) :
    row (items ++ others) = row items ++ row others := by
  simp [row]

/-- What can be read behind a row of items is a row of items. -/
theorem exists_row_behind {items : List Item} {bs : Bytes} {m : Value}
    (h : decode (row items ++ bs) = .ok m) :
    ∃ others, bs = row others ∧ m = .ofFields ((items ++ others).map Item.field) := by
  obtain ⟨zs, hread, rfl⟩ := decode_eq_ok.mp h
  have hitems := delimited_iff.mpr ⟨items, rfl, rfl⟩
  obtain ⟨ys, hys, rfl⟩ := (untilEnd_append selfDelimiting_readPlain hitems).mp hread
  obtain ⟨-, pieces, rfl, hpieces⟩ := (untilEnd_eq_ok selfDelimiting_readPlain).mp hys
  obtain ⟨others, rfl, rfl⟩ := delimited_iff.mp hpieces
  exact ⟨others, rfl, by rw [List.map_append]⟩

theorem overrides_row (items others : List Item) :
    (Value.ofFields ((items ++ others).map Item.field)).Overrides
      (.ofFields (items.map Item.field)) (.ofFields (others.map Item.field)) := by
  rw [List.map_append]
  exact Value.overrides_append _ _

/-! ## The law -/

/-- Just a row of items can be read, and it is read as the record with the last value of every tag.
Behind a heartbeat, bytes can be read just if they can be read by themselves, and then they override
it. -/
theorem a_heartbeat_is_its_last_items :
    (∀ bs, (∃ m, decode bs = .ok m) ↔ ∃ items, bs = row items) ∧
    (∀ items m, decode (row items) = .ok m ↔ Summarizes m items) ∧
    ∀ d₁ m₁, decode d₁ = .ok m₁ → ∀ d₂ m,
      decode (d₁ ++ d₂) = .ok m ↔ ∃ m₂, decode d₂ = .ok m₂ ∧ m.Overrides m₁ m₂ := by
  refine ⟨?_, ?_, ?_⟩
  · intro bs
    constructor
    · rintro ⟨m, h⟩
      obtain ⟨items, hbs, -⟩ := exists_row h
      exact ⟨items, hbs⟩
    · rintro ⟨items, rfl⟩
      exact ⟨_, decode_row items⟩
  · intro items m
    rw [decode_row, Except.ok.injEq]
    constructor
    · rintro rfl
      exact summarizes_fields items
    · exact (summarizes_fields items).eq
  · intro d₁ m₁ h₁ d₂ m
    obtain ⟨items, rfl, rfl⟩ := exists_row h₁
    constructor
    · intro h
      obtain ⟨others, rfl, rfl⟩ := exists_row_behind h
      exact ⟨_, decode_row others, overrides_row items others⟩
    · rintro ⟨m₂, h₂, hm⟩
      obtain ⟨others, rfl, rfl⟩ := exists_row h₂
      rw [← row_append, decode_row, Except.ok.injEq]
      exact (overrides_row items others).eq hm

/-- A voltage and a state, and behind them another voltage and an item without any bytes. -/
theorem a_later_voltage_stands :
    let earlier : Bytes := [0x01, 0x21, 0xd1, 0x0b, 0x64, 0x10, 0x01]
    let later : Bytes := [0x01, 0x21, 0xb8, 0x0b, 0x05, 0x00]
    ∃ m₁ m, decode earlier = .ok m₁ ∧ m₁.get? "1" = some (.typed "uint16" (.ofNat 3025)) ∧
      decode (earlier ++ later) = .ok m ∧ m.get? "1" = some (.typed "uint16" (.ofNat 3000)) ∧
      m.get? "5" = some (.typed "nodata" .null) ∧
      m.get? "100" = some (.typed "bool" (.bool true)) := by
  intro earlier later
  let items : List Item := [⟨0x01, [0x21, 0xd1, 0x0b], .typed "uint16" (.ofNat 3025), rfl⟩,
    ⟨0x64, [0x10, 0x01], .typed "bool" (.bool true), rfl⟩]
  let others : List Item := [⟨0x01, [0x21, 0xb8, 0x0b], .typed "uint16" (.ofNat 3000), rfl⟩,
    ⟨0x05, [0x00], .typed "nodata" .null, rfl⟩]
  have hnames : itemName 0x01 = "1" ∧ itemName 0x05 = "5" ∧ itemName 0x64 = "100" := by
    decide +kernel
  obtain ⟨hvoltage, hempty, hstate⟩ := hnames
  obtain ⟨-, hrow, hbehind⟩ := a_heartbeat_is_its_last_items
  have hearlier : decode earlier = .ok (.ofFields (items.map Item.field)) := decode_row items
  have hlater : decode later = .ok (.ofFields (others.map Item.field)) := decode_row others
  have hover := overrides_row items others
  have hfirst := (hrow items _).mp hearlier
  have hlast := (hrow others _).mp hlater
  refine ⟨_, _, hearlier, ?_, (hbehind _ _ hearlier _ _).mpr ⟨_, hlater, hover⟩, ?_, ?_, ?_⟩
  · rw [← hvoltage, hfirst.last]
    rfl
  · rw [← hvoltage, hover.fields, hlast.last]
    rfl
  · rw [← hempty, hover.fields, hlast.last]
    rfl
  · rw [← hstate, hover.fields, hlast.last, hfirst.last]
    rfl

end Heartbeat

end ZigbeeGateway
