-- Topics are unambiguous and never loop back. A report is cut into its levels whatever the names in
-- it hold, the filter for commands passes it over, and whatever is read as a command gets through
-- the filter.
import ZigbeeGateway.Mqtt.Topic
import ZigbeeGateway.Proofs.Text.Digits
namespace ZigbeeGateway.Topic

/-! ## Levels and filters -/

/-- The levels of a topic or of a filter. -/
def levels (cs : List Char) : List String := (Cut.atEvery '/' cs).map String.ofList

/-- Whether the levels of a filter match those of a topic. A plus stands for any one level, and a
hash for all that are left, even for none. -/
def matchLevels : (filter topic : List String) → Bool
  | ["#"], _ => true
  | [], [] => true
  | f :: filter, t :: topic => (f == "+" || f == t) && matchLevels filter topic
  | _, _ => false

/-- Whether a filter starts with a wildcard. -/
def startsWild (filter : String) : Bool :=
  filter.toList.head? == some '+' || filter.toList.head? == some '#'

/-- Whether a broker passes a topic on to somebody with a filter. Filters with a wildcard in front
do not match the topics of the broker itself, which start with a dollar sign. -/
def matchesFilter (filter topic : String) : Bool :=
  !(startsWild filter && topic.toList.head? == some '$') &&
    matchLevels (levels filter.toList) (levels topic.toList)

theorem levels_append (before rest : List Char) :
    levels (before ++ '/' :: rest) = levels before ++ levels rest := by
  unfold levels
  rw [Cut.atEvery_append, List.map_append]

theorem levels_toList {s : String} (h : '/' ∉ s.toList) : levels s.toList = [s] := by
  unfold levels
  rw [Cut.atEvery_of_not_mem h, List.map_singleton, String.ofList_toList]

theorem pieces_of_levels {cs : List Char} {ls : List String} (h : levels cs = ls) :
    Cut.atEvery '/' cs = ls.map String.toList := by
  subst h
  unfold levels
  simp

theorem mem_of_mem_levels {cs : List Char} {l : String} {c : Char} (hl : l ∈ levels cs)
    (hc : c ∈ l.toList) : c ∈ cs := by
  unfold levels at hl
  obtain ⟨piece, hpiece, rfl⟩ := List.mem_map.mp hl
  rw [String.toList_ofList] at hc
  exact Cut.mem_of_mem_atEvery hpiece hc

theorem matchLevels_append {before : List String} (h : "#" ∉ before) (filter topic : List String) :
    matchLevels (before ++ filter) (before ++ topic) = matchLevels filter topic := by
  induction before with
  | nil => rfl
  | cons l before ih =>
    rw [List.mem_cons, not_or] at h
    simp only [List.cons_append]
    rw [matchLevels]
    · simp [ih h.2]
    · intro hhash
      exact absurd hhash.symm h.1

/-- A filter and a topic with the same first levels match if the rest of them matches. -/
theorem matchesFilter_append {first filter topic : String} {cs ds : List Char}
    (h : '#' ∉ first.toList) (hfilter : filter.toList = first.toList ++ '/' :: cs)
    (htopic : topic.toList = first.toList ++ '/' :: ds) :
    matchesFilter filter topic = matchLevels (levels cs) (levels ds) := by
  have hhead : filter.toList.head? = topic.toList.head? := by
    rw [hfilter, htopic]
    cases first.toList <;> rfl
  have hbroker : (startsWild filter && topic.toList.head? == some '$') = false := by
    unfold startsWild
    rw [hhead]
    cases topic.toList.head? with
    | none => rfl
    | some c =>
      by_cases hc : c = '$'
      · subst hc
        rfl
      · simp [hc]
  have hhash : "#" ∉ levels first.toList := by
    intro hmem
    exact h (mem_of_mem_levels hmem (by decide))
  unfold matchesFilter
  rw [hbroker, hfilter, htopic, levels_append, levels_append, matchLevels_append hhash]
  rfl

/-! ## Levels of reports -/

/-- No separator and no wildcard stands in a text. -/
def Plain (s : String) : Prop := '/' ∉ s.toList ∧ '+' ∉ s.toList ∧ '#' ∉ s.toList

theorem plain_level (name : String) : Plain (level name) := by
  have hchar : ∀ c, c = '/' ∨ c = '+' ∨ c = '#' → c ∉ name.toList.map levelChar := by
    intro c hc hmem
    obtain ⟨d, -, rfl⟩ := List.mem_map.mp hmem
    unfold levelChar at hc
    split at hc
    · simp at hc
    · contradiction
  unfold Plain level
  rw [String.toList_ofList]
  exact ⟨hchar _ (by simp), hchar _ (by simp), hchar _ (by simp)⟩

theorem not_mem_addressLevel (address : UInt64) : '/' ∉ (addressLevel address).toList := by
  have hdigits : ∀ d < 16, (Numeral.digitChar d).toUpper ≠ '/' := by decide
  unfold addressLevel addressText
  rw [String.toList_ofList, Numeral.upperHex_eq]
  intro hmem
  obtain ⟨d, hd, he⟩ := List.mem_map.mp hmem
  exact hdigits d (Numeral.padded_lt hd) he

theorem not_mem_decimal {c : Char} (hc : ∀ d < 10, Numeral.digitChar d ≠ c) (n : Nat) :
    c ∉ Numeral.decimal n := by
  unfold Numeral.decimal
  intro hmem
  obtain ⟨d, hd, he⟩ := List.mem_map.mp hmem
  exact hc d (Numeral.digits_lt (by decide) n d hd) he

theorem parseAddress?_addressLevel (address : UInt64) :
    parseAddress? (addressLevel address).toList = some address := by
  have hlt : address.toNat < 16 ^ 16 := address.toNat_lt
  unfold parseAddress? addressLevel addressText
  rw [String.toList_ofList, Numeral.length_upperHex (by decide) hlt, Numeral.ofDigits?_upperHex]
  simp

theorem below?_decimal {n limit : Nat} (h : n < limit) :
    Numeral.below? limit 10 (Numeral.decimal n) = some n := by
  have hplus := not_mem_decimal (by decide : ∀ d < 10, Numeral.digitChar d ≠ '+') n
  have hread := Numeral.ofDigits?_decimal n
  unfold Numeral.below?
  split
  · rename_i rest heq
    rw [heq] at hplus
    exact absurd List.mem_cons_self hplus
  · simpa [hread] using h

/-- The levels behind the first ones in the topic of a report. -/
def reportLevels (s : Subject) (attr : Option String) : List String :=
  [addressLevel s.address, inDecimal s.endpoint.toNat, "in", level s.cluster, level s.command] ++
    (attr.map level).toList

theorem levels_cons {l : String} (h : '/' ∉ l.toList) (rest : List Char) :
    levels (l.toList ++ '/' :: rest) = l :: levels rest := by
  rw [levels_append, levels_toList h, List.singleton_append]

theorem not_mem_inDecimal (n : Nat) : '/' ∉ (inDecimal n).toList := by
  unfold inDecimal
  rw [String.toList_ofList]
  exact not_mem_decimal (by decide) n

/-- A report has its levels, however odd the names are. -/
theorem report_levels (first : String) (s : Subject) (attr : Option String) :
    ∃ rest, (report first s attr).toList = first.toList ++ '/' :: rest ∧
      levels rest = reportLevels s attr := by
  have haddress := not_mem_addressLevel s.address
  have hendpoint := not_mem_inDecimal s.endpoint.toNat
  have hin : '/' ∉ "in".toList := by decide
  have hcluster := (plain_level s.cluster).1
  have hcommand := (plain_level s.command).1
  refine ⟨(addressLevel s.address).toList ++ '/' :: ((inDecimal s.endpoint.toNat).toList ++
    '/' :: ("in".toList ++ '/' :: ((level s.cluster).toList ++ '/' :: ((level s.command).toList ++
      attr.elim [] fun a => '/' :: (level a).toList)))), ?_, ?_⟩
  · cases attr <;> simp [report]
  · rw [levels_cons haddress, levels_cons hendpoint, levels_cons hin, levels_cons hcluster]
    unfold reportLevels
    cases attr with
    | none => simp [levels_toList hcommand]
    | some a => simp [levels_cons hcommand, levels_toList (plain_level a).1]

/-! ## Commands -/

/-- The topic on which a command comes. -/
def commandTopic (first : String) (s : Subject) : String :=
  first ++ "/" ++ addressLevel s.address ++ "/" ++ inDecimal s.endpoint.toNat ++ "/out/" ++
    s.cluster ++ "/" ++ s.command

theorem after?_first {first topic : String} {rest : List Char} :
    Cut.after? (first.toList ++ ['/']) topic.toList = some rest ↔
      topic.toList = first.toList ++ '/' :: rest := by
  rw [Cut.after?_eq_some_iff]
  simp

/-- What is read as a command has five levels behind the first ones: an address, an endpoint, the
mark of commands, and two names. -/
theorem parseCommand?_eq_some {first topic : String} {s : Subject}
    (h : parseCommand? first topic = some s) :
    ∃ rest address endpoint, topic.toList = first.toList ++ '/' :: rest ∧
      levels rest = [address, endpoint, "out", s.cluster, s.command] := by
  unfold parseCommand? at h
  split at h
  · rename_i address endpoint cluster command hlevels
    obtain ⟨rest, hrest, hpieces⟩ := Option.map_eq_some_iff.mp hlevels
    refine ⟨rest, String.ofList address, String.ofList endpoint, after?_first.mp hrest, ?_⟩
    simp only [Option.bind_eq_bind, Option.pure_def] at h
    split at h
    · cases h
    · obtain ⟨a, -, h⟩ := Option.bind_eq_some_iff.mp h
      obtain ⟨n, -, h⟩ := Option.bind_eq_some_iff.mp h
      cases h
      unfold levels
      rw [hpieces]
      rfl
  · cases h

/-- Topics with other levels are no commands. -/
theorem parseCommand?_eq_none {first topic : String} {rest : List Char} {ls : List String}
    (h : topic.toList = first.toList ++ '/' :: rest) (hlevels : levels rest = ls)
    (hout : ls[2]? ≠ some "out") : parseCommand? first topic = none := by
  cases hparse : parseCommand? first topic with
  | none => rfl
  | some s =>
    obtain ⟨rest', address, endpoint, hrest, hls⟩ := parseCommand?_eq_some hparse
    rw [h] at hrest
    obtain rfl : rest = rest' := by simpa using hrest
    rw [hlevels] at hls
    rw [hls] at hout
    exact absurd rfl hout

/-- The levels behind the first ones in the topic of a command. -/
def commandLevels (s : Subject) : List String :=
  [addressLevel s.address, inDecimal s.endpoint.toNat, "out", s.cluster, s.command]

theorem commandTopic_levels (first : String) {s : Subject} (hcluster : '/' ∉ s.cluster.toList)
    (hcommand : '/' ∉ s.command.toList) :
    ∃ rest, (commandTopic first s).toList = first.toList ++ '/' :: rest ∧
      levels rest = commandLevels s := by
  have haddress := not_mem_addressLevel s.address
  have hendpoint := not_mem_inDecimal s.endpoint.toNat
  have hout : '/' ∉ "out".toList := by decide
  refine ⟨(addressLevel s.address).toList ++ '/' :: ((inDecimal s.endpoint.toNat).toList ++
    '/' :: ("out".toList ++ '/' :: (s.cluster.toList ++ '/' :: s.command.toList))), ?_, ?_⟩
  · simp [commandTopic]
  · rw [levels_cons haddress, levels_cons hendpoint, levels_cons hout, levels_cons hcluster,
      levels_toList hcommand]
    rfl

/-- A command is read from its topic. -/
theorem parseCommand?_commandTopic (first : String) {s : Subject} (hcluster : s.cluster ≠ "")
    (hcluster' : '/' ∉ s.cluster.toList) (hcommand : s.command ≠ "")
    (hcommand' : '/' ∉ s.command.toList) :
    parseCommand? first (commandTopic first s) = some s := by
  obtain ⟨rest, hrest, hlevels⟩ := commandTopic_levels first hcluster' hcommand'
  have hpieces : Cut.atEvery '/' rest = [(addressLevel s.address).toList,
      Numeral.decimal s.endpoint.toNat, ['o', 'u', 't'], s.cluster.toList, s.command.toList] := by
    rw [pieces_of_levels hlevels]
    simp [commandLevels, inDecimal]
  unfold parseCommand?
  rw [after?_first.mpr hrest, Option.map_some, hpieces]
  simp only [parseAddress?_addressLevel, below?_decimal s.endpoint.toNat_lt]
  simp [hcluster, hcommand]

/-! ## The laws -/

theorem commandFilter_levels (first : String) :
    ∃ rest, (commandFilter first).toList = first.toList ++ '/' :: rest ∧
      levels rest = ["+", "+", "out", "#"] :=
  ⟨"+/+/out/#".toList, by simp [commandFilter], by decide⟩

/-- Topics are unambiguous and never loop back. Behind the first levels, of which none is a hash,
a report has five levels, or six with an attribute: an address that reads back, an endpoint in
decimal, the mark of reports, and names without separators and wildcards. It is no command, and the
filter for commands passes it over. A command is read from its topic exactly, and the filter lets
through whatever is read as a command. -/
theorem a_report_is_never_taken_for_a_command (first : String) (hfirst : '#' ∉ first.toList) :
    (∀ (s : Subject) (attr : Option String),
      (∃ rest, Cut.after? (first.toList ++ ['/']) (report first s attr).toList = some rest ∧
        levels rest = [addressLevel s.address, inDecimal s.endpoint.toNat, "in", level s.cluster,
          level s.command] ++ (attr.map level).toList) ∧
      parseAddress? (addressLevel s.address).toList = some s.address ∧
      Plain (level s.cluster) ∧ Plain (level s.command) ∧ (∀ a ∈ attr, Plain (level a)) ∧
      parseCommand? first (report first s attr) = none ∧
      matchesFilter (commandFilter first) (report first s attr) = false) ∧
    (∀ s : Subject, s.cluster ≠ "" → '/' ∉ s.cluster.toList → s.command ≠ "" →
      '/' ∉ s.command.toList → parseCommand? first (commandTopic first s) = some s) ∧
    ∀ topic s, parseCommand? first topic = some s →
      matchesFilter (commandFilter first) topic = true := by
  obtain ⟨wild, hwild, hwildLevels⟩ := commandFilter_levels first
  refine ⟨fun s attr => ?_, ?_, fun topic s h => ?_⟩
  · obtain ⟨rest, hrest, hlevels⟩ := report_levels first s attr
    refine ⟨⟨rest, after?_first.mpr hrest, hlevels⟩, parseAddress?_addressLevel s.address,
      plain_level _, plain_level _, fun a _ => plain_level a, ?_, ?_⟩
    · apply parseCommand?_eq_none hrest hlevels
      simp [reportLevels]
    · rw [matchesFilter_append hfirst hwild hrest, hwildLevels, hlevels]
      simp [reportLevels, matchLevels]
  · intro s hcluster hcluster' hcommand hcommand'
    exact parseCommand?_commandTopic first hcluster hcluster' hcommand hcommand'
  · obtain ⟨rest, address, endpoint, hrest, hlevels⟩ := parseCommand?_eq_some h
    rw [matchesFilter_append hfirst hwild hrest, hwildLevels, hlevels]
    simp [matchLevels]

/-- A deep first level, and names full of separators and wildcards. -/
theorem an_odd_report_is_no_command :
    let s : Subject := ⟨0x00158d000183f519, 3, "On/Off", "#"⟩
    '#' ∉ "home/hub".toList ∧
      report "home/hub" s (some "a+b") = "home/hub/00158D000183F519/3/in/On_Off/_/a_b" ∧
      parseCommand? "home/hub" (report "home/hub" s (some "a+b")) = none ∧
      matchesFilter (commandFilter "home/hub") (report "home/hub" s (some "a+b")) = false ∧
      parseCommand? "home/hub" "home/hub/00158D000183F519/3/out/OnOff/Toggle" =
        some ⟨0x00158d000183f519, 3, "OnOff", "Toggle"⟩ := by
  have hfirst : '#' ∉ "home/hub".toList := by decide
  obtain ⟨hreports, hcommands, -⟩ := a_report_is_never_taken_for_a_command "home/hub" hfirst
  obtain ⟨-, -, -, -, -, hnone, hpassed⟩ :=
    hreports ⟨0x00158d000183f519, 3, "On/Off", "#"⟩ (some "a+b")
  have hcommand := hcommands ⟨0x00158d000183f519, 3, "OnOff", "Toggle"⟩ (by decide) (by decide)
    (by decide) (by decide)
  have htopic : commandTopic "home/hub" ⟨0x00158d000183f519, 3, "OnOff", "Toggle"⟩ =
    "home/hub/00158D000183F519/3/out/OnOff/Toggle" := by decide +kernel
  exact ⟨hfirst, by decide +kernel, hnone, hpassed, htopic ▸ hcommand⟩

end ZigbeeGateway.Topic
