-- Names as they stand in topics. A level that was made from the name of a cluster or of a command
-- leads to something whose name makes the same level, and so it leads back to where it was made
-- from unless another name makes it too. Numbers are no danger: a level that can be read as one is
-- a name that stands in the topic unchanged, and exact names go first.
import ZigbeeGateway.Proofs.Gateway.Outgoing
import ZigbeeGateway.Proofs.Text.Digits
namespace ZigbeeGateway

/-! ## Levels and numbers -/

namespace Topic

theorem levelChar_levelChar (c : Char) : levelChar (levelChar c) = levelChar c := by
  unfold levelChar
  split
  · decide
  · rfl

/-- A level stands for itself. -/
theorem level_level (name : String) : level (level name) = level name := by
  unfold level
  rw [String.toList_ofList, List.map_map]
  exact congrArg String.ofList (List.map_congr_left fun c _ => levelChar_levelChar c)

/-- Only an underscore can stand for another character. -/
theorem level_eq_self {name : String} (h : '_' ∉ (level name).toList) : level name = name := by
  unfold level at h ⊢
  rw [String.toList_ofList, List.mem_map, not_exists] at h
  have hsame : ∀ c ∈ name.toList, levelChar c = c := by
    intro c hc
    unfold levelChar
    split
    · rename_i hmark
      exact absurd ⟨hc, if_pos hmark⟩ (h c)
    · rfl
  rw [List.map_congr_left hsame, List.map_id', String.ofList_toList]

end Topic

namespace Numeral

theorem digit?_underscore (base : Nat) : digit? base '_' = none := by
  simp [digit?]

/-- No number has an underscore in it. -/
theorem underscore_not_mem {base n : Nat} {cs : List Char} (h : ofDigits? base cs = some n) :
    '_' ∉ cs := by
  intro hmem
  have hdigit := isSome_of_ofDigits? h '_' hmem
  rw [digit?_underscore] at hdigit
  cases hdigit

theorem underscore_not_mem_of_below? {limit base n : Nat} {cs : List Char}
    (h : below? limit base cs = some n) : '_' ∉ cs := by
  obtain ⟨hdigits, -⟩ := Option.filter_eq_some_iff.mp h
  split at hdigits
  · simpa using underscore_not_mem hdigits
  · exact underscore_not_mem hdigits

theorem underscore_not_mem_of_hexOrDecimal? {limit n : Nat} {cs : List Char}
    (h : hexOrDecimal? limit cs = some n) : '_' ∉ cs := by
  unfold hexOrDecimal? at h
  split at h
  · simpa using underscore_not_mem_of_below? h
  · simpa using underscore_not_mem_of_below? h
  · exact underscore_not_mem_of_below? h

end Numeral

namespace Handler

open Radio (DataRequest)

variable {s : Schema} {cluster : Cluster} {isGlobal : Bool} {command : Command}

/-! ## Where a level leads -/

/-- A level that can be read as a number is a name as it is. -/
theorem level_of_levelNumber? {name : String} {n : Nat}
    (h : levelNumber? (Topic.level name) = some n) : Topic.level name = name :=
  Topic.level_eq_self (Numeral.underscore_not_mem_of_hexOrDecimal? h)

/-- The level of a cluster's name leads to a cluster whose name makes the same level. -/
theorem cluster?_level (hcluster : cluster ∈ s.clusters.entries) :
    ∃ found ∈ s.clusters.entries, cluster? s (Topic.level cluster.name) = some found ∧
      Topic.level found.name = Topic.level cluster.name := by
  unfold cluster?
  cases hname : s.clusters.withName? (Topic.level cluster.name) with
  | some found =>
    obtain ⟨hmem, hsame⟩ := (s.clusters.faithful.withName?_some _ found).mp hname
    have hlevel : Topic.level found.name = Topic.level (Topic.level cluster.name) :=
      congrArg Topic.level hsame
    exact ⟨found, hmem, rfl, hlevel.trans (Topic.level_level _)⟩
  | none =>
    cases hnumber : levelNumber? (Topic.level cluster.name) with
    | some n =>
      -- The level would be the name itself, which is known.
      rw [level_of_levelNumber? hnumber, s.clusters.faithful.withName?_none] at hname
      exact absurd rfl (hname cluster hcluster)
    | none =>
      obtain ⟨found, hfound⟩ := Option.isSome_iff_exists.mp (List.find?_isSome
        (p := (Topic.level ·.name == Topic.level cluster.name)).mpr ⟨cluster, hcluster, by simp⟩)
      exact ⟨found, List.mem_of_find?_eq_some hfound, by simpa using hfound,
        by simpa using List.find?_some hfound⟩

/-- The level of a command's name leads to something. -/
theorem command?_level_isSome (hcommand : Offers s cluster isGlobal command) :
    (command? s cluster (Topic.level command.name)).isSome := by
  have hfound : ∀ table : Table Command, command ∈ table.entries →
      (commandWithLevel? table (Topic.level command.name)).isSome := by
    intro table hmem
    exact List.find?_isSome.mpr ⟨command, hmem, by simp⟩
  unfold command?
  rw [Option.isSome_or, Option.isSome_or, Option.isSome_map, Option.isSome_map]
  cases isGlobal with
  | true => simp [hfound _ hcommand]
  | false => simp [hfound _ hcommand]

/-- The level of a command's name leads to a command whose name makes the same level. -/
theorem command?_level (hcluster : cluster ∈ s.clusters.entries)
    (hcommand : Offers s cluster isGlobal command) :
    ∃ isGlobal' found, command? s cluster (Topic.level command.name) = some (isGlobal', found) ∧
      Offers s cluster isGlobal' found ∧ Topic.level found.name = Topic.level command.name := by
  obtain ⟨⟨isGlobal', found⟩, hfound⟩ :=
    Option.isSome_iff_exists.mp (command?_level_isSome hcommand)
  obtain ⟨hoffers, hname | hlevel⟩ := command?_eq_some hcluster hfound
  · refine ⟨isGlobal', found, hfound, hoffers, ?_⟩
    rw [hname, Topic.level_level]
  · exact ⟨isGlobal', found, hfound, hoffers, hlevel⟩

/-! ## Commands by their names in topics -/

/-- A command of a cluster becomes a message to an endpoint of the device with a short address. -/
def requestOf (h : Handler) (cluster : Cluster) (isGlobal : Bool) (command : Command)
    (endpoint : UInt8) (payload : Bytes) (short : UInt16) :
    Except GatewayError (DataRequest × Handler) := do
  let value ← argument h.readJson payload
  let encoded ← (command.encodePayload (some cluster) value).mapError .write
  let (transaction, h) := h.nextTransaction short
  let frameType := if isGlobal then .global else .clusterSpecific
  let frame : Zcl.Frame := ⟨.plain frameType transaction command.id, encoded⟩
  return ({
    destination := short
    endpoint
    sourceEndpoint := h.endpoint
    cluster := cluster.id
    transaction
    options := 0
    radius := DataRequest.defaultRadius
    data := frame.encode }, h)

theorem commandRequest_eq (h : Handler) (subject : Topic.Subject) (payload : Bytes)
    (short : UInt16) :
    h.commandRequest subject payload short =
      match cluster? h.schema subject.cluster with
      | none => .error (.unknownClusterName subject.cluster)
      | some cluster =>
        match command? h.schema cluster subject.command with
        | none => .error (.unknownCommandName cluster.name subject.command)
        | some (isGlobal, command) =>
          h.requestOf cluster isGlobal command subject.endpoint payload short := by
  unfold commandRequest
  cases cluster? h.schema subject.cluster with
  | none => rfl
  | some cluster =>
    dsimp only
    cases command? h.schema cluster subject.command with
    | none => rfl
    | some found => rfl

/-! ## The law -/

/-- If no other cluster's name makes the same level, what comes on a topic with the level of a
cluster's name is for this cluster. If besides no other command that can be sent to the cluster has
a name that makes the same level, what comes with the level of a command's name is sent as this
command, global or not. -/
theorem published_names_lead_back (h : Handler) (cluster : Cluster)
    (hcluster : cluster ∈ h.schema.clusters.entries)
    (hown : ∀ other ∈ h.schema.clusters.entries, other ≠ cluster →
      Topic.level other.name ≠ Topic.level cluster.name)
    (subject : Topic.Subject) (hsubject : subject.cluster = Topic.level cluster.name)
    (payload : Bytes) (short : UInt16) :
    (h.commandRequest subject payload short =
      match command? h.schema cluster subject.command with
      | none => .error (.unknownCommandName cluster.name subject.command)
      | some (isGlobal, command) =>
        h.requestOf cluster isGlobal command subject.endpoint payload short) ∧
      ∀ isGlobal command, Offers h.schema cluster isGlobal command →
        (∀ isGlobal' other, Offers h.schema cluster isGlobal' other →
          (isGlobal', other) ≠ (isGlobal, command) →
            Topic.level other.name ≠ Topic.level command.name) →
        subject.command = Topic.level command.name →
          command? h.schema cluster subject.command = some (isGlobal, command) ∧
            h.commandRequest subject payload short =
              h.requestOf cluster isGlobal command subject.endpoint payload short := by
  have hfound : cluster? h.schema subject.cluster = some cluster := by
    obtain ⟨found, hmem, hfound, hlevel⟩ := cluster?_level hcluster
    obtain rfl : found = cluster := by
      by_contra hother
      exact hown found hmem hother hlevel
    rw [hsubject]
    exact hfound
  have hrequest := h.commandRequest_eq subject payload short
  rw [hfound] at hrequest
  refine ⟨hrequest, fun isGlobal command hoffers hownCommand hname => ?_⟩
  have hcommand : command? h.schema cluster subject.command = some (isGlobal, command) := by
    obtain ⟨isGlobal', found, hfound, hoffers', hlevel⟩ := command?_level hcluster hoffers
    have hsame : (isGlobal', found) = (isGlobal, command) := by
      by_contra hother
      exact hownCommand isGlobal' found hoffers' hother hlevel
    rw [hname, hfound, hsame]
  refine ⟨hcommand, ?_⟩
  rw [hrequest]
  dsimp only
  rw [hcommand]

/-- A schema in which names look like the numbers of others. -/
def numberedSchema : String :=
  String.ofList <|
    Info.entry "global" "commands" (some <| Info.entry "0x00" "Read/All" none) ++
    Info.entry "1" "6" (some <| Info.entry "commands" "out" <| some <|
      Info.entry "0x02" "0x00" none) ++
    Info.entry "6" "On/Off" none

/-- The name of one cluster is the number of another. -/
theorem a_number_as_a_name_leads_back :
    let subject : Topic.Subject := ⟨0x00158d0001a2b3c4, 1, "6", "Read_All"⟩
    ∃ s cluster command, Schema.load numberedSchema = .ok s ∧ cluster ∈ s.clusters.entries ∧
      cluster.id = 1 ∧ cluster.name = "6" ∧ Offers s cluster true command ∧
      command? s cluster "Read_All" = some (true, command) ∧
      (fresh s "zhub" 1).commandRequest subject [] 0x1234 =
        (fresh s "zhub" 1).requestOf cluster true command 1 [] 0x1234 := by
  intro subject
  have hnames : (Schema.load numberedSchema).toOption.map (fun s =>
      (s.globalCommands.entries.map (·.name),
        s.clusters.entries.map fun c => (c.id, c.name, c.commandsOut.entries.map (·.name)))) =
      some (["Read/All"], [(1, "6", ["0x00"]), (6, "On/Off", [])]) := by
    unfold Schema.load Info.parse numberedSchema
    rw [String.toList_ofList]
    decide +kernel
  rcases hload : Schema.load numberedSchema with e | s
  · rw [hload] at hnames
    cases hnames
  · rw [hload] at hnames
    obtain ⟨hglobal, hclusters⟩ := Prod.mk.inj (Option.some.inj hnames)
    obtain ⟨command, hcommands, hcommand⟩ := List.map_eq_singleton_iff.mp hglobal
    obtain ⟨cluster, rest, hentries, hcluster, hrest⟩ := List.map_eq_cons_iff.mp hclusters
    obtain ⟨switch, rfl, hswitch⟩ := List.map_eq_singleton_iff.mp hrest
    obtain ⟨hid, hname, hout⟩ : cluster.id = 1 ∧ cluster.name = "6" ∧
        cluster.commandsOut.entries.map (·.name) = ["0x00"] := by simpa using hcluster
    obtain ⟨own, howns, hown⟩ := List.map_eq_singleton_iff.mp hout
    have hmem : cluster ∈ s.clusters.entries := by simp [hentries]
    have hoffers : Offers s cluster true command := by simp [Offers, hcommands]
    have hcommandLevel : Topic.level command.name = "Read_All" := by
      rw [hcommand]
      decide +kernel
    have hclusterLevel : Topic.level cluster.name = "6" := by
      rw [hname]
      decide +kernel
    obtain ⟨-, hcommands'⟩ := published_names_lead_back (fresh s "zhub" 1) cluster hmem
      (by
        intro other hother hne
        obtain rfl : other = switch := by simpa [fresh, hentries, hne] using hother
        have hotherName : other.name = "On/Off" := (Prod.mk.inj (Prod.mk.inj hswitch).2).1
        rw [hclusterLevel, hotherName]
        decide +kernel)
      subject hclusterLevel.symm [] 0x1234
    obtain ⟨hfound, hrequest⟩ := hcommands' true command hoffers
      (by
        intro isGlobal other hother hne
        cases isGlobal with
        | true => simp_all [Offers, fresh]
        | false =>
          obtain rfl : other = own := by simpa [Offers, howns] using hother
          rw [hcommandLevel, hown]
          decide +kernel)
      hcommandLevel.symm
    exact ⟨s, cluster, command, rfl, hmem, hid, hname, hoffers, hfound, hrequest⟩

end Handler

end ZigbeeGateway
