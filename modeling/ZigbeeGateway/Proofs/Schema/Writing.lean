-- Writing a schema as a text. There is such a text for every schema, and every text that says a
-- schema, this one or another, is loaded as it.
import ZigbeeGateway.Proofs.Info.Writing
import ZigbeeGateway.Proofs.Schema.Loading
import ZigbeeGateway.Text.Wording
namespace ZigbeeGateway

open Info (Node Writes WritesBlock)

/-! ## Writing -/

mutual

/-- The block of a property of a type. -/
def PayloadType.block : PayloadType → Option (List Char)
  | .variant => none
  | .scalar _ => none
  | .object properties => some (writeProperties properties)
  | .repeated item => item.block
  | .errorOr inner => inner.block

/-- The entries of properties. -/
def writeProperties : List (String × PayloadType) → List Char
  | [] => []
  | (name, type) :: rest => Info.entry type.keyword name type.block ++ writeProperties rest

end

/-- The entry of a command. -/
def Command.write (c : Command) : List Char :=
  Info.entry (inHex 2 c.id.toNat) c.name (some (writeProperties c.payload))

/-- The entry of an attribute. -/
def AttributeInfo.write (a : AttributeInfo) : List Char :=
  Info.entry (inHex 4 a.id.toNat) a.name (a.datatype.map fun t => Info.entry "type" t.name none)

/-- The sections of a cluster. -/
def ClusterContents.sections (c : ClusterContents) : List Char :=
  Info.entry "attributes" "" (some (c.attributes.flatMap AttributeInfo.write)) ++
  (Info.entry "commands" "in" (some (c.commandsIn.flatMap Command.write)) ++
  Info.entry "commands" "out" (some (c.commandsOut.flatMap Command.write)))

/-- The entry of a cluster. -/
def ClusterContents.write (c : ClusterContents) : List Char :=
  Info.entry (inHex 4 c.id.toNat) c.name (some c.sections)

/-- A text that says the contents, global commands first. -/
def Contents.text (c : Contents) : String :=
  String.ofList <|
    Info.entry "global" "commands" (some (c.globalCommands.flatMap Command.write)) ++
    c.clusters.flatMap ClusterContents.write

/-! ## What is written -/

theorem literal_inHex (width n : Nat) : Literal n (inHex width n).toList := by
  have hchars : (inHex width n).toList = '0' :: 'x' :: Numeral.hex width n := by
    simp [inHex]
  rw [hchars]
  exact .hex (.inl rfl) (Numeral.stands_hex width n)

mutual

theorem writesBlock_block :
    ∀ type : PayloadType, WritesBlock type.block fun ns => Declares ns type.fields
  | .variant | .scalar _ => .nil
  | .object properties => writes_properties properties
  | .repeated item => writesBlock_block item
  | .errorOr inner => writesBlock_block inner

theorem writes_properties :
    ∀ ps : List (String × PayloadType), Writes (writeProperties ps) fun ns => Declares ns ps
  | [] => Info.writes_nil .nil
  | (name, type) :: rest => by
    rw [writeProperties]
    exact (writes_properties rest).cons (writesBlock_block type) fun _ _ _ => .cons

end

theorem Command.writes (c : Command) :
    Writes c.write fun ns => ∃ n, ns = [n] ∧ c.DeclaredBy n := by
  have hblock : WritesBlock (some (writeProperties c.payload)) fun ns => Declares ns c.payload :=
    writes_properties c.payload
  refine (Info.writes_entry hblock _ c.name).imp ?_
  rintro _ ⟨line, block, hblock, rfl⟩
  exact ⟨_, rfl, ⟨literal_inHex 2 _, rfl, hblock⟩⟩

theorem Command.writes_all (commands : List Command) :
    WritesBlock (some (commands.flatMap Command.write))
      (List.Forall₂ Command.DeclaredBy commands) :=
  Info.writes_flatMap fun c _ => c.writes

theorem writesBlock_datatype (datatype : Option Datatype) :
    WritesBlock (datatype.map fun t => Info.entry "type" t.name none) (TypeEntry datatype) := by
  cases datatype with
  | none => exact .untyped
  | some t =>
    have hnone : WritesBlock none (· = []) := rfl
    refine (Info.writes_entry hnone "type" t.name).imp ?_
    rintro _ ⟨line, _, rfl, rfl⟩
    exact .typed

theorem AttributeInfo.writes (a : AttributeInfo) :
    Writes a.write fun ns => ∃ n, ns = [n] ∧ a.DeclaredBy n := by
  refine (Info.writes_entry (writesBlock_datatype a.datatype) _ a.name).imp ?_
  rintro _ ⟨line, block, hblock, rfl⟩
  exact ⟨_, rfl, ⟨literal_inHex 4 _, rfl, hblock⟩⟩

theorem AttributeInfo.writes_all (attributes : List AttributeInfo) :
    WritesBlock (some (attributes.flatMap AttributeInfo.write))
      (List.Forall₂ AttributeInfo.DeclaredBy attributes) :=
  Info.writes_flatMap fun a _ => a.writes

theorem ClusterContents.writes_sections (c : ClusterContents) :
    WritesBlock (some c.sections) fun ns =>
      Sections ns c.attributes c.commandsIn c.commandsOut := by
  have houts := Info.writes_entry (Command.writes_all c.commandsOut) "commands" "out"
  refine Writes.cons (Writes.cons houts (Command.writes_all c.commandsIn)
    (R := fun ns => Sections ns [] c.commandsIn c.commandsOut) ?_)
    (AttributeInfo.writes_all c.attributes) ?_
  · rintro line block _ hblock ⟨line', block', hblock', rfl⟩
    simpa using Sections.commandsIn hblock (.commandsOut hblock' .nil)
  · intro line block ns hblock hns
    simpa using Sections.attributes hblock hns

theorem ClusterContents.writes (c : ClusterContents) :
    Writes c.write fun ns => ∃ n, ns = [n] ∧ c.DeclaredBy n := by
  refine (Info.writes_entry c.writes_sections _ c.name).imp ?_
  rintro _ ⟨line, block, hblock, rfl⟩
  exact ⟨_, rfl, ⟨literal_inHex 4 _, rfl, hblock⟩⟩

theorem Entries.of_clusters {clusters : List ClusterContents} {nodes : List Node}
    (h : List.Forall₂ ClusterContents.DeclaredBy clusters nodes) : Entries nodes [] clusters := by
  induction h with
  | nil => exact .nil
  | cons hnode h ih => exact .cluster hnode ih

theorem Contents.writtenAs_text (c : Contents) : c.WrittenAs c.text := by
  have hclusters : Writes (c.clusters.flatMap ClusterContents.write)
      (List.Forall₂ ClusterContents.DeclaredBy c.clusters) :=
    Info.writes_flatMap fun cluster _ => cluster.writes
  refine Writes.text (hclusters.cons (Command.writes_all c.globalCommands) ?_)
  intro line block ns hblock hns
  simpa using Entries.globals (.commands hblock) (.of_clusters hns)

/-! ## Exactness -/

namespace Schema

/-- Every schema whose numbers and names are unique and whose payloads can be sent has a text, and
whatever text says it is loaded as it, with every table in the order of the text. -/
theorem a_written_schema_is_loaded_exactly (c : Contents) (hsound : c.Sound) :
    c.WrittenAs c.text ∧ ∀ text, c.WrittenAs text →
      ∃ schema, Schema.load text = .ok schema ∧ schema.contents = c := by
  refine ⟨c.writtenAs_text, ?_⟩
  rintro text ⟨tokens, nodes, hlayout, hforest, hentries⟩
  have hparse : Info.parse text = .ok nodes := Info.parse_layout hlayout hforest
  unfold load
  rw [hparse]
  exact hentries.foldlM_addNode empty hsound

/-- Names with quotes, a backslash, braces, a line break and no letter at all. -/
def oddlyNamed : Contents where
  globalCommands := [⟨0x0a, "Say \"ids\"", [("ids", .repeated (.scalar .attributeId))]⟩]
  clusters := [{
    id := 6
    name := "On\\Off \x7b\x7d"
    attributes := [⟨0, "two\nlines", some .bool⟩, ⟨1, "", none⟩]
    commandsIn := [⟨0, "State", [("of all", .errorOr (.object [("value", .variant)]))]⟩]
    commandsOut := [] }]

theorem odd_names_are_loaded :
    oddlyNamed.Sound ∧ ∃ schema, load oddlyNamed.text = .ok schema ∧
      schema.contents = oddlyNamed := by
  have hsound : oddlyNamed.Sound := by decide
  obtain ⟨hwritten, hload⟩ := a_written_schema_is_loaded_exactly oddlyNamed hsound
  exact ⟨hsound, hload oddlyNamed.text hwritten⟩

end Schema

end ZigbeeGateway
