-- A schema is consistent, whatever text it is loaded from: nothing stands twice in a table, every
-- look-up finds the one entry that it asks for, and the payload of every command is regular.
import ZigbeeGateway.Proofs.Info.Writing
import ZigbeeGateway.Proofs.Payload.Checks
import ZigbeeGateway.Proofs.Schema.Contents
namespace ZigbeeGateway

open Info (Node)

/-! ## Tables -/

/-- With distinct keys, a search for a key finds the entry that has it. -/
theorem find?_eq_some_iff_of_nodup {α β : Type} [DecidableEq β] {key : α → β} {entries : List α}
    (h : (entries.map key).Nodup) (k : β) (x : α) :
    entries.find? (key · == k) = some x ↔ x ∈ entries ∧ key x = k := by
  constructor
  · intro hfind
    exact ⟨List.mem_of_find?_eq_some hfind, by simpa using List.find?_some hfind⟩
  · rintro ⟨hmem, rfl⟩
    exact find?_of_nodup key h hmem

section Tables

variable {α : Type} [Entry α]

/-- Nothing stands twice in a table, and a look-up by number or by name finds the entry that has it,
or nothing if no entry has it. -/
structure Table.Faithful (t : Table α) : Prop where
  distinct : Distinct t.entries
  withId?_some : ∀ id x, t.withId? id = some x ↔ x ∈ t.entries ∧ Entry.id x = id
  withId?_none : ∀ id, t.withId? id = none ↔ ∀ x ∈ t.entries, Entry.id x ≠ id
  withName?_some : ∀ name x, t.withName? name = some x ↔ x ∈ t.entries ∧ Entry.name x = name
  withName?_none : ∀ name, t.withName? name = none ↔ ∀ x ∈ t.entries, Entry.name x ≠ name

theorem Table.faithful (t : Table α) : t.Faithful where
  distinct := ⟨t.ids_nodup, t.names_nodup⟩
  withId?_some id x := by
    rw [withId?_eq]
    exact find?_eq_some_iff_of_nodup t.ids_nodup id x
  withId?_none id := by
    rw [withId?_eq]
    simp
  withName?_some name x := by
    rw [withName?_eq]
    exact find?_eq_some_iff_of_nodup t.names_nodup name x
  withName?_none name := by
    rw [withName?_eq]
    simp

theorem Table.entries_of_add {t t' : Table α} {x : α} (h : t.add x = .ok t') :
    t'.entries = t.entries ++ [x] := by
  unfold add at h
  split at h
  · cases h
  · split at h
    · cases h
    · cases h
      rfl

theorem Table.mem_of_add {t t' : Table α} {x y : α} (h : t.add x = .ok t') (hy : y ∈ t'.entries) :
    y ∈ t.entries ∨ y = x := by
  rw [entries_of_add h] at hy
  simpa using hy

end Tables

/-! ## Loading step by step -/

/-- What every step keeps holds after all of them. -/
theorem foldlM_keeps {σ τ : Type} {P : σ → Prop} {f : σ → τ → Except SchemaError σ}
    (hf : ∀ s x s', P s → f s x = .ok s' → P s') {xs : List τ} {s s' : σ} (hs : P s)
    (h : xs.foldlM f s = .ok s') : P s' := by
  induction xs generalizing s with
  | nil =>
    cases h
    exact hs
  | cons x xs ih =>
    rw [List.foldlM_cons] at h
    rcases hx : f s x with e | s₁
    · rw [hx] at h
      cases h
    · rw [hx] at h
      exact ih (hf s x s₁ hs hx) h

theorem ok_of_map {α β : Type} {f : α → β} {x : Except SchemaError α} {b : β}
    (h : x.map f = .ok b) : ∃ a, x = .ok a ∧ f a = b := by
  cases x with
  | error e => cases h
  | ok a =>
    cases h
    exact ⟨a, rfl, rfl⟩

theorem ok_of_bind {α β : Type} {f : α → Except SchemaError β} {x : Except SchemaError α} {b : β}
    (h : (x >>= f) = .ok b) : ∃ a, x = .ok a ∧ f a = .ok b := by
  cases x with
  | error e => cases h
  | ok a => exact ⟨a, rfl, h⟩

theorem ok_of_mapError {α : Type} {f : SchemaError → SchemaError} {x : Except SchemaError α} {a : α}
    (h : x.mapError f = .ok a) : x = .ok a := by
  cases x with
  | error e => cases h
  | ok b =>
    cases h
    rfl

/-- The commands of a table can all be sent. -/
def Table.CommandsSound (t : Table Command) : Prop := ∀ c ∈ t.entries, c.Sound

/-- The commands of a cluster can all be sent. -/
def Cluster.CommandsSound (c : Cluster) : Prop :=
  c.commandsIn.CommandsSound ∧ c.commandsOut.CommandsSound

/-- The commands of a schema can all be sent. -/
def Schema.CommandsSound (s : Schema) : Prop :=
  s.globalCommands.CommandsSound ∧ ∀ c ∈ s.clusters.entries, c.CommandsSound

theorem Table.commandsSound_empty : (empty : Table Command).CommandsSound := by
  intro c hc
  cases hc

theorem addCommand_keeps {owner : String} {t t' : Table Command} {node : Node}
    (ht : t.CommandsSound) (h : addCommand owner t node = .ok t') : t'.CommandsSound := by
  unfold addCommand at h
  obtain ⟨payload, -, h⟩ := ok_of_bind h
  obtain ⟨_, hcheck, h⟩ := ok_of_bind h
  obtain ⟨id, -, hadd⟩ := ok_of_bind h
  intro c hc
  rcases Table.mem_of_add (ok_of_mapError hadd) hc with hc | rfl
  · exact ht c hc
  · exact ok_of_mapError hcheck

theorem addCommands_keeps {owner : String} {t t' : Table Command} {nodes : List Node}
    (ht : t.CommandsSound) (h : addCommands owner t nodes = .ok t') : t'.CommandsSound :=
  foldlM_keeps (fun _ _ _ ht h => addCommand_keeps ht h) ht h

theorem Cluster.addSection_keeps {c c' : Cluster} {node : Node} (hc : c.CommandsSound)
    (h : c.addSection node = .ok c') : c'.CommandsSound := by
  unfold addSection at h
  split at h
  · obtain ⟨table, -, rfl⟩ := ok_of_map h
    exact hc
  · split at h
    · split at h
      · obtain ⟨table, htable, rfl⟩ := ok_of_map h
        exact ⟨addCommands_keeps hc.1 htable, hc.2⟩
      · split at h
        · obtain ⟨table, htable, rfl⟩ := ok_of_map h
          exact ⟨hc.1, addCommands_keeps hc.2 htable⟩
        · cases h
    · cases h

theorem Cluster.commandsSound_of_ofNode {c : Cluster} {node : Node} (h : ofNode node = .ok c) :
    c.CommandsSound := by
  unfold ofNode at h
  obtain ⟨id, -, hsections⟩ := ok_of_bind h
  exact foldlM_keeps (fun _ _ _ hc h => addSection_keeps hc h)
    ⟨Table.commandsSound_empty, Table.commandsSound_empty⟩ hsections

theorem addGlobalSection_keeps {t t' : Table Command} {node : Node} (ht : t.CommandsSound)
    (h : addGlobalSection t node = .ok t') : t'.CommandsSound := by
  unfold addGlobalSection at h
  split at h
  · exact addCommands_keeps ht h
  · cases h

theorem addGlobal_keeps {t t' : Table Command} {node : Node} (ht : t.CommandsSound)
    (h : addGlobal t node = .ok t') : t'.CommandsSound := by
  unfold addGlobal at h
  split at h
  · exact addCommands_keeps ht h
  · split at h
    · exact foldlM_keeps (fun _ _ _ ht h => addGlobalSection_keeps ht h) ht h
    · cases h

namespace Schema

theorem addNode_keeps {s s' : Schema} {node : Node} (hs : s.CommandsSound)
    (h : s.addNode node = .ok s') : s'.CommandsSound := by
  unfold addNode at h
  split at h
  · obtain ⟨table, htable, rfl⟩ := ok_of_map h
    exact ⟨addGlobal_keeps hs.1 htable, hs.2⟩
  · obtain ⟨cluster, hcluster, h⟩ := ok_of_bind h
    obtain ⟨table, hadd, h⟩ := ok_of_bind h
    cases h
    refine ⟨hs.1, fun c hc => ?_⟩
    rcases Table.mem_of_add hadd hc with hc | rfl
    · exact hs.2 c hc
    · exact Cluster.commandsSound_of_ofNode hcluster

theorem commandsSound_of_load {text : String} {s : Schema} (h : load text = .ok s) :
    s.CommandsSound := by
  unfold load at h
  obtain ⟨nodes, -, hnodes⟩ := ok_of_bind h
  have hempty : empty.CommandsSound := ⟨Table.commandsSound_empty, fun c hc => by cases hc⟩
  exact foldlM_keeps (fun _ _ _ hs h => addNode_keeps hs h) hempty hnodes

/-! ## Consistency -/

/-- All commands of a schema, those of its clusters included. -/
def commands (s : Schema) : List Command :=
  s.globalCommands.entries ++
    s.clusters.entries.flatMap fun c => c.commandsIn.entries ++ c.commandsOut.entries

/-- A schema in which nothing stands twice, every look-up finds what it asks for, and no payload is
ambiguous. -/
structure Consistent (s : Schema) : Prop where
  clusters : s.clusters.Faithful
  globalCommands : s.globalCommands.Faithful
  attributes : ∀ c ∈ s.clusters.entries, c.attributes.Faithful
  commandsIn : ∀ c ∈ s.clusters.entries, c.commandsIn.Faithful
  commandsOut : ∀ c ∈ s.clusters.entries, c.commandsOut.Faithful
  /-- A name to send under stands for a global command first. -/
  commandOut?_global : ∀ id name c, s.commandOut? id name = some (true, c) ↔
    c ∈ s.globalCommands.entries ∧ c.name = name
  commandOut?_cluster : ∀ id name c, s.commandOut? id name = some (false, c) ↔
    (∀ g ∈ s.globalCommands.entries, g.name ≠ name) ∧
      ∃ cluster ∈ s.clusters.entries, cluster.id = id ∧ c ∈ cluster.commandsOut.entries ∧
        c.name = name
  payloads : ∀ c ∈ s.commands, (PayloadType.object c.payload).Regular

theorem commandOut?_eq_global (s : Schema) (id : UInt16) (name : String) (c : Command) :
    s.commandOut? id name = some (true, c) ↔ s.globalCommands.withName? name = some c := by
  unfold commandOut?
  cases s.globalCommands.withName? name with
  | some g => simp
  | none => simp [bind, Option.bind_eq_some_iff]

theorem commandOut?_eq_cluster (s : Schema) (id : UInt16) (name : String) (c : Command) :
    s.commandOut? id name = some (false, c) ↔ s.globalCommands.withName? name = none ∧
      ∃ cluster, s.clusters.withId? id.toNat = some cluster ∧
        cluster.commandsOut.withName? name = some c := by
  unfold commandOut?
  cases s.globalCommands.withName? name with
  | some g => simp
  | none => simp [bind, Option.bind_eq_some_iff]

theorem regular_of_mem_commands {s : Schema} (hs : s.CommandsSound) {c : Command}
    (hc : c ∈ s.commands) : (PayloadType.object c.payload).Regular := by
  apply PayloadType.regular_of_check
  rw [commands, List.mem_append, List.mem_flatMap] at hc
  rcases hc with hc | ⟨cluster, hcluster, hc⟩
  · exact hs.1 c hc
  · rcases List.mem_append.mp hc with hc | hc
    · exact (hs.2 cluster hcluster).1 c hc
    · exact (hs.2 cluster hcluster).2 c hc

/-- A text that is accepted gives a consistent schema, however its sections are cut and nested. -/
theorem a_loaded_schema_is_consistent {text : String} {s : Schema} (h : load text = .ok s) :
    s.Consistent where
  clusters := s.clusters.faithful
  globalCommands := s.globalCommands.faithful
  attributes c _ := c.attributes.faithful
  commandsIn c _ := c.commandsIn.faithful
  commandsOut c _ := c.commandsOut.faithful
  commandOut?_global id name c := by
    rw [commandOut?_eq_global]
    exact s.globalCommands.faithful.withName?_some name c
  commandOut?_cluster id name c := by
    rw [commandOut?_eq_cluster, s.globalCommands.faithful.withName?_none]
    simp only [s.clusters.faithful.withId?_some, and_assoc]
    constructor
    · rintro ⟨hglobal, cluster, hmem, hid, hc⟩
      have hc := (cluster.commandsOut.faithful.withName?_some name c).mp hc
      exact ⟨hglobal, cluster, hmem, UInt16.toNat_inj.mp hid, hc⟩
    · rintro ⟨hglobal, cluster, hmem, rfl, hc⟩
      have hc := (cluster.commandsOut.faithful.withName?_some name c).mpr hc
      exact ⟨hglobal, cluster, hmem, rfl, hc⟩
  payloads _ hc := regular_of_mem_commands (commandsSound_of_load h) hc

/-- The global commands stand in two entries, and a cluster has two blocks of commands. -/
def inPieces : String :=
  String.ofList <|
    Info.entry "global" "commands" (some <| Info.entry "0x0A" "Report" <| some <|
      Info.entry "repeated:object" "all" <| some <| Info.entry "attribId" "id" none) ++
    Info.entry "6" "On/Off" (some <|
      Info.entry "commands" "in" (some <| Info.entry "0" "Off" none) ++
      Info.entry "commands" "in" (some <| Info.entry "1" "On" <| some <|
        Info.entry "error_or:uint8" "level" none)) ++
    Info.entry "global" "" (some <| Info.entry "commands" "" <| some <|
      Info.entry "013" "Stop" none)

theorem a_schema_in_pieces_is_consistent : ∃ s, load inPieces = .ok s ∧ s.Consistent := by
  have hload : (load inPieces).isOk = true := by
    unfold load Info.parse inPieces
    rw [String.toList_ofList]
    decide +kernel
  rcases h : load inPieces with e | s
  · rw [h] at hload
    cases hload
  · exact ⟨s, rfl, a_loaded_schema_is_consistent h⟩

end Schema

end ZigbeeGateway
