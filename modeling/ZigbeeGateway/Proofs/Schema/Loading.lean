-- Loading a schema: every entry is added at the end of its table, so that a text is loaded as the
-- schema that it says.
import ZigbeeGateway.Proofs.Schema.Contents
namespace ZigbeeGateway

open Info (Node)

theorem foldlM_cons_ok {σ : Type} {f : σ → Node → Except SchemaError σ} {s s₁ s' : σ} {node : Node}
    {nodes : List Node} (hstep : f s node = .ok s₁) (hrest : nodes.foldlM f s₁ = .ok s') :
    (node :: nodes).foldlM f s = .ok s' := by
  rw [List.foldlM_cons, hstep]
  exact hrest

/-! ## Tables -/

theorem find?_eq_none_of_nodup_snoc {α β : Type} [DecidableEq β] {key : α → β} {xs : List α}
    {x : α} (h : ((xs ++ [x]).map key).Nodup) : xs.find? (key · == key x) = none := by
  rw [List.map_append, List.nodup_append] at h
  rw [List.find?_eq_none]
  intro y hy hkey
  exact h.2.2 (key y) (List.mem_map_of_mem hy) (key x) (by simp) (by simpa using hkey)

section Tables

variable {α : Type} [Entry α]

theorem Distinct.left {xs ys : List α} (h : Distinct (xs ++ ys)) : Distinct xs :=
  ⟨h.ids.sublist ((List.sublist_append_left xs ys).map _),
    h.names.sublist ((List.sublist_append_left xs ys).map _)⟩

theorem Table.add_of_distinct (t : Table α) (x : α) (h : Distinct (t.entries ++ [x])) :
    ∃ t', t.add x = .ok t' ∧ t'.entries = t.entries ++ [x] := by
  have hid : t.withId? (Entry.id x) = none := by
    rw [withId?_eq, find?_eq_none_of_nodup_snoc h.ids]
  have hname : t.withName? (Entry.name x) = none := by
    rw [withName?_eq, find?_eq_none_of_nodup_snoc h.names]
  unfold add
  split
  next old hold =>
    rw [hid] at hold
    cases hold
  next =>
    split
    next old hold =>
      rw [hname] at hold
      cases hold
    next => exact ⟨_, rfl, rfl⟩

/-- The entries of a block go to the end of a table one after the other. -/
theorem foldlM_add {R : α → Node → Prop} {f : Table α → Node → Except SchemaError (Table α)}
    {xs : List α} {nodes : List Node} (hnodes : List.Forall₂ R xs nodes)
    (hf : ∀ t, ∀ x ∈ xs, ∀ node, R x node → Distinct (t.entries ++ [x]) →
      ∃ t', f t node = .ok t' ∧ t'.entries = t.entries ++ [x])
    (t : Table α) (hdistinct : Distinct (t.entries ++ xs)) :
    ∃ t', nodes.foldlM f t = .ok t' ∧ t'.entries = t.entries ++ xs := by
  induction hnodes generalizing t with
  | nil => exact ⟨t, rfl, (List.append_nil _).symm⟩
  | @cons x node xs nodes hx hnodes ih =>
    rw [List.append_cons] at hdistinct ⊢
    obtain ⟨t₁, hadd, ht₁⟩ := hf t x List.mem_cons_self node hx hdistinct.left
    rw [← ht₁] at hdistinct ⊢
    obtain ⟨t', hrun, ht'⟩ := ih (fun t y hy => hf t y (List.mem_cons_of_mem x hy)) t₁ hdistinct
    exact ⟨t', foldlM_cons_ok hadd hrun, ht'⟩

end Tables

/-! ## Blocks of commands and attributes -/

theorem addCommand_of_declaredBy {command : Command} {node : Node} (hsound : command.Sound)
    (h : command.DeclaredBy node) (owner : String) (t : Table Command)
    (hdistinct : Distinct (t.entries ++ [command])) :
    ∃ t', addCommand owner t node = .ok t' ∧ t'.entries = t.entries ++ [command] := by
  obtain ⟨id, name, payload⟩ := command
  obtain ⟨t', hadd, ht'⟩ := t.add_of_distinct _ hdistinct
  refine ⟨t', ?_, ht'⟩
  have hid : node.id "command" UInt8.size = .ok id.toNat :=
    Info.Node.id_of_literal h.id id.toNat_lt_size (by decide) "command"
  have hsound : (PayloadType.object payload).check = .ok () := hsound
  have hname : node.data = name := h.name
  unfold addCommand
  rw [properties_of_declares h.payload]
  simp only [bind, Except.bind, hsound, hid, hname, Except.mapError, UInt8.ofNat_toNat, hadd]

theorem addCommands_of_declared {commands : List Command} {nodes : List Node}
    (hsound : ∀ command ∈ commands, command.Sound)
    (h : List.Forall₂ Command.DeclaredBy commands nodes) (owner : String) (t : Table Command)
    (hdistinct : Distinct (t.entries ++ commands)) :
    ∃ t', addCommands owner t nodes = .ok t' ∧ t'.entries = t.entries ++ commands :=
  foldlM_add h
    (fun t command hmem _ hnode => addCommand_of_declaredBy (hsound command hmem) hnode owner t)
    t hdistinct

theorem attributeType_of_typeEntry {datatype : Option Datatype} {nodes : List Node}
    (h : TypeEntry datatype nodes) (cluster attr : String) :
    nodes.foldlM (attributeType cluster attr) none = .ok datatype := by
  cases h with
  | untyped => rfl
  | @typed line t =>
    have : attributeType cluster attr none ⟨line, "type", t.name, []⟩ = .ok (some t) := by
      simp [attributeType, Datatype.ofName?_name]
    rw [List.foldlM_cons, this]
    rfl

theorem addAttribute_of_declaredBy {info : AttributeInfo} {node : Node}
    (h : info.DeclaredBy node) (cluster : String) (t : Table AttributeInfo)
    (hdistinct : Distinct (t.entries ++ [info])) :
    ∃ t', addAttribute cluster t node = .ok t' ∧ t'.entries = t.entries ++ [info] := by
  obtain ⟨id, name, datatype⟩ := info
  obtain ⟨t', hadd, ht'⟩ := t.add_of_distinct _ hdistinct
  refine ⟨t', ?_, ht'⟩
  have hid : node.id "attribute" UInt16.size = .ok id.toNat :=
    Info.Node.id_of_literal h.id id.toNat_lt_size (by decide) "attribute"
  have hname : node.data = name := h.name
  unfold addAttribute
  rw [attributeType_of_typeEntry h.datatype]
  simp only [bind, Except.bind, hid, hname, Except.mapError, UInt16.ofNat_toNat, hadd]

theorem addAttributes_of_declared {attributes : List AttributeInfo} {nodes : List Node}
    (h : List.Forall₂ AttributeInfo.DeclaredBy attributes nodes) (cluster : String)
    (t : Table AttributeInfo) (hdistinct : Distinct (t.entries ++ attributes)) :
    ∃ t', nodes.foldlM (addAttribute cluster) t = .ok t' ∧
      t'.entries = t.entries ++ attributes :=
  foldlM_add h (fun t _ _ _ hnode => addAttribute_of_declaredBy hnode cluster t) t hdistinct

/-! ## Clusters -/

/-- The contents with more at the ends of their lists. -/
def ClusterContents.extend (c : ClusterContents) (attributes : List AttributeInfo)
    (ins outs : List Command) : ClusterContents :=
  ⟨c.id, c.name, c.attributes ++ attributes, c.commandsIn ++ ins, c.commandsOut ++ outs⟩

theorem ClusterContents.extend_extend (c : ClusterContents) (as as' : List AttributeInfo)
    (ins ins' outs outs' : List Command) :
    (c.extend as ins outs).extend as' ins' outs' =
      c.extend (as ++ as') (ins ++ ins') (outs ++ outs') := by
  simp only [extend, List.append_assoc]

namespace Cluster

variable {line : Nat} {data : String} {block : List Node}

theorem addSection_attributes {front : List AttributeInfo}
    (h : List.Forall₂ AttributeInfo.DeclaredBy front block) (cluster : Cluster)
    (hdistinct : Distinct (cluster.attributes.entries ++ front)) :
    ∃ cluster', cluster.addSection ⟨line, "attributes", data, block⟩ = .ok cluster' ∧
      cluster'.contents = cluster.contents.extend front [] [] := by
  obtain ⟨table, hrun, htable⟩ :=
    addAttributes_of_declared h cluster.name cluster.attributes hdistinct
  refine ⟨{ cluster with attributes := table }, ?_, ?_⟩
  · simp [addSection, hrun, Except.map]
  · simp [contents, ClusterContents.extend, htable]

theorem addSection_commandsIn {front : List Command}
    (h : List.Forall₂ Command.DeclaredBy front block)
    (hsound : ∀ command ∈ front, command.Sound) (cluster : Cluster)
    (hdistinct : Distinct (cluster.commandsIn.entries ++ front)) :
    ∃ cluster', cluster.addSection ⟨line, "commands", "in", block⟩ = .ok cluster' ∧
      cluster'.contents = cluster.contents.extend [] front [] := by
  obtain ⟨table, hrun, htable⟩ :=
    addCommands_of_declared hsound h cluster.name cluster.commandsIn hdistinct
  refine ⟨{ cluster with commandsIn := table }, ?_, ?_⟩
  · simp [addSection, hrun, Except.map]
  · simp [contents, ClusterContents.extend, htable]

theorem addSection_commandsOut {front : List Command}
    (h : List.Forall₂ Command.DeclaredBy front block)
    (hsound : ∀ command ∈ front, command.Sound) (cluster : Cluster)
    (hdistinct : Distinct (cluster.commandsOut.entries ++ front)) :
    ∃ cluster', cluster.addSection ⟨line, "commands", "out", block⟩ = .ok cluster' ∧
      cluster'.contents = cluster.contents.extend [] [] front := by
  obtain ⟨table, hrun, htable⟩ :=
    addCommands_of_declared hsound h cluster.name cluster.commandsOut hdistinct
  refine ⟨{ cluster with commandsOut := table }, ?_, ?_⟩
  · simp [addSection, hrun, Except.map]
  · simp [contents, ClusterContents.extend, htable]

end Cluster

/-- Sections are added to a cluster if all that it has in the end is sound. -/
theorem Sections.foldlM_addSection {nodes : List Node} {attributes : List AttributeInfo}
    {ins outs : List Command} (h : Sections nodes attributes ins outs) (cluster : Cluster)
    (hsound : (cluster.contents.extend attributes ins outs).Sound) :
    ∃ cluster', nodes.foldlM Cluster.addSection cluster = .ok cluster' ∧
      cluster'.contents = cluster.contents.extend attributes ins outs := by
  induction h generalizing cluster with
  | nil =>
    refine ⟨cluster, rfl, ?_⟩
    simp [ClusterContents.extend]
  -- In each case a section goes from the rest of the text to the cluster, and both together say the
  -- same as before.
  | @attributes line data block nodes front attributes ins outs hblock h ih =>
    rw [← List.nil_append ins, ← List.nil_append outs, ← ClusterContents.extend_extend]
      at hsound ⊢
    obtain ⟨cluster₁, hstep, h₁⟩ := Cluster.addSection_attributes hblock cluster
      hsound.attributes.left
    rw [← h₁] at hsound ⊢
    obtain ⟨cluster', hrest, hcluster'⟩ := ih cluster₁ hsound
    exact ⟨cluster', foldlM_cons_ok hstep hrest, hcluster'⟩
  | @commandsIn line block nodes attributes front ins outs hblock h ih =>
    rw [← List.nil_append attributes, ← List.nil_append outs, ← ClusterContents.extend_extend]
      at hsound ⊢
    obtain ⟨cluster₁, hstep, h₁⟩ := Cluster.addSection_commandsIn hblock
      (fun command hc => hsound.payloads command (by simp [ClusterContents.extend, hc])) cluster
      hsound.commandsIn.left
    rw [← h₁] at hsound ⊢
    obtain ⟨cluster', hrest, hcluster'⟩ := ih cluster₁ hsound
    exact ⟨cluster', foldlM_cons_ok hstep hrest, hcluster'⟩
  | @commandsOut line block nodes attributes front ins outs hblock h ih =>
    rw [← List.nil_append attributes, ← List.nil_append ins, ← ClusterContents.extend_extend]
      at hsound ⊢
    obtain ⟨cluster₁, hstep, h₁⟩ := Cluster.addSection_commandsOut hblock
      (fun command hc => hsound.payloads command (by simp [ClusterContents.extend, hc])) cluster
      hsound.commandsOut.left
    rw [← h₁] at hsound ⊢
    obtain ⟨cluster', hrest, hcluster'⟩ := ih cluster₁ hsound
    exact ⟨cluster', foldlM_cons_ok hstep hrest, hcluster'⟩

theorem Cluster.ofNode_of_declaredBy {c : ClusterContents} {node : Node} (hsound : c.Sound)
    (h : c.DeclaredBy node) : ∃ cluster, ofNode node = .ok cluster ∧ cluster.contents = c := by
  obtain ⟨id, name, attributes, ins, outs⟩ := c
  have hid : node.id "cluster" UInt16.size = .ok id.toNat :=
    Info.Node.id_of_literal h.id id.toNat_lt_size (by decide) "cluster"
  have hname : node.data = name := h.name
  obtain ⟨cluster, hrun, hcluster⟩ := h.sections.foldlM_addSection (bare id name) hsound
  refine ⟨cluster, ?_, hcluster⟩
  unfold ofNode
  rw [hid, hname]
  simpa only [bind, Except.bind, UInt16.ofNat_toNat] using hrun

/-! ## Whole schemas -/

/-- The contents with more at the ends of their lists. -/
def Contents.extend (c : Contents) (commands : List Command) (clusters : List ClusterContents) :
    Contents :=
  ⟨c.globalCommands ++ commands, c.clusters ++ clusters⟩

theorem Contents.extend_extend (c : Contents) (commands commands' : List Command)
    (clusters clusters' : List ClusterContents) :
    (c.extend commands clusters).extend commands' clusters' =
      c.extend (commands ++ commands') (clusters ++ clusters') := by
  simp only [extend, List.append_assoc]

theorem Distinct.of_contents {clusters : List Cluster}
    (h : Distinct (clusters.map Cluster.contents)) : Distinct clusters := by
  have hids : (clusters.map Cluster.contents).map Entry.id = clusters.map Entry.id := by
    rw [List.map_map]
    rfl
  have hnames : (clusters.map Cluster.contents).map Entry.name = clusters.map Entry.name := by
    rw [List.map_map]
    rfl
  exact ⟨hids ▸ h.ids, hnames ▸ h.names⟩

theorem GlobalSections.foldlM_addGlobalSection {nodes : List Node} {commands : List Command}
    (h : GlobalSections nodes commands) (hsound : ∀ command ∈ commands, command.Sound)
    (t : Table Command) (hdistinct : Distinct (t.entries ++ commands)) :
    ∃ t', nodes.foldlM addGlobalSection t = .ok t' ∧ t'.entries = t.entries ++ commands := by
  induction h generalizing t with
  | nil => exact ⟨t, rfl, (List.append_nil _).symm⟩
  | @commands line block nodes front commands hblock h ih =>
    rw [← List.append_assoc] at hdistinct ⊢
    obtain ⟨t₁, hrun, ht₁⟩ := addCommands_of_declared
      (fun c hc => hsound c (List.mem_append_left _ hc)) hblock "global" t hdistinct.left
    rw [← ht₁] at hdistinct ⊢
    obtain ⟨t', hrest, ht'⟩ :=
      ih (fun c hc => hsound c (List.mem_append_right _ hc)) t₁ hdistinct
    have hstep : addGlobalSection t ⟨line, "commands", "", block⟩ = .ok t₁ := by
      simp [addGlobalSection, hrun]
    exact ⟨t', foldlM_cons_ok hstep hrest, ht'⟩

theorem addGlobal_of_globalEntry {data : String} {block : List Node} {commands : List Command}
    (h : GlobalEntry data block commands) (hsound : ∀ command ∈ commands, command.Sound)
    (line : Nat) (t : Table Command) (hdistinct : Distinct (t.entries ++ commands)) :
    ∃ t', addGlobal t ⟨line, "global", data, block⟩ = .ok t' ∧
      t'.entries = t.entries ++ commands := by
  unfold addGlobal
  cases h with
  | commands hblock => exact addCommands_of_declared hsound hblock "global" t hdistinct
  | sections hblock => exact hblock.foldlM_addGlobalSection hsound t hdistinct

theorem Schema.addNode_global {data : String} {block : List Node} {front : List Command}
    (h : GlobalEntry data block front) (hsound : ∀ command ∈ front, command.Sound) (line : Nat)
    (schema : Schema) (hdistinct : Distinct (schema.globalCommands.entries ++ front)) :
    ∃ schema', schema.addNode ⟨line, "global", data, block⟩ = .ok schema' ∧
      schema'.contents = schema.contents.extend front [] := by
  obtain ⟨table, hrun, htable⟩ :=
    addGlobal_of_globalEntry h hsound line schema.globalCommands hdistinct
  refine ⟨{ schema with globalCommands := table }, ?_, ?_⟩
  · simp [addNode, hrun, Except.map]
  · simp [contents, Contents.extend, htable]

theorem Schema.addNode_cluster {c : ClusterContents} {node : Node} (hsound : c.Sound)
    (h : c.DeclaredBy node) (schema : Schema)
    (hdistinct : Distinct (schema.contents.clusters ++ [c])) :
    ∃ schema', schema.addNode node = .ok schema' ∧
      schema'.contents = schema.contents.extend [] [c] := by
  obtain ⟨cluster, hcluster, rfl⟩ := Cluster.ofNode_of_declaredBy hsound h
  have hdistinct : Distinct (schema.clusters.entries ++ [cluster]) := by
    apply Distinct.of_contents
    rw [List.map_append]
    exact hdistinct
  obtain ⟨table, hadd, htable⟩ := schema.clusters.add_of_distinct cluster hdistinct
  refine ⟨{ schema with clusters := table }, ?_, ?_⟩
  · have hkey : node.key ≠ "global" :=
      h.id.ne_global (Nat.lt_of_lt_of_le cluster.contents.id.toNat_lt_size (by decide))
    unfold addNode
    rw [if_neg hkey, hcluster]
    simp only [bind, Except.bind, hadd]
    rfl
  · simp [contents, Contents.extend, htable]

/-- Entries are added to a schema if all that it has in the end is sound. -/
theorem Entries.foldlM_addNode {nodes : List Node} {commands : List Command}
    {clusters : List ClusterContents} (h : Entries nodes commands clusters) (schema : Schema)
    (hsound : (schema.contents.extend commands clusters).Sound) :
    ∃ schema', nodes.foldlM Schema.addNode schema = .ok schema' ∧
      schema'.contents = schema.contents.extend commands clusters := by
  induction h generalizing schema with
  | nil =>
    refine ⟨schema, rfl, ?_⟩
    simp [Contents.extend]
  | @globals line data block nodes front commands clusters hblock h ih =>
    rw [← List.nil_append clusters, ← Contents.extend_extend] at hsound ⊢
    obtain ⟨schema₁, hstep, h₁⟩ := Schema.addNode_global hblock
      (fun command hc => hsound.payloads command (by simp [Contents.extend, hc])) line schema
      hsound.globalCommands.left
    rw [← h₁] at hsound ⊢
    obtain ⟨schema', hrest, hschema'⟩ := ih schema₁ hsound
    exact ⟨schema', foldlM_cons_ok hstep hrest, hschema'⟩
  | @cluster node nodes commands c clusters hnode h ih =>
    rw [← List.nil_append commands, ← List.singleton_append (l := clusters),
      ← Contents.extend_extend] at hsound ⊢
    obtain ⟨schema₁, hstep, h₁⟩ := Schema.addNode_cluster
      (hsound.inside c (by simp [Contents.extend])) hnode schema hsound.clusters.left
    rw [← h₁] at hsound ⊢
    obtain ⟨schema', hrest, hschema'⟩ := ih schema₁ hsound
    exact ⟨schema', foldlM_cons_ok hstep hrest, hschema'⟩

end ZigbeeGateway
