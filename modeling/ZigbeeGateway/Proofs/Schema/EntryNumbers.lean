-- The numbers of clusters, attributes and commands. A key is read as exactly the number that it
-- stands for, however long it is, or the entry is refused with an error that quotes the key. No
-- number is cut to the size of its field.
import ZigbeeGateway.Proofs.Schema.Consistency
namespace ZigbeeGateway

open Info (Node)

variable {n : Nat} {cs : List Char}

/-- A text is read as a number if and only if it is a literal of it and has no more than 64 bits. -/
theorem literal?_eq_some_iff : literal? cs = some n ↔ Literal n cs ∧ n < UInt64.size := by
  constructor
  · intro h
    obtain ⟨-, hn⟩ := Option.filter_eq_some_iff.mp h
    exact ⟨literal_of_literal? h, by simpa using hn⟩
  · rintro ⟨hcs, hn⟩
    exact literal?_of_literal hcs hn

/-! ## The number of an entry -/

namespace Info.Node

variable {node : Node} {what : String} {limit : Nat}

theorem id_eq_ok_iff (hlimit : limit ≤ UInt64.size) :
    node.id what limit = .ok n ↔ Literal n node.key.toList ∧ n < limit := by
  constructor
  · intro h
    unfold id at h
    split at h
    next m hm =>
      cases h
      obtain ⟨hread, hn⟩ := Option.filter_eq_some_iff.mp hm
      exact ⟨literal_of_literal? hread, by simpa using hn⟩
    next => cases h
  · rintro ⟨h, hn⟩
    exact id_of_literal h hn hlimit what

theorem eq_of_id_eq_error {e : SchemaError} (h : node.id what limit = .error e) :
    e = .atLine node.line (.invalidId what node.key node.data) := by
  unfold id at h
  split at h
  next => cases h
  next =>
    cases h
    rfl

/-- An entry has the number that its key is a literal of, if that is below the limit. Any other key
is refused, and the error quotes it. -/
structure ReadsNumber (node : Node) (what : String) (limit : Nat) : Prop where
  ok_iff : ∀ n, node.id what limit = .ok n ↔ Literal n node.key.toList ∧ n < limit
  refused : (∀ n, Literal n node.key.toList → limit ≤ n) →
    ∃ e, node.id what limit = .error e ∧
      e.message = "schema error: line " ++ inDecimal node.line ++ ": invalid " ++ what ++
        " id " ++ inQuotes node.key ++ " for " ++ inQuotes node.data

theorem message_invalidId (line : Nat) (what key name : String) :
    (SchemaError.atLine line (.invalidId what key name)).message =
      "schema error: line " ++ inDecimal line ++ ": invalid " ++ what ++ " id " ++ inQuotes key ++
        " for " ++ inQuotes name := by
  have hlead : "schema error: line " = "schema error: " ++ "line " := rfl
  have hfault : ": invalid " = ": " ++ "invalid " := rfl
  calc (SchemaError.atLine line (.invalidId what key name)).message
      = "schema error: " ++ ("line " ++ inDecimal line ++ ": " ++
          ("invalid " ++ what ++ " id " ++ inQuotes key ++ " for " ++ inQuotes name)) := rfl
    _ = _ := by
      rw [hlead, hfault]
      simp only [String.append_assoc]

theorem readsNumber (node : Node) (what : String) (hlimit : limit ≤ UInt64.size) :
    node.ReadsNumber what limit where
  ok_iff n := id_eq_ok_iff hlimit
  refused hkey := by
    rcases h : node.id what limit with e | n
    · refine ⟨e, rfl, ?_⟩
      rw [eq_of_id_eq_error h]
      exact message_invalidId ..
    · obtain ⟨hn, hlt⟩ := (id_eq_ok_iff hlimit).mp h
      exact absurd hlt (Nat.not_lt.mpr (hkey n hn))

/-- A number that its field leaves as it is stays the one of the key. -/
theorem literal_of_id {m : Nat} (hlimit : limit ≤ UInt64.size) (h : node.id what limit = .ok n)
    (hm : n < limit → m = n) : Literal m node.key.toList := by
  obtain ⟨hn, hlt⟩ := (id_eq_ok_iff hlimit).mp h
  rwa [hm hlt]

end Info.Node

/-! ## Numbers in tables -/

/-- If an entry of a text is let into a table, it stands there under the number of its key. -/
def KeepsNumber {α : Type} [Entry α] (node : Node) (t : Table α)
    (loaded : Except SchemaError (Table α)) : Prop :=
  ∀ t', loaded = .ok t' →
    ∃ x, t'.entries = t.entries ++ [x] ∧ Literal (Entry.id x) node.key.toList

theorem keepsNumber_addCommand (node : Node) (owner : String) (t : Table Command) :
    KeepsNumber node t (addCommand owner t node) := by
  intro t' h
  unfold addCommand at h
  obtain ⟨payload, -, h⟩ := ok_of_bind h
  obtain ⟨_, -, h⟩ := ok_of_bind h
  obtain ⟨id, hid, hadd⟩ := ok_of_bind h
  exact ⟨_, Table.entries_of_add (ok_of_mapError hadd),
    Info.Node.literal_of_id (by decide) hid UInt8.toNat_ofNat_of_lt'⟩

theorem keepsNumber_addAttribute (node : Node) (cluster : String) (t : Table AttributeInfo) :
    KeepsNumber node t (addAttribute cluster t node) := by
  intro t' h
  unfold addAttribute at h
  obtain ⟨datatype, -, h⟩ := ok_of_bind h
  obtain ⟨id, hid, hadd⟩ := ok_of_bind h
  exact ⟨_, Table.entries_of_add (ok_of_mapError hadd),
    Info.Node.literal_of_id (by decide) hid UInt16.toNat_ofNat_of_lt'⟩

theorem Cluster.id_addSection {c c' : Cluster} {node : Node} (h : c.addSection node = .ok c') :
    c'.id = c.id := by
  unfold addSection at h
  split at h
  · obtain ⟨table, -, rfl⟩ := ok_of_map h
    rfl
  · split at h
    · split at h
      · obtain ⟨table, -, rfl⟩ := ok_of_map h
        rfl
      · split at h
        · obtain ⟨table, -, rfl⟩ := ok_of_map h
          rfl
        · cases h
    · cases h

theorem Cluster.literal_of_ofNode {c : Cluster} {node : Node} (h : ofNode node = .ok c) :
    Literal c.id.toNat node.key.toList := by
  unfold ofNode at h
  obtain ⟨id, hid, hsections⟩ := ok_of_bind h
  have hkept : c.id = UInt16.ofNat id :=
    foldlM_keeps (P := fun c => c.id = UInt16.ofNat id)
      (fun _ _ _ hc h => (id_addSection h).trans hc) rfl hsections
  rw [hkept]
  exact Info.Node.literal_of_id (by decide) hid UInt16.toNat_ofNat_of_lt'

theorem keepsNumber_addNode {node : Node} (hkey : node.key ≠ "global")
    (schema : Schema) :
    KeepsNumber node schema.clusters ((schema.addNode node).map (·.clusters)) := by
  intro t' hload
  obtain ⟨schema', h, rfl⟩ := ok_of_map hload
  unfold Schema.addNode at h
  rw [if_neg hkey] at h
  obtain ⟨cluster, hcluster, h⟩ := ok_of_bind h
  obtain ⟨table, hadd, h⟩ := ok_of_bind h
  cases h
  exact ⟨cluster, Table.entries_of_add hadd, Cluster.literal_of_ofNode hcluster⟩

/-! ## The law -/

/-- A text is read as a number if and only if it is a literal of that number, which has no more than
64 bits. A cluster or an attribute has the number that its key is a literal of if that has no more
than 16 bits, and a command if it has no more than 8 bits; any other key is refused with an error
that quotes it. In a schema they stand under the numbers of their keys. -/
theorem no_number_is_cut_to_size :
    (∀ (text : String) (n : Nat),
      literal? text.toList = some n ↔ Literal n text.toList ∧ n < UInt64.size) ∧
    ∀ node : Node,
      node.ReadsNumber "cluster" UInt16.size ∧ node.ReadsNumber "attribute" UInt16.size ∧
      node.ReadsNumber "command" UInt8.size ∧
      (node.key ≠ "global" → ∀ schema : Schema,
        KeepsNumber node schema.clusters ((schema.addNode node).map (·.clusters))) ∧
      (∀ cluster t, KeepsNumber node t (addAttribute cluster t node)) ∧
      ∀ owner t, KeepsNumber node t (addCommand owner t node) := by
  refine ⟨fun text n => literal?_eq_some_iff, fun node => ⟨?_, ?_, ?_, ?_, ?_, ?_⟩⟩
  · exact node.readsNumber "cluster" (by decide)
  · exact node.readsNumber "attribute" (by decide)
  · exact node.readsNumber "command" (by decide)
  · exact keepsNumber_addNode
  · exact keepsNumber_addAttribute node
  · exact keepsNumber_addCommand node

/-- The number 256 is one of an attribute and too large for a command. -/
theorem a_wide_number_is_kept_or_refused :
    let node : Node := ⟨3, "0X0100", "Wide", []⟩
    literal? "0X0100".toList = some 256 ∧ node.id "attribute" UInt16.size = .ok 256 ∧
      (∃ t x, addAttribute "Basic" Table.empty node = .ok t ∧ t.entries = [x] ∧
        x.id.toNat = 256) ∧
      ∃ e, node.id "command" UInt8.size = .error e ∧
        e.message = "schema error: line 3: invalid command id '0X0100' for 'Wide'" := by
  intro node
  obtain ⟨hread, hnode⟩ := no_number_is_cut_to_size
  obtain ⟨-, hattribute, hcommand, -, hkept, -⟩ := hnode node
  have h256 : literal? "0X0100".toList = some 256 := by decide
  have honly : ∀ n, Literal n node.key.toList → n < UInt64.size → n = 256 := by
    intro n hn hlt
    have hsame := (hread "0X0100" n).mpr ⟨hn, hlt⟩
    exact Option.some.inj (hsame.symm.trans h256)
  have hliteral : Literal 256 node.key.toList := ((hread "0X0100" 256).mp h256).1
  refine ⟨h256, (hattribute.ok_iff 256).mpr ⟨hliteral, by decide⟩, ?_, ?_⟩
  · have hok : (addAttribute "Basic" Table.empty node).isOk = true := by decide
    rcases h : addAttribute "Basic" Table.empty node with e | t
    · rw [h] at hok
      cases hok
    · obtain ⟨x, hentries, hx⟩ := hkept "Basic" Table.empty t h
      exact ⟨t, x, rfl, hentries, honly _ hx (Nat.lt_trans x.id.toNat_lt_size (by decide))⟩
  · obtain ⟨e, he, hmessage⟩ := hcommand.refused fun n hn => by
      by_contra hlt
      rw [honly n hn (Nat.lt_trans (Nat.not_le.mp hlt) (by decide))] at hlt
      exact hlt (by decide)
    refine ⟨e, he, hmessage.trans ?_⟩
    decide +kernel

end ZigbeeGateway
