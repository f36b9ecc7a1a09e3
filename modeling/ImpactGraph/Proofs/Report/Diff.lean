import ImpactGraph.Change.Records
import ImpactGraph.Proofs.Change.Join
import ImpactGraph.Proofs.Json

/-!
# What a report in JSON says of changed files

A report is an array with one object for each changed file of the graph (`diff_eq`).  `IsMember`
lists what stands in such an object: the path, what was said of the change, the descriptor, the
dependents and, on request, the number of files that are reached.  `itemizes` says that nothing else
stands there, and where a name may come twice: joining drops what was said under its own three
names, but `impacted` is the name of a member that is added after that.  So two members have one
name exactly where numbers are asked for and something was said under that name.
-/

set_option autoImplicit false

namespace ImpactGraph
namespace Report

variable {s : Snapshot} {r : DiffRecord} {j : JoinedRecord} {k : Path} {node : GraphNode}
  {transitive : Bool} {name : String} {value : Json}

/-- The members of an entry as JSON. -/
def ImpactEntry.toMembers (e : ImpactEntry) : List (String × Json) :=
  e.record.toMembers ++ (e.impacted.map fun count ↦ ("impacted", Json.nat count)).toList

theorem ImpactEntry.toJson_eq (e : ImpactEntry) : e.toJson = .object e.toMembers := by
  obtain ⟨record, impacted⟩ := e
  cases impacted <;> rfl

/-- A report is an array of the objects of its records. -/
theorem diff_eq (s : Snapshot) (records : List JoinedRecord) (transitive colored : Bool) :
    diff s records transitive .json colored = (Json.array ((records.map fun j ↦
      (ImpactEntry.ofRecord s transitive j).toMembers).map .object)).pretty ++ "\n" := by
  simp [diff, Function.comp_def, ImpactEntry.toJson_eq]

/-- What a report says of a change that leads to this file of the graph, by its names. -/
inductive IsMember (s : Snapshot) (transitive : Bool) (r : DiffRecord) (k : Path)
    (node : GraphNode) : String → Json → Prop
  | path : IsMember s transitive r k node "path" (.string r.path)
  | info {name : String} {value : Json} : name ∉ ["path", "descriptor", "dependents"] →
      r.info.get? name = some value → IsMember s transitive r k node name value
  | descriptor : IsMember s transitive r k node "descriptor" (.ofTextMap node.descriptor)
  | dependents :
      IsMember s transitive r k node "dependents" (.strings (node.dependents.map s.display))
  | impacted : transitive = true →
      IsMember s transitive r k node "impacted" (.nat (s.transitiveDependents k).size)

/-- The members of the object that a report has for a change. -/
structure Itemizes (s : Snapshot) (transitive : Bool) (r : DiffRecord)
    (members : List (String × Json)) : Prop where
  /-- They say what there is to say of the change and its file, and nothing else. -/
  mem_iff : ∃ k node, s.LeadsTo r.path k node ∧
    ∀ name value, (name, value) ∈ members ↔ IsMember s transitive r k node name value
  /-- Their names all differ, unless the number of files is added to something that was said under
  its name. -/
  nodup_iff : (members.map Prod.fst).Nodup ↔
    ¬(transitive = true ∧ "impacted" ∈ r.info.keys)
  /-- In no case does another name come twice. -/
  nodup_others : ((members.map Prod.fst).filter (· ≠ "impacted")).Nodup

theorem mem_entries_info_iff (h : j.Annotates s r) : (name, value) ∈ j.info.entries ↔
    name ∉ ["path", "descriptor", "dependents"] ∧ r.info.get? name = some value := by
  rw [← SortedMap.get?_eq_some_iff_mem, h.get?_info]
  split <;> simp_all

theorem mem_toMembers_iff {e : ImpactEntry} : (name, value) ∈ e.toMembers ↔
    name = "path" ∧ value = .string e.record.path ∨ (name, value) ∈ e.record.info.entries ∨
      name = "descriptor" ∧ value = .ofTextMap e.record.descriptor ∨
      name = "dependents" ∧ value = .strings e.record.dependents ∨
      ∃ count, e.impacted = some count ∧ name = "impacted" ∧ value = .nat count := by
  simp [ImpactEntry.toMembers, JoinedRecord.toMembers, eq_comm]

theorem mem_toMembers_ofRecord_iff (h : j.Annotates s r) (hleads : s.LeadsTo r.path k node)
    (hdescriptor : j.descriptor = node.descriptor)
    (hdependents : j.dependents = node.dependents.map s.display) :
    (name, value) ∈ (ImpactEntry.ofRecord s transitive j).toMembers ↔
      IsMember s transitive r k node name value := by
  have hcount : impactedCount s j = (s.transitiveDependents k).size :=
    impactedCount_of_leadsTo (h.path_eq ▸ hleads)
  rw [mem_toMembers_iff]
  simp only [ImpactEntry.ofRecord, mem_entries_info_iff h, h.path_eq, hdescriptor, hdependents,
    hcount]
  constructor
  · rintro (⟨rfl, rfl⟩ | ⟨hname, hvalue⟩ | ⟨rfl, rfl⟩ | ⟨rfl, rfl⟩ | ⟨count, hcount, rfl, rfl⟩)
    · exact .path
    · exact .info hname hvalue
    · exact .descriptor
    · exact .dependents
    · split at hcount
      · next htransitive =>
        cases hcount
        exact .impacted htransitive
      · cases hcount
  · rintro (_ | ⟨hname, hvalue⟩ | _ | _ | htransitive)
    · exact .inl ⟨rfl, rfl⟩
    · exact .inr (.inl ⟨hname, hvalue⟩)
    · exact .inr (.inr (.inl ⟨rfl, rfl⟩))
    · exact .inr (.inr (.inr (.inl ⟨rfl, rfl⟩)))
    · exact .inr (.inr (.inr (.inr ⟨_, if_pos htransitive, rfl, rfl⟩)))

theorem names_ofRecord (s : Snapshot) (transitive : Bool) (j : JoinedRecord) :
    (ImpactEntry.ofRecord s transitive j).toMembers.map Prod.fst =
      j.toMembers.map Prod.fst ++ if transitive then ["impacted"] else [] := by
  cases transitive <;> simp [ImpactEntry.toMembers, ImpactEntry.ofRecord]

theorem nodup_names_iff (hclear : j.Clear) :
    ((ImpactEntry.ofRecord s transitive j).toMembers.map Prod.fst).Nodup ↔
      ¬(transitive = true ∧ "impacted" ∈ j.info.keys) := by
  -- of the other names, only those of the metadata can be the one that is added
  have hmem : "impacted" ∈ j.toMembers.map Prod.fst ↔ "impacted" ∈ j.info.keys := by
    simp [JoinedRecord.names_toMembers]
  rw [names_ofRecord]
  cases transitive with
  | false => simpa using hclear.nodup_names
  | true =>
    rw [if_pos rfl, List.nodup_append_comm, List.singleton_append, List.nodup_cons, hmem]
    simp [hclear.nodup_names]

theorem nodup_others_ofRecord (hclear : j.Clear) :
    (((ImpactEntry.ofRecord s transitive j).toMembers.map Prod.fst).filter
      (· ≠ "impacted")).Nodup := by
  have hadded : (if transitive then ["impacted"] else []).filter (· ≠ "impacted") = [] := by
    cases transitive <;> decide
  rw [names_ofRecord, List.filter_append, hadded, List.append_nil]
  exact hclear.nodup_names.filter _

theorem itemizes_of_annotates (transitive : Bool) (h : j.Annotates s r) :
    Itemizes s transitive r (ImpactEntry.ofRecord s transitive j).toMembers := by
  obtain ⟨k, node, hleads, hdescriptor, hdependents⟩ := h.node
  have hinfo : "impacted" ∈ j.info.keys ↔ "impacted" ∈ r.info.keys := by
    rw [SortedMap.mem_keys_iff, SortedMap.mem_keys_iff, h.get?_info, if_neg (by decide)]
  refine ⟨⟨k, node, hleads, fun name value ↦ ?_⟩, ?_, nodup_others_ofRecord h.clear⟩
  · exact mem_toMembers_ofRecord_iff h hleads hdescriptor hdependents
  · rw [nodup_names_iff h.clear, hinfo]

/-- In a report in JSON there is one object for each change that leads to a file of the graph. -/
theorem itemizes (s : Snapshot) (changes : List DiffRecord) (transitive colored : Bool) :
    ∃ objects, diff s (join changes s) transitive .json colored =
        (Json.array (objects.map .object)).pretty ++ "\n" ∧
      s.Yields (Itemizes s transitive) changes objects :=
  ⟨_, diff_eq s _ transitive colored,
    (yields_join changes s).map _ fun _ _ ↦ itemizes_of_annotates transitive⟩

/-! A change of which a tool says how much it impacts. -/

namespace Clash

/-- A list with this change. -/
def list : Json := .array [.object [("impacted", .int 5), ("path", .string "a.js")]]

/-- The change. -/
def change : DiffRecord where
  path := "a.js"
  info := .ofList [("impacted", .int 5)]

/-- A graph of two files, of which the one imports the other one. -/
def snapshot : Snapshot where
  root := .ofText "/r"
  entry := .ofText "/r/main.js"
  nodes := .ofList
    [(.ofText "/r/main.js", ⟨∅, []⟩), (.ofText "/r/a.js", ⟨∅, [.ofText "/r/main.js"]⟩)]

/-- What a report with numbers says of the change. -/
def members : List (String × Json) :=
  [("path", .string "a.js"), ("impacted", .int 5), ("descriptor", .object []),
    ("dependents", .strings ["main.js"]), ("impacted", .nat 1)]

end Clash

theorem impacted_twice : DiffRecord.ofList Clash.list = .ok [Clash.change] ∧
    diff Clash.snapshot (join [Clash.change] Clash.snapshot) true .json false =
      (Json.array [.object Clash.members]).pretty ++ "\n" ∧
    ¬(Clash.members.map Prod.fst).Nodup := by
  refine ⟨rfl, ?_, by decide⟩
  have hmembers : (join [Clash.change] Clash.snapshot).map
      (fun j ↦ (ImpactEntry.ofRecord Clash.snapshot true j).toMembers) = [Clash.members] := by
    decide +kernel
  rw [diff_eq, hmembers]
  rfl

end Report
end ImpactGraph
