import ImpactGraph.Proofs.Graph.Dependents
import ImpactGraph.Report.Diff

/-!
# What joining adds, and what it keeps

A reported path leads to a file of a graph if the path, taken from the root and cleaned, is the key
of the file (`Snapshot.LeadsTo`).  `Snapshot.Yields` says what it is to give one result for each
change that leads to a file, in their order, and none for the others.  `join_eq_iff` says that the
results of joining are the records that annotate these changes, and that there is no choice in it.

What was said of a change may have any names, but under the names of the members of its own a joined
record keeps nothing (`JoinedRecord.Clear`).  So no member comes twice, and the record is read back
from its members, whatever order they have (`JoinedRecord.ofJson?_of_perm`).
-/

set_option autoImplicit false

namespace ImpactGraph

/-! ## Records as JSON -/

namespace Json

theorem mapM_map_of_leftInverse {α β : Type} {f : α → β} {g : β → Option α} {xs : List α}
    (h : ∀ x ∈ xs, g (f x) = some x) : (xs.map f).mapM g = some xs := by
  induction xs with
  | nil => rfl
  | cons x xs ih =>
    obtain ⟨hx, hxs⟩ := List.forall_mem_cons.1 h
    rw [List.map_cons, List.mapM_cons, hx, ih hxs]
    rfl

theorem strings?_strings (texts : List String) : (strings texts).strings? = some texts :=
  mapM_map_of_leftInverse (f := string) (g := string?) fun _ _ ↦ rfl

theorem textMap?_ofTextMap (texts : SortedMap String String) :
    (ofTextMap texts).textMap? = some texts := by
  have hmembers : (ofTextMap texts).members? =
      some (texts.entries.map fun e ↦ (e.1, string e.2)) := rfl
  rw [textMap?, hmembers, Option.bind_eq_bind, Option.bind_some, mapM_map_of_leftInverse]
  · exact congrArg some (SortedMap.ofList_of_perm (.refl _))
  · intro e _
    rfl

/-- Where no name comes twice, a member is found by its name. -/
theorem member?_of_mem {members : List (String × Json)} {name : String} {value : Json}
    (hnodup : (members.map Prod.fst).Nodup) (h : (name, value) ∈ members) :
    (object members).member? name = some value :=
  (Entries.get?_eq_some_iff_of_nodup hnodup).2 h

end Json

namespace JoinedRecord

variable {j : JoinedRecord}

/-- No metadata stands under the name of a member that a joined record has of its own. -/
def Clear (j : JoinedRecord) : Prop := ∀ name ∈ ownNames, name ∉ j.info.keys

theorem names_toMembers :
    j.toMembers.map Prod.fst = "path" :: (j.info.keys ++ ["descriptor", "dependents"]) := by
  simp [toMembers, SortedMap.keys]

theorem Clear.nodup_names (h : j.Clear) : (j.toMembers.map Prod.fst).Nodup := by
  have hpath : "path" ∉ j.info.keys := h "path" (by decide)
  have hdescriptor : "descriptor" ∉ j.info.keys := h "descriptor" (by decide)
  have hdependents : "dependents" ∉ j.info.keys := h "dependents" (by decide)
  rw [names_toMembers, List.nodup_cons, List.nodup_append]
  refine ⟨by simp [hpath], j.info.nodup_keys, by decide, ?_⟩
  rintro name hname other hother rfl
  simp at hother
  rcases hother with rfl | rfl
  · exact hdescriptor hname
  · exact hdependents hname

/-- The metadata are the members with other names. -/
theorem Clear.filter_toMembers (h : j.Clear) :
    (j.toMembers.filter fun (name, _) ↦ !ownNames.contains name) = j.info.entries := by
  have hinfo : j.info.entries.filter (fun (name, _) ↦ !ownNames.contains name) =
      j.info.entries := by
    refine List.filter_eq_self.2 fun e he ↦ ?_
    have hname : e.1 ∉ ownNames := fun hown ↦ h e.1 hown (List.mem_map_of_mem he)
    simpa using hname
  rw [toMembers, List.cons_append, List.filter_cons, List.filter_append, hinfo]
  simp [ownNames]

/-- A record is read back from its members, in whatever order they come. -/
theorem ofJson?_of_perm (h : j.Clear) {members : List (String × Json)}
    (hmembers : members.Perm j.toMembers) : ofJson? (.object members) = some j := by
  have hnodup : (members.map Prod.fst).Nodup := (hmembers.map Prod.fst).nodup_iff.2 h.nodup_names
  have hpath : (Json.object members).member? "path" = some (.string j.path) :=
    Json.member?_of_mem hnodup (hmembers.mem_iff.2 (by simp [toMembers]))
  have hdescriptor : (Json.object members).member? "descriptor" = some (.ofTextMap j.descriptor) :=
    Json.member?_of_mem hnodup (hmembers.mem_iff.2 (by simp [toMembers]))
  have hdependents : (Json.object members).member? "dependents" = some (.strings j.dependents) :=
    Json.member?_of_mem hnodup (hmembers.mem_iff.2 (by simp [toMembers]))
  have hinfo : SortedMap.ofList (members.filter fun (name, _) ↦ !ownNames.contains name) = j.info :=
    SortedMap.ofList_of_perm (h.filter_toMembers ▸ hmembers.filter _)
  simp only [ofJson?, Json.members?, Json.string?, hpath, hdescriptor, hdependents,
    Json.textMap?_ofTextMap, Json.strings?_strings, Option.bind_eq_bind, Option.bind_some, hinfo]
  rfl

end JoinedRecord

/-! ## The files that changes lead to -/

namespace Snapshot

variable {s : Snapshot} {path : String} {k : Path} {node : GraphNode}

/-- A reported path leads to a file of the graph: taken from the root, unless it is absolute, and
cleaned, it is the key of the file. -/
def LeadsTo (s : Snapshot) (path : String) (k : Path) (node : GraphNode) : Prop :=
  (k, node) ∈ s.nodes.entries ∧ (s.root.join (.ofText path)).clean.same k = true

theorem keyOf_eq (s : Snapshot) (p : Path) : s.keyOf p = (s.root.join p).clean := by
  rw [keyOf, Path.join]
  split <;> rfl

theorem lookup?_eq_some_iff :
    s.lookup? (.ofText path) = some (k, node) ↔ s.LeadsTo path k node := by
  rw [lookup?, keyOf_eq, SortedMap.find?_eq_some_iff, LeadsTo, Path.same_iff, Path.compare_eq_iff]

theorem lookup?_eq_none_iff :
    s.lookup? (.ofText path) = none ↔ ∀ k node, ¬s.LeadsTo path k node := by
  simp only [Option.eq_none_iff_forall_ne_some, Prod.forall, ne_eq, lookup?_eq_some_iff]

/-- For each change that leads to a file of the graph there is one result, in the order of the
changes, and for the others there is none. -/
inductive Yields {ρ : Type} (s : Snapshot) (R : DiffRecord → ρ → Prop) :
    List DiffRecord → List ρ → Prop
  | nil : Yields s R [] []
  | keep {change : DiffRecord} {result : ρ} {changes : List DiffRecord} {results : List ρ} :
      (∃ k node, s.LeadsTo change.path k node) → R change result → Yields s R changes results →
      Yields s R (change :: changes) (result :: results)
  | drop {change : DiffRecord} {changes : List DiffRecord} {results : List ρ} :
      (∀ k node, ¬s.LeadsTo change.path k node) → Yields s R changes results →
      Yields s R (change :: changes) results

variable {ρ σ : Type} {R : DiffRecord → ρ → Prop} {S : DiffRecord → σ → Prop}
  {changes : List DiffRecord} {results results' : List ρ}

theorem Yields.map (f : ρ → σ) (hf : ∀ change result, R change result → S change (f result))
    (h : s.Yields R changes results) : s.Yields S changes (results.map f) := by
  induction h with
  | nil => exact .nil
  | keep hleads hR _ ih => exact .keep hleads (hf _ _ hR) ih
  | drop hleads _ ih => exact .drop hleads ih

/-- If there is no choice for any change, there is none for all of them. -/
theorem Yields.unique (hR : ∀ change result result', R change result → R change result' →
    result = result') (h : s.Yields R changes results) (h' : s.Yields R changes results') :
    results = results' := by
  induction h generalizing results' with
  | nil =>
    cases h'
    rfl
  | keep hleads hresult _ ih =>
    cases h' with
    | keep _ hresult' h' => rw [hR _ _ _ hresult hresult', ih h']
    | drop hnone _ =>
      obtain ⟨k, node, hk⟩ := hleads
      exact absurd hk (hnone k node)
  | drop hnone _ ih =>
    cases h' with
    | keep hleads _ _ =>
      obtain ⟨k, node, hk⟩ := hleads
      exact absurd hk (hnone k node)
    | drop _ h' => exact ih h'

end Snapshot

/-! ## Joined records -/

section

variable {s : Snapshot} {r : DiffRecord} {j : JoinedRecord} {k : Path} {node : GraphNode}

theorem get?_ownlessInfo (info : InfoTable) (name : String) :
    (ownlessInfo info).get? name =
      if name ∈ ["path", "descriptor", "dependents"] then none else info.get? name := by
  have hget : (ownlessInfo info).get? name =
      if (!JoinedRecord.ownNames.contains name) = true then info.get? name else none :=
    Entries.get?_filter fun name ↦ !JoinedRecord.ownNames.contains name
  rw [hget, JoinedRecord.ownNames]
  by_cases h : name ∈ ["path", "descriptor", "dependents"]
  · simp_all
  · simp_all

/-- A joined record says of a changed file what was said of it, but for what has the name of a
member of its own, and the descriptor of its file and what is shown of the dependents. -/
structure JoinedRecord.Annotates (s : Snapshot) (r : DiffRecord) (j : JoinedRecord) : Prop where
  path_eq : j.path = r.path
  get?_info : ∀ name, j.info.get? name =
    if name ∈ ["path", "descriptor", "dependents"] then none else r.info.get? name
  node : ∃ k node, s.LeadsTo r.path k node ∧ j.descriptor = node.descriptor ∧
    j.dependents = node.dependents.map s.display

namespace JoinedRecord.Annotates

theorem clear (h : Annotates s r j) : j.Clear := by
  intro name hname hmem
  have hget : j.info.get? name = none := (h.get?_info name).trans (if_pos hname)
  simp [SortedMap.mem_keys_iff, hget] at hmem

theorem unique {j' : JoinedRecord} (h : Annotates s r j) (h' : Annotates s r j') : j = j' := by
  obtain ⟨k, node, hleads, hdescriptor, hdependents⟩ := h.node
  obtain ⟨k', node', hleads', hdescriptor', hdependents'⟩ := h'.node
  rw [← Snapshot.lookup?_eq_some_iff] at hleads hleads'
  obtain ⟨rfl, rfl⟩ := Prod.mk.inj (Option.some_inj.1 (hleads.symm.trans hleads'))
  have hpath : j.path = j'.path := h.path_eq.trans h'.path_eq.symm
  have hinfo : j.info = j'.info :=
    SortedMap.ext_get? fun name ↦ (h.get?_info name).trans (h'.get?_info name).symm
  clear h h'
  cases j
  cases j'
  simp_all

end JoinedRecord.Annotates

theorem annotates_of_join? (h : r.join? s = some j) : j.Annotates s r := by
  obtain ⟨⟨k, node⟩, hlookup, rfl⟩ := Option.map_eq_some_iff.1 h
  exact ⟨rfl, get?_ownlessInfo r.info, k, node, Snapshot.lookup?_eq_some_iff.1 hlookup, rfl, rfl⟩

theorem exists_leadsTo_of_join? (h : r.join? s = some j) : ∃ k node, s.LeadsTo r.path k node := by
  obtain ⟨k, node, hleads, -⟩ := (annotates_of_join? h).node
  exact ⟨k, node, hleads⟩

theorem not_leadsTo_of_join? (h : r.join? s = none) (k : Path) (node : GraphNode) :
    ¬s.LeadsTo r.path k node :=
  Snapshot.lookup?_eq_none_iff.1 (Option.map_eq_none_iff.1 h) k node

theorem yields_join (changes : List DiffRecord) (s : Snapshot) :
    s.Yields (JoinedRecord.Annotates s) changes (join changes s) := by
  induction changes with
  | nil => exact .nil
  | cons r changes ih =>
    rw [join, List.filterMap_cons]
    cases hjoin : r.join? s with
    | none => exact .drop (not_leadsTo_of_join? hjoin) ih
    | some j => exact .keep (exists_leadsTo_of_join? hjoin) (annotates_of_join? hjoin) ih

theorem join_eq_iff {changes : List DiffRecord} {joined : List JoinedRecord} :
    join changes s = joined ↔ s.Yields (JoinedRecord.Annotates s) changes joined := by
  constructor
  · rintro rfl
    exact yields_join changes s
  · exact (yields_join changes s).unique fun _ _ _ ↦ JoinedRecord.Annotates.unique

theorem exists_annotates_of_mem_join {changes : List DiffRecord} (h : j ∈ join changes s) :
    ∃ r ∈ changes, j.Annotates s r := by
  obtain ⟨r, hr, hjoin⟩ := List.mem_filterMap.1 h
  exact ⟨r, hr, annotates_of_join? hjoin⟩

end

/-! ## Counts -/

namespace Report

variable {s : Snapshot} {j : JoinedRecord} {k : Path} {node : GraphNode}

theorem impactedCount_of_leadsTo (h : s.LeadsTo j.path k node) :
    impactedCount s j = (s.transitiveDependents k).size := by
  rw [impactedCount, Snapshot.lookup?_eq_some_iff.2 h]

theorem getLast?_entryLines (s : Snapshot) (colored : Bool) (j : JoinedRecord) :
    (entryLines colored (.ofRecord s true j)).getLast? =
      some (labelled colored "impacts:" s!"{impactedCount s j} file(s)") := by
  have hlines : ∃ lines, entryLines colored (.ofRecord s true j) =
      lines ++ [labelled colored "impacts:" s!"{impactedCount s j} file(s)"] :=
    ⟨_, List.append_cons _ _ _⟩
  obtain ⟨lines, hlines⟩ := hlines
  rw [hlines, List.getLast?_concat]

end Report

/-- Joining changed files with a graph adds what the graph knows of them, and nothing gets lost. -/
structure Joins (s : Snapshot) : Prop where
  /-- The results are records that annotate the changes, one for each change that leads to a file of
  the graph, in their order. -/
  yields : ∀ changes joined,
    join changes s = joined ↔ s.Yields (JoinedRecord.Annotates s) changes joined
  /-- Changes are joined one by one. -/
  append : ∀ changes more, join (changes ++ more) s = join changes s ++ join more s
  /-- No two members of a record have one name. -/
  names : ∀ changes, ∀ j ∈ join changes s, (j.toMembers.map Prod.fst).Nodup
  /-- A record is read back from its members, in whatever order they come. -/
  reads : ∀ changes, ∀ j ∈ join changes s, ∀ members, members.Perm j.toMembers →
    JoinedRecord.ofJson? (.object members) = some j
  /-- The number that is reported with a record is that of all paths which imports lead to from its
  file, in either format. -/
  counts : ∀ changes, ∀ j ∈ join changes s, ∃ k node, ∃ n : ℕ, s.LeadsTo j.path k node ∧
    j.descriptor = node.descriptor ∧ (s.reached k).encard = n ∧
    (∀ colored, (Report.entryLines colored (.ofRecord s true j)).getLast? =
      some (Report.labelled colored "impacts:" s!"{n} file(s)")) ∧
    (Report.ImpactEntry.ofRecord s true j).toJson =
      .object (j.toMembers ++ [("impacted", .nat n)])

theorem joins (s : Snapshot) : Joins s where
  yields _ _ := join_eq_iff
  append _ _ := List.filterMap_append
  names changes j hj := by
    obtain ⟨r, -, h⟩ := exists_annotates_of_mem_join hj
    exact h.clear.nodup_names
  reads changes j hj members hmembers := by
    obtain ⟨r, -, h⟩ := exists_annotates_of_mem_join hj
    exact JoinedRecord.ofJson?_of_perm h.clear hmembers
  counts changes j hj := by
    obtain ⟨r, -, h⟩ := exists_annotates_of_mem_join hj
    obtain ⟨k, node, hleads, hdescriptor, -⟩ := h.node
    rw [← h.path_eq] at hleads
    have hcount := Report.impactedCount_of_leadsTo hleads
    refine ⟨k, node, _, hleads, hdescriptor, s.encard_reached, ?_, ?_⟩ <;> rw [← hcount]
    · exact fun colored ↦ Report.getLast?_entryLines s colored j
    · rfl

end ImpactGraph
