import ImpactGraph.Proofs.Scan.Complete
import ImpactGraph.Proofs.Scan.Run

/-!
# The graph that a scan finds

A scan that was not cancelled ends in a state without tasks (`Scan.Over`), and there the invariants
of `Sound`, `Followed` and `Described` leave no room: the ledger holds the graph, whatever the order
in which the tasks took their steps.

The file tree must not tell the spellings of a file of the graph apart.  Otherwise it would matter
under which of them the file is claimed first.
-/

set_option autoImplicit false

namespace ImpactGraph

variable {plan : ScanPlan} {files : FileTree} {config : ScanConfig} {outcome : ScanOutcome}

namespace Scan

variable {s : Scan} {k t owner : Path} {specifier : String}

/-- A state in which a scan that was not cancelled is over. -/
structure Over (plan : ScanPlan) (files : FileTree) (maxConcurrency : Nat)
    (facts : Source.ModuleFacts) (s : Scan) : Prop where
  walked : plan.walked? files plan.entry = some facts
  reachable : Reachable plan files maxConcurrency facts s
  root : s.root = .finished
  cancelled : s.cancelled = false

variable {maxConcurrency : Nat} {facts : Source.ModuleFacts}

namespace Over

theorem tasks (h : Over plan files maxConcurrency facts s) : s.tasks = [] :=
  (kept_counted.reachable (counted_start _ _) h.reachable).finished h.root

theorem followed (h : Over plan files maxConcurrency facts s) : s.Followed plan files :=
  kept_followed.reachable (followed_start h.walked) h.reachable

theorem described (h : Over plan files maxConcurrency facts s) : s.Described plan files :=
  kept_described.reachable (described_start h.walked) h.reachable

theorem sound (h : Over plan files maxConcurrency facts s) : s.Sound plan files :=
  h.followed.toSound

theorem entry_mem (h : Over plan files maxConcurrency facts s) : plan.entry ∈ s.ledger.keys := by
  have hroot := h.sound.root
  rwa [h.root] at hroot

theorem isNode (h : Over plan files maxConcurrency facts s) (hk : k ∈ s.ledger.keys) :
    plan.IsNode files k := (h.sound.ledger.traced k hk).isNode

/-- The importer of a file of the ledger has been noted. -/
theorem exists_edge (h : Over plan files maxConcurrency facts s) (hk : k ∈ s.ledger.keys)
    (himports : plan.Imports files k t) :
    ∃ k' e, s.ledger.Has k' e ∧ t.parts = k'.parts ∧ e.dependents.contains k = true := by
  obtain ⟨specifier, hfrom, hresolution⟩ := himports
  cases h.followed.settled h.cancelled h.tasks h.root hk hfrom with
  | external hexternal =>
    rw [hresolution] at hexternal
    cases hexternal
  | failed hfault =>
    rw [hresolution] at hfault
    cases hfault
  | file ht hedge =>
    rw [hresolution] at ht
    cases ht
    exact hedge

/-- The files of the graph are in the ledger, under some spelling. -/
theorem contains_of_isNode (h : Over plan files maxConcurrency facts s)
    (hfiles : FileTree.Lawful files (plan.IsNode files)) (ht : plan.IsNode files t) :
    s.ledger.contains t = true := by
  induction ht with
  | entry => exact Ledger.contains_of_mem_keys h.entry_mem rfl
  | imported howner himports ih =>
    obtain ⟨k, hk, hparts⟩ := Ledger.contains_iff.1 ih
    have himports' := ScanPlan.imports_congr hfiles howner (h.isNode hk) hparts himports
    obtain ⟨k', e, he, ht, -⟩ := h.exists_edge hk himports'
    exact Ledger.contains_of_mem_keys he.mem_keys ht

theorem isNode_of_mem_keys (h : Over plan files maxConcurrency facts s)
    (ht : t ∈ (s.taken plan).snapshot.nodes.keys) : plan.IsNode files t := by
  rw [taken, Ledger.keys_snapshot] at ht
  exact h.isNode ht

/-- The files of the graph are files of the snapshot, under some spelling. -/
theorem exists_mem_keys (h : Over plan files maxConcurrency facts s)
    (hfiles : FileTree.Lawful files (plan.IsNode files)) (ht : plan.IsNode files t) :
    ∃ k ∈ (s.taken plan).snapshot.nodes.keys, plan.IsNode files k ∧ k.parts = t.parts := by
  obtain ⟨k, hk, hparts⟩ := Ledger.contains_iff.1 (h.contains_of_isNode hfiles ht)
  rw [taken, Ledger.keys_snapshot]
  exact ⟨k, hk, h.isNode hk, hparts.symm⟩

theorem depicts (h : Over plan files maxConcurrency facts s)
    (hfiles : FileTree.Lawful files (plan.IsNode files)) :
    plan.Depicts files (s.taken plan).snapshot where
  root := rfl
  entry := rfl
  contains_iff p := by
    rw [taken, Ledger.contains_snapshot]
    constructor
    · intro hp
      obtain ⟨k, hk, hparts⟩ := Ledger.contains_iff.1 hp
      exact ⟨k, h.isNode hk, Path.same_iff.2 hparts.symm⟩
    · rintro ⟨q, hq, hsame⟩
      obtain ⟨k, hk, hparts⟩ := Ledger.contains_iff.1 (h.contains_of_isNode hfiles hq)
      exact Ledger.contains_of_mem_keys hk ((Path.same_iff.1 hsame).symm.trans hparts)
  descriptor p node hnode q hq hsame := by
    obtain ⟨k, e, he, hparts, rfl⟩ := Ledger.get?_snapshot_eq_some_iff.1 hnode
    have hqk : q.parts = k.parts := (Path.same_iff.1 hsame).trans hparts
    rw [ScanPlan.descriptorOf, ScanPlan.walked?_congr hfiles hq (h.isNode he.mem_keys) hqk]
    exact h.described.getD_descriptor h.tasks h.root he
  dependents p node hnode d := by
    obtain ⟨k, e, he, hparts, rfl⟩ := Ledger.get?_snapshot_eq_some_iff.1 hnode
    constructor
    · rintro ⟨o, ho, hsame⟩
      obtain ⟨hmem, t, himports, ht⟩ := h.sound.ledger.edge k e he o ho
      exact ⟨o, t, h.isNode hmem, himports, hsame, Path.same_iff.2 (ht.trans hparts.symm)⟩
    · rintro ⟨o, t, ho, himports, hsame, ht⟩
      obtain ⟨o', hmem, ho'⟩ := Ledger.contains_iff.1 (h.contains_of_isNode hfiles ho)
      have himports' := ScanPlan.imports_congr hfiles ho (h.isNode hmem) ho' himports
      obtain ⟨k', e', he', ht', hdependents⟩ := h.exists_edge hmem himports'
      have hkk : k.parts = k'.parts := hparts.symm.trans ((Path.same_iff.1 ht).symm.trans ht')
      obtain ⟨rfl, rfl⟩ := he.eq_of_parts_eq he' hkk
      obtain ⟨o'', ho'', hparts'⟩ := PathSet.contains_iff.1 hdependents
      refine ⟨o'', ho'', Path.same_iff.2 ?_⟩
      rw [← hparts', ← ho', Path.same_iff.1 hsame]
  sorted p node hnode := by
    obtain ⟨k, e, he, hparts, rfl⟩ := Ledger.get?_snapshot_eq_some_iff.1 hnode
    exact SortedMap.pairwise_keys e.dependents

end Over
end Scan

/-- An outcome is what was taken in a state in which the scan was over. -/
theorem exists_over_of_ends (h : config.Ends files (.ok outcome)) :
    ∃ root entry facts s, config.fault? = none ∧ config.findRoot.run files = .ok root ∧
      (config.findEntry root).run files = .ok entry ∧
        Scan.Over (.ofConfig config root entry) files config.maxConcurrency facts s ∧
          outcome = s.taken (.ofConfig config root entry) := by
  generalize hresult : Except.ok outcome = result at h
  cases h with
  | early => cases hresult
  | @late plan facts s hbegin hs hfinished =>
    obtain ⟨hvalid, root, entry, hroot, hentry, rfl, hfacts⟩ := begin_eq_ok_iff.1 hbegin
    have hentry' : (ScanPlan.ofConfig config root entry).entry = entry := rfl
    rw [Scan.outcome] at hresult
    split at hresult
    · cases hresult
    · next hcancelled =>
      refine ⟨root, entry, facts, s, hvalid, hroot, hentry, ⟨?_, hs, ?_, ?_⟩, ?_⟩
      · exact ScanPlan.walked?_eq_some (by simp [Path.same_iff]) hfacts
      · exact Scan.isFinished_iff.1 hfinished
      · simpa using hcancelled
      · exact Except.ok.inj hresult

/-- So it belongs to the plan for the root and the entry that are found. -/
theorem exists_over_of_found {root entry : Path} (hroot : config.findRoot.run files = .ok root)
    (hentry : (config.findEntry root).run files = .ok entry)
    (h : config.Ends files (.ok outcome)) :
    ∃ facts s, Scan.Over (.ofConfig config root entry) files config.maxConcurrency facts s ∧
      outcome = s.taken (.ofConfig config root entry) := by
  obtain ⟨root', entry', facts, s, -, hroot', hentry', hover, houtcome⟩ := exists_over_of_ends h
  cases hroot.symm.trans hroot'
  cases hentry.symm.trans hentry'
  exact ⟨facts, s, hover, houtcome⟩

/-- Whatever the order in which the tasks take their steps, a scan that ends with an outcome has
found the graph of its root and entry. -/
theorem depicts_of_ends
    (hfiles : ∀ root entry, config.findRoot.run files = .ok root →
      (config.findEntry root).run files = .ok entry →
        FileTree.Lawful files ((ScanPlan.ofConfig config root entry).IsNode files))
    (h : config.Ends files (.ok outcome)) :
    ∃ root entry, config.findRoot.run files = .ok root ∧
      (config.findEntry root).run files = .ok entry ∧
        (ScanPlan.ofConfig config root entry).Depicts files outcome.snapshot := by
  obtain ⟨root, entry, facts, s, -, hroot, hentry, hover, rfl⟩ := exists_over_of_ends h
  exact ⟨root, entry, hroot, hentry, hover.depicts (hfiles root entry hroot hentry)⟩

/-- The graph of a small repository with a cycle. -/
theorem depicts_sample :
    ∃ outcome, Sample.settings.Ends Sample.repository (.ok outcome) ∧
      ∃ root entry, Sample.settings.findRoot.run Sample.repository = .ok root ∧
        (Sample.settings.findEntry root).run Sample.repository = .ok entry ∧
          (ScanPlan.ofConfig Sample.settings root entry).Depicts Sample.repository
            outcome.snapshot := by
  obtain ⟨outcome, h⟩ := Sample.exists_ends
  exact ⟨outcome, h, depicts_of_ends (fun _ _ _ _ ↦ FileTree.lawful_ofTexts _ _) h⟩

end ImpactGraph
