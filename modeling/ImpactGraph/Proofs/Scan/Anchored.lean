import ImpactGraph.Proofs.Graph.Snapshot
import ImpactGraph.Proofs.Scan.Outcome

/-!
# Every way leads back to the entry

A snapshot is `Anchored` if its entry is one of its files, all dependents are files of it, and the
entry is among the transitive dependents of all other files.  Every outcome of a scan is, over any
file tree: even one that tells spellings of a path apart.

The way back to the entry was kept with the claims (`Traced`): a file is claimed for an importer
that was claimed before it, so cycles do no harm.  In the end the importers of all these claims have
been noted.
-/

set_option autoImplicit false

namespace ImpactGraph

/-- The graph hangs together, and hangs on its entry. -/
structure Snapshot.Anchored (g : Snapshot) : Prop where
  entry : g.contains g.entry = true
  closed : ∀ p node, g.get? p = some node → ∀ d ∈ node.dependents, d ∈ g.nodes.keys
  imported : ∀ p node, g.get? p = some node → p.same g.entry = false → node.dependents ≠ []
  rooted : ∀ p, g.contains p = true → p.same g.entry = false →
    (g.transitiveDependents p).contains g.entry = true

variable {plan : ScanPlan} {files : FileTree} {config : ScanConfig} {outcome : ScanOutcome}

namespace Scan.Over

variable {s : Scan} {k p t owner : Path} {maxConcurrency : Nat} {facts : Source.ModuleFacts}

/-- What is imported lists its importer, under some spelling, in the snapshot. -/
theorem exists_affects (h : Over plan files maxConcurrency facts s) (howner : owner ∈ s.ledger.keys)
    (himports : plan.Imports files owner t) (hp : p.parts = t.parts) :
    ∃ o, (s.taken plan).snapshot.Affects p o ∧ owner.parts = o.parts := by
  obtain ⟨k, e, he, ht, hdependents⟩ := h.exists_edge howner himports
  obtain ⟨o, ho, hparts⟩ := PathSet.contains_iff.1 hdependents
  refine ⟨o, ?_, hparts⟩
  have hnode : (s.taken plan).snapshot.get? p = some (Ledger.nodeOf e) :=
    Ledger.get?_snapshot_eq_some_iff.2 ⟨k, e, he, hp.trans ht, rfl⟩
  rw [Snapshot.Affects, Snapshot.dependentsOf, hnode]
  exact ho

/-- Whatever was claimed leads back to the entry. -/
theorem exists_transGen_of_traced (h : Over plan files maxConcurrency facts s)
    (hk : Traced plan files s.ledger.keys k) :
    k.parts = plan.entry.parts ∨
      ∃ d, Relation.TransGen (s.taken plan).snapshot.Affects k d ∧ plan.entry.parts = d.parts := by
  induction hk with
  | entry => exact .inl rfl
  | imported howner _ himports ih =>
    obtain ⟨o, ho, hparts⟩ := h.exists_affects howner himports rfl
    refine .inr ?_
    rcases ih with hentry | ⟨d, hd, hentry⟩
    · exact ⟨o, .single ho, hentry.symm.trans hparts⟩
    · exact ⟨d, .head ho (Snapshot.transGen_affects_congr hparts hd), hentry⟩

theorem anchored (h : Over plan files maxConcurrency facts s) :
    (s.taken plan).snapshot.Anchored where
  entry := (Ledger.contains_snapshot _ _ _).trans
    (Ledger.contains_of_mem_keys h.entry_mem rfl)
  closed p node hnode d hd := by
    obtain ⟨k, e, he, -, rfl⟩ := Ledger.get?_snapshot_eq_some_iff.1 hnode
    rw [taken, Ledger.keys_snapshot]
    exact (h.sound.ledger.edge k e he d hd).1
  imported p node hnode hne := by
    obtain ⟨k, e, he, hp, rfl⟩ := Ledger.get?_snapshot_eq_some_iff.1 hnode
    rw [Path.same, decide_eq_false_iff_not] at hne
    cases h.sound.ledger.traced k he.mem_keys with
    | entry => exact absurd hp hne
    | imported howner _ himports =>
      obtain ⟨o, ho, -⟩ := h.exists_affects howner himports hp
      rw [Snapshot.Affects, Snapshot.dependentsOf, hnode] at ho
      exact List.ne_nil_of_mem ho
  rooted p hp hne := by
    rw [taken, Ledger.contains_snapshot] at hp
    obtain ⟨k, hk, hparts⟩ := Ledger.contains_iff.1 hp
    rw [Path.same, decide_eq_false_iff_not] at hne
    refine Snapshot.contains_transitiveDependents_iff.2 ?_
    rcases h.exists_transGen_of_traced (h.sound.ledger.traced k hk) with hentry | ⟨d, hd, hentry⟩
    · exact absurd (hparts.trans hentry) hne
    · exact ⟨d, Snapshot.transGen_affects_congr hparts.symm hd, hentry⟩

end Scan.Over

/-- Whatever the files are and in whatever order the tasks take their steps, the graph that a scan
ends with hangs on the entry that was found. -/
theorem anchored_of_ends (h : config.Ends files (.ok outcome)) :
    (∃ root, config.findRoot.run files = .ok root ∧
      (config.findEntry root).run files = .ok outcome.snapshot.entry) ∧
        outcome.snapshot.Anchored := by
  obtain ⟨root, entry, facts, s, -, hroot, hentry, hover, rfl⟩ := exists_over_of_ends h
  exact ⟨⟨root, hroot, hentry⟩, hover.anchored⟩

/-- The graph of a small repository hangs on its entry, which is part of a cycle. -/
theorem anchored_sample :
    ∃ outcome, Sample.settings.Ends Sample.repository (.ok outcome) ∧
      (∃ root, Sample.settings.findRoot.run Sample.repository = .ok root ∧
        (Sample.settings.findEntry root).run Sample.repository = .ok outcome.snapshot.entry) ∧
          outcome.snapshot.Anchored := by
  obtain ⟨outcome, h⟩ := Sample.exists_ends
  exact ⟨outcome, h, anchored_of_ends h⟩

end ImpactGraph
