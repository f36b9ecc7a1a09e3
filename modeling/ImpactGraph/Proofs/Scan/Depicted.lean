import ImpactGraph.Proofs.Graph.Dependents
import ImpactGraph.Proofs.Scan.Cancel

/-!
# Reading a graph off its snapshot

A snapshot that shows a graph (`ScanPlan.Depicts`) can be asked for the files of the graph and for
its imports, under any spelling: `Depicts.exists_get?` and `Depicts.isImportedBy_iff`.  This is what
two snapshots are compared by, where they show different graphs.
-/

set_option autoImplicit false

namespace ImpactGraph
namespace ScanPlan

variable {plan : ScanPlan} {files : FileTree} {g : Snapshot} {p q a b : Path}

namespace Depicts

theorem contains (h : plan.Depicts files g) (hq : plan.IsNode files q) (hp : q.parts = p.parts) :
    g.contains p = true := (h.contains_iff p).2 ⟨q, hq, Path.same_iff.2 hp⟩

theorem exists_isNode (h : plan.Depicts files g) (hp : g.contains p = true) :
    ∃ q, plan.IsNode files q ∧ q.parts = p.parts := by
  obtain ⟨q, hq, hsame⟩ := (h.contains_iff p).1 hp
  exact ⟨q, hq, Path.same_iff.1 hsame⟩

/-- A file of the graph has its descriptor in the snapshot. -/
theorem exists_get? (h : plan.Depicts files g) (hq : plan.IsNode files q)
    (hp : q.parts = p.parts) :
    ∃ node, g.get? p = some node ∧ node.descriptor = plan.descriptorOf files q := by
  obtain ⟨node, hnode⟩ := Snapshot.exists_get? (h.contains hq hp)
  exact ⟨node, hnode, h.descriptor p node hnode q hq (Path.same_iff.2 hp)⟩

/-- A file of the graph is listed as a dependent of what it imports, and of nothing else. -/
theorem isImportedBy_iff (h : plan.Depicts files g)
    (hfiles : FileTree.Lawful files (plan.IsNode files)) (ha : plan.IsNode files a) :
    g.IsImportedBy b a ↔ ∃ t, plan.Imports files a t ∧ t.parts = b.parts := by
  constructor
  · rintro ⟨node, hnode, hlisted⟩
    obtain ⟨o, t, ho, himports, hsame, ht⟩ := (h.dependents b node hnode a).1 hlisted
    have himports' : plan.Imports files a t :=
      imports_congr hfiles ho ha (Path.same_iff.1 hsame) himports
    exact ⟨t, himports', Path.same_iff.1 ht⟩
  · rintro ⟨t, himports, ht⟩
    obtain ⟨node, hnode, -⟩ := h.exists_get? (.imported ha himports) ht
    have hlisted : ∃ o t, plan.IsNode files o ∧ plan.Imports files o t ∧ o.same a = true ∧
        t.same b = true := ⟨a, t, ha, himports, Path.same_iff.2 rfl, Path.same_iff.2 ht⟩
    exact ⟨node, hnode, (h.dependents b node hnode a).2 hlisted⟩

end Depicts
end ScanPlan
end ImpactGraph
