import ImpactGraph.Proofs.Graph.Snapshot
import Mathlib.Data.Set.Card

/-!
# The transitive closure of the dependents

Nothing is assumed of the snapshot here: its graph may have cycles, the dependents that are listed
need not be files of it, and neither need the path that the search starts from.

`IsImportedBy` reads the lists of dependents, and `DependsOn` asks for dependencies in the other
direction; both take all spellings of a path for one.  `transitiveDependents_closure` says that the
search ends and comes to the transitive closure of either of them, and `encard_reached` that it
counts every path of the closure once.
-/

set_option autoImplicit false

namespace ImpactGraph
namespace Snapshot

variable {g : Snapshot} {p q d : Path}

/-! ## The relations that are closed -/

/-- A file of the graph lists another path among its dependents, under some spelling. -/
def IsImportedBy (g : Snapshot) (p d : Path) : Prop :=
  ∃ node, g.get? p = some node ∧ ∃ d' ∈ node.dependents, d'.same d = true

/-- One path is among the dependencies of another one, under some spelling. -/
def DependsOn (g : Snapshot) (d p : Path) : Prop := ∃ p' ∈ g.dependenciesOf d, p'.same p = true

/-- A path is reached again by the imports that lead away from it. -/
def OnCycle (g : Snapshot) (p : Path) : Prop :=
  ∃ d, g.IsImportedBy p d ∧ Relation.ReflTransGen g.IsImportedBy d p

theorem isImportedBy_iff : g.IsImportedBy p d ↔ ∃ d', g.Affects p d' ∧ d.parts = d'.parts := by
  rw [IsImportedBy]
  simp only [Affects, dependentsOf]
  constructor
  · rintro ⟨node, hnode, d', hd', hsame⟩
    rw [hnode]
    exact ⟨d', hd', (Path.same_iff.1 hsame).symm⟩
  · rintro ⟨d', hd', hparts⟩
    cases hnode : g.get? p with
    | none =>
      rw [hnode] at hd'
      exact absurd hd' List.not_mem_nil
    | some node =>
      rw [hnode] at hd'
      exact ⟨node, rfl, d', hd', Path.same_iff.2 hparts.symm⟩

theorem mem_dependenciesOf_iff :
    p ∈ g.dependenciesOf d ↔
      ∃ node, (p, node) ∈ g.nodes.entries ∧ ∃ d' ∈ node.dependents, d'.same d = true := by
  simp [dependenciesOf]

/-- To ask for dependencies is to read the lists of dependents backwards. -/
theorem dependsOn_iff : g.DependsOn d p ↔ g.IsImportedBy p d := by
  constructor
  · rintro ⟨p', hp', hsame⟩
    obtain ⟨node, hnode, hd⟩ := mem_dependenciesOf_iff.1 hp'
    have hparts : p.parts = p'.parts := (Path.same_iff.1 hsame).symm
    exact ⟨node, SortedMap.get?_of_mem hnode (Path.compare_eq_iff.2 hparts), hd⟩
  · rintro ⟨node, hnode, hd⟩
    obtain ⟨p', hp', hcompare⟩ := SortedMap.get?_eq_some_iff.1 hnode
    refine ⟨p', mem_dependenciesOf_iff.2 ⟨node, hp', hd⟩, ?_⟩
    exact Path.same_iff.2 (Path.compare_eq_iff.1 hcompare).symm

theorem transGen_dependsOn_iff :
    Relation.TransGen g.DependsOn q p ↔ Relation.TransGen g.IsImportedBy p q := by
  have hswap : g.DependsOn = Function.swap g.IsImportedBy := by
    funext d p
    exact propext dependsOn_iff
  rw [hswap, Relation.transGen_swap]

/-- In a chain it does not matter which spelling is followed: at the end there is one that is
listed. -/
theorem transGen_isImportedBy_iff :
    Relation.TransGen g.IsImportedBy p q ↔
      ∃ q', Relation.TransGen g.Affects p q' ∧ q.parts = q'.parts := by
  constructor
  · intro h
    induction h with
    | single hd =>
      obtain ⟨d', hd', hparts⟩ := isImportedBy_iff.1 hd
      exact ⟨d', .single hd', hparts⟩
    | tail _ hd ih =>
      obtain ⟨b, hb, hbparts⟩ := ih
      obtain ⟨d', hd', hparts⟩ := isImportedBy_iff.1 hd
      rw [Affects, dependentsOf_congr hbparts] at hd'
      exact ⟨d', hb.tail hd', hparts⟩
  · rintro ⟨q', hq', hparts⟩
    cases hq' with
    | single hd => exact .single (isImportedBy_iff.2 ⟨q', hd, hparts⟩)
    | tail hb hd =>
      have himported : ∀ a b, g.Affects a b → g.IsImportedBy a b := fun a b hab ↦
        isImportedBy_iff.2 ⟨b, hab, rfl⟩
      exact .tail (Relation.TransGen.mono himported _ _ hb) (isImportedBy_iff.2 ⟨q', hd, hparts⟩)

/-- On every snapshot and from every path the search ends, with one result: a path is in it exactly
if a chain of one import or more leads there, through files of the graph; and that is so exactly if
the path that the search starts from is reached by following dependencies.  So a path is in its own
result exactly if it lies on a cycle. -/
theorem transitiveDependents_closure (g : Snapshot) (p : Path) :
    (∀ result, g.Searches ∅ [p] result ↔ result = g.transitiveDependents p) ∧
      (∀ q, (g.transitiveDependents p).contains q = true ↔
        Relation.TransGen g.IsImportedBy p q) ∧
      (∀ q, (g.transitiveDependents p).contains q = true ↔
        Relation.TransGen g.DependsOn q p) ∧
      ((g.transitiveDependents p).contains p = true ↔ g.OnCycle p) := by
  have hends := g.searches_transitiveDependents (p := p)
  have hcontains (q : Path) : (g.transitiveDependents p).contains q = true ↔
      Relation.TransGen g.IsImportedBy p q :=
    contains_transitiveDependents_iff.trans transGen_isImportedBy_iff.symm
  refine ⟨fun result ↦ ⟨fun h ↦ h.unique hends, ?_⟩, hcontains, fun q ↦ ?_, ?_⟩
  · rintro rfl
    exact hends
  · exact (hcontains q).trans transGen_dependsOn_iff.symm
  · exact (hcontains p).trans Relation.TransGen.head'_iff

/-! ## How many there are -/

/-- All that a chain of one import or more leads to, each path by its parts. -/
def reached (g : Snapshot) (p : Path) : Set (List Part) :=
  {parts | ∃ q, Relation.TransGen g.IsImportedBy p q ∧ q.parts = parts}

theorem mem_reached_iff {parts : List Part} :
    parts ∈ g.reached p ↔ parts ∈ (g.transitiveDependents p).toList.map Path.parts := by
  have hcontains (q : Path) : (g.transitiveDependents p).contains q = true ↔
      Relation.TransGen g.IsImportedBy p q :=
    contains_transitiveDependents_iff.trans transGen_isImportedBy_iff.symm
  rw [reached, Set.mem_ofPred_eq, List.mem_map]
  constructor
  · rintro ⟨q, hq, rfl⟩
    obtain ⟨k, hk, hparts⟩ := PathSet.contains_iff.1 ((hcontains q).2 hq)
    exact ⟨k, hk, hparts.symm⟩
  · rintro ⟨k, hk, rfl⟩
    exact ⟨k, (hcontains k).1 (PathSet.contains_iff.2 ⟨k, hk, rfl⟩), rfl⟩

theorem nodup_parts (paths : PathSet) : (paths.toList.map Path.parts).Nodup := by
  refine List.pairwise_map.2 (paths.pairwise_keys.imp fun {a b} hlt hparts ↦ ?_)
  rw [Path.compare_eq_iff.2 hparts] at hlt
  cases hlt

/-- The search lists every path that is reached under one spelling. -/
theorem encard_reached : (g.reached p).encard = (g.transitiveDependents p).size := by
  have hset : g.reached p = ((g.transitiveDependents p).toList.map Path.parts).toFinset := by
    ext parts
    rw [mem_reached_iff, List.coe_toFinset, Set.mem_ofPred_eq]
  rw [hset, Set.encard_coe_eq_coe_finsetCard, List.toFinset_card_of_nodup (nodup_parts _),
    List.length_map, PathSet.toList, SortedMap.keys, List.length_map]
  rfl

end Snapshot
end ImpactGraph
