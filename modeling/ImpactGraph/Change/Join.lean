import ImpactGraph.Change.Record

/-!
# Joining changes with the graph

`join` finds the changed files in the graph and adds what the graph knows of them.  A changed file
that is not in the graph is dropped: most styles, tests and documents are outside it.
-/

set_option autoImplicit false

namespace ImpactGraph

/-- Metadata without the names that a joined record has fields for. -/
def ownlessInfo (info : InfoTable) : InfoTable :=
  ⟨info.entries.filter fun (name, _) ↦ !JoinedRecord.ownNames.contains name,
    List.Pairwise.filter _ info.sorted⟩

/-- A changed file with what the graph knows of it, if it is in the graph. -/
def DiffRecord.join? (s : Snapshot) (r : DiffRecord) : Option JoinedRecord :=
  (s.lookup? (.ofText r.path)).map fun (_, node) ↦
    { path := r.path
      info := ownlessInfo r.info
      descriptor := node.descriptor
      dependents := node.dependents.map s.display }

/-- The changed files that are in the graph, in their order. -/
def join (changes : List DiffRecord) (s : Snapshot) : List JoinedRecord :=
  changes.filterMap (DiffRecord.join? s)

end ImpactGraph
