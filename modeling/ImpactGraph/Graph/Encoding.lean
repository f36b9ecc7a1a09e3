import ImpactGraph.Graph.Snapshot
import ImpactGraph.Json.Decode

/-!
# Snapshots as JSON
-/

set_option autoImplicit false

namespace ImpactGraph

namespace Path

/-- A path as JSON. -/
def toJson (path : Path) : Json := .string path.text

/-- The path of a string. -/
def ofJson? (value : Json) : Option Path := value.string?.map ofText

end Path

namespace GraphNode

/-- A node as JSON. -/
def toJson (node : GraphNode) : Json :=
  .object
    [("descriptor", .ofTextMap node.descriptor),
      ("dependents", .array (node.dependents.map Path.toJson))]

/-- The node of a record. -/
def ofJson? (value : Json) : Option GraphNode := do
  let field ← value.fields? ["descriptor", "dependents"]
  let descriptor ← (← field "descriptor").textMap?
  let dependents ← (← (← field "dependents").items?).mapM Path.ofJson?
  return ⟨descriptor, dependents⟩

end GraphNode

namespace Snapshot

/-- A snapshot as JSON. -/
def toJson (s : Snapshot) : Json :=
  .object
    [("root", s.root.toJson), ("entry", s.entry.toJson),
      ("nodes", .object (s.nodes.entries.map fun (path, node) ↦ (path.text, node.toJson)))]

/-- The snapshot of a record; of nodes with equal paths the last one counts. -/
def ofJson? (value : Json) : Option Snapshot := do
  let field ← value.fields? ["root", "entry", "nodes"]
  let root ← Path.ofJson? (← field "root")
  let entry ← Path.ofJson? (← field "entry")
  let nodes ← (← (← field "nodes").members?).mapM fun (path, node) ↦ do
    return (Path.ofText path, ← GraphNode.ofJson? node)
  return ⟨root, entry, SortedMap.ofList nodes⟩

end Snapshot
end ImpactGraph
