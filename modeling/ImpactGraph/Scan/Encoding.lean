import ImpactGraph.Graph.Encoding
import ImpactGraph.Scan.Issue

/-!
# Issues as JSON
-/

set_option autoImplicit false

namespace ImpactGraph

/-- The kind of a name, which may also be written as the only member of an object. -/
def IssueKind.ofJson? : Json → Option IssueKind
  | .string name => all.find? (·.name == name)
  | .object [(name, .null)] => all.find? (·.name == name)
  | _ => none

namespace Issue

/-- An issue as JSON; a missing target is left out. -/
def toJson (issue : Issue) : Json :=
  let target := match issue.target with
    | some path => [("target", path.toJson)]
    | none => []
  .object
    ([("kind", .string issue.kind.name), ("importer", issue.importer.toJson),
      ("specifier", .string issue.specifier), ("head", .string issue.head)] ++ target ++
      [("message", .string issue.message)])

/-- The target of an issue, which may be missing or null. -/
def targetOf? : Option Json → Option (Option Path)
  | none | some .null => some none
  | some value => (Path.ofJson? value).map some

/-- The issue of a record. -/
def ofJson? (value : Json) : Option Issue := do
  let field ← value.fields? ["kind", "importer", "specifier", "head", "target", "message"]
  let kind ← IssueKind.ofJson? (← field "kind")
  let importer ← Path.ofJson? (← field "importer")
  let specifier ← (← field "specifier").string?
  let head ← (← field "head").string?
  let target ← targetOf? (field "target")
  let message ← (← field "message").string?
  return { kind, importer, specifier, head, target, message }

end Issue
end ImpactGraph
