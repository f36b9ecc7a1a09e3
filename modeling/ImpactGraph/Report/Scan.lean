import ImpactGraph.Json.Printer
import ImpactGraph.Path.Units
import ImpactGraph.Report.Lines
import ImpactGraph.Scan.Encoding

/-!
# Reports of a scan

As text, a report lists the files of the graph in path order.  As JSON it is an object with the
files in the order of their names, and the issues.

The paths of a program that runs are texts.  What is read back from a report as JSON is said for
paths of bytes too, so it takes the `Path.Units` that its paths are made of.
-/

set_option autoImplicit false

namespace ImpactGraph
namespace Report

/-- A path in a report. -/
def shown (u : Path.Units) (s : Snapshot) (path : Path) : String := u.shown (s.display path)

/-- The files that import a file, as they are shown. -/
def shownDependents (u : Path.Units) (s : Snapshot) (node : GraphNode) : List String :=
  node.dependents.map (shown u s)

/-- The first line of a file. -/
def fileLine (s : Snapshot) (colored : Bool) (path : Path) : String :=
  let name := Style.bold.paint colored (s.display path)
  if path.same s.entry then name ++ " " ++ Style.dim.paint colored "(entry)" else name

/-- The lines of a file. -/
def fileLines (s : Snapshot) (colored : Bool) (path : Path) (node : GraphNode) : List String :=
  let importers :=
    if node.dependents.isEmpty then []
    else [labelled colored "imported by:" (", ".intercalate (shownDependents .characters s node))]
  fileLine s colored path :: descriptorLines colored node.descriptor ++ importers

/-- The text of a graph. -/
def scanText (s : Snapshot) (colored : Bool) : String :=
  ofLines (s.nodes.entries.flatMap fun (path, node) ↦ fileLines s colored path node)

/-- A file as JSON. -/
def nodeJson (u : Path.Units) (s : Snapshot) (node : GraphNode) : Json :=
  .object [("descriptor", .ofTextMap node.descriptor),
    ("dependents", .strings (shownDependents u s node))]

/-- A graph and its issues as JSON. -/
def scanJson (u : Path.Units) (s : Snapshot) (issues : List Issue) : Json :=
  .object [("root", .string (u.shown s.root.text)), ("entry", .string (shown u s s.entry)),
    ("nodes", Json.ofMembers (s.nodes.entries.map fun (path, node) ↦
      (shown u s path, nodeJson u s node))),
    ("issues", .array (issues.map Issue.toJson))]

/-- The report of a scan. -/
def scan (s : Snapshot) (issues : List Issue) (format : ReportFormat) (colored : Bool) : String :=
  match format with
  | .text => scanText s colored
  | .json => (scanJson .characters s issues).pretty ++ "\n"

/-! ## Summary -/

/-- How many issues there are of a kind, if there are any. -/
def countText? (issues : List Issue) (kind : IssueKind) : Option String :=
  let count := issues.countP fun issue ↦ issue.kind = kind
  if count = 0 then none else some s!"{count} {kind.name}"

/-- A scan in one line. -/
def summary (s : Snapshot) (issues : List Issue) : String :=
  let files := s!"{s.size} file(s) reachable from {s.display s.entry}"
  if issues.isEmpty then files
  else
    let counts := ", ".intercalate (IssueKind.all.filterMap (countText? issues))
    s!"{files}, {issues.length} issue(s) ({counts})"

end Report
end ImpactGraph
