import ImpactGraph.Change.Join
import ImpactGraph.Json.Printer
import ImpactGraph.Report.Lines

/-!
# Reports of changed files

A report lists the changed files that are in the graph, and on request how many files reach each of
them by imports.
-/

set_option autoImplicit false

namespace ImpactGraph
namespace Report

/-- A changed file with the number of files that reach it, if that is asked for. -/
structure ImpactEntry where
  /-- The changed file. -/
  record : JoinedRecord
  /-- The number of files that reach it by imports. -/
  impacted : Option Nat
  deriving Inhabited

/-- How many files reach the file of a record by imports. -/
def impactedCount (s : Snapshot) (r : JoinedRecord) : Nat :=
  match s.lookup? (.ofText r.path) with
  | some (path, _) => (s.transitiveDependents path).size
  | none => 0

/-- The entry of a record. -/
def ImpactEntry.ofRecord (s : Snapshot) (transitive : Bool) (r : JoinedRecord) : ImpactEntry :=
  ⟨r, if transitive then some (impactedCount s r) else none⟩

/-- The text that is kept under a name. -/
def infoText? (r : JoinedRecord) (name : String) : Option String :=
  (r.info.get? name).bind Json.string?

/-- The lines of an entry. -/
def entryLines (colored : Bool) (e : ImpactEntry) : List String :=
  let r := e.record
  let change := (infoText? r "type").getD "changed"
  let origin := match infoText? r "from" with
    | some path => [labelled colored "from:" path]
    | none => []
  let importers := if r.dependents.isEmpty then "-" else ", ".intercalate r.dependents
  let impact := match e.impacted with
    | some count => [labelled colored "impacts:" s!"{count} file(s)"]
    | none => []
  let name := Style.cyan.paint colored s!"[{change}]" ++ " " ++ Style.bold.paint colored r.path
  name :: origin ++ descriptorLines colored r.descriptor ++
    labelled colored "imported by:" importers :: impact

/-- An entry as JSON: the members of the record, and the number of files that reach the
file. -/
def ImpactEntry.toJson (e : ImpactEntry) : Json :=
  .object (e.record.toMembers ++
    match e.impacted with
    | some count => [("impacted", .nat count)]
    | none => [])

/-- The report of changed files. -/
def diff (s : Snapshot) (records : List JoinedRecord) (transitive : Bool) (format : ReportFormat)
    (colored : Bool) : String :=
  let entries := records.map (ImpactEntry.ofRecord s transitive)
  match format with
  | .text => ofLines (entries.flatMap (entryLines colored))
  | .json => (Json.array (entries.map ImpactEntry.toJson)).pretty ++ "\n"

end Report
end ImpactGraph
