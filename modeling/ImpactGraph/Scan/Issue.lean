import ImpactGraph.Resolve.Resolver
import ImpactGraph.Source.Imports
import ImpactGraph.Source.Load

/-!
# Issues and faults of a scan

An `Issue` is a problem with one import, after which the scan goes on without that branch of the
graph.  A `ScanFault` ends the whole scan.
-/

set_option autoImplicit false

namespace ImpactGraph

open Source

/-- Why a module cannot be loaded and parsed. -/
inductive ModuleFault
  /-- Its text cannot be had. -/
  | load (fault : LoadFault)
  /-- Its text is no module. -/
  | parse (fault : ParseFault)
  deriving Repr

/-- The text of a fault. -/
def ModuleFault.message : ModuleFault → String
  | .load fault => fault.message
  | .parse fault => fault.message

/-- What went wrong with an import. -/
inductive IssueKind
  /-- The specifier resolves to no file. -/
  | resolution
  /-- The file cannot be loaded. -/
  | load
  /-- The file cannot be parsed. -/
  | parse
  deriving DecidableEq, Repr, Inhabited

namespace IssueKind

/-- All kinds, in order. -/
def all : List IssueKind := [.resolution, .load, .parse]

/-- Where a kind stands in the order of kinds. -/
def rank : IssueKind → Nat
  | .resolution => 0
  | .load => 1
  | .parse => 2

/-- The name of a kind. -/
def name : IssueKind → String
  | .resolution => "resolution"
  | .load => "load"
  | .parse => "parse"

end IssueKind

/-- A problem with one import. -/
structure Issue where
  /-- What went wrong. -/
  kind : IssueKind
  /-- The file with the import. -/
  importer : Path
  /-- The specifier as written. -/
  specifier : String
  /-- The first segment of the specifier. -/
  head : String
  /-- The file that the specifier resolves to, if it does. -/
  target : Option Path
  /-- What went wrong, in full. -/
  message : String
  deriving DecidableEq, Repr, Inhabited

namespace Issue

/-- The issue of a specifier that resolves to no file. -/
def ofResolution (fault : ResolutionFault) : Issue where
  kind := .resolution
  importer := fault.importer
  specifier := fault.specifier
  head := fault.head
  target := none
  message := fault.message

/-- The issue of a module that cannot be loaded or parsed. -/
def ofModule (importer : Path) (specifier : String) (target : Path) (fault : ModuleFault) :
    Issue where
  kind := match fault with
    | .load _ => .load
    | .parse _ => .parse
  importer := importer
  specifier := specifier
  head := headSegment specifier
  target := some target
  message := fault.message

/-- The text of an issue. -/
def text (issue : Issue) : String :=
  s!"{issue.kind.name} error for '{issue.specifier}' imported by '{issue.importer.text}': " ++
    issue.message

/-- The order of issues: by importer, specifier and kind. -/
def compare : Issue → Issue → Ordering :=
  compareLex (compareOn (·.importer))
    (compareLex (compareOn (·.specifier)) (compareOn (·.kind.rank)))

/-- Issues in order; those that are equal in it stay as they stand. -/
def sort (issues : List Issue) : List Issue := issues.mergeSort fun a b ↦ (compare a b).isLE

end Issue

/-- Why a scan ends without a graph. -/
inductive ScanFault
  /-- The configuration is not valid. -/
  | invalidConfig (detail : String)
  /-- The root cannot be reached. -/
  | rootNotFound (path : Path) (fault : FileFault)
  /-- There is no entry file. -/
  | entryNotFound (path : Path)
  /-- The entry cannot be loaded. -/
  | entryLoad (fault : LoadFault)
  /-- The entry cannot be parsed. -/
  | entryParse (fault : ParseFault)
  /-- The scan was cancelled. -/
  | cancelled
  /-- The surroundings failed. -/
  | files (fault : FileFault)
  /-- The scan did not end within the steps it was given. -/
  | unfinished
  deriving Repr

/-- The text of a fault. -/
def ScanFault.message : ScanFault → String
  | .invalidConfig detail => "Invalid scan configuration: " ++ detail
  | .rootNotFound path fault =>
    s!"Repository root '{path.text}' is not accessible: {fault.message}"
  | .entryNotFound path => "Entry file not found: " ++ path.text
  | .entryLoad fault => "Failed to load entry file: " ++ fault.message
  | .entryParse fault => "Failed to parse entry file: " ++ fault.message
  | .cancelled => "Scan cancelled"
  | .files fault => fault.message
  | .unfinished => "Scan did not finish"

end ImpactGraph
