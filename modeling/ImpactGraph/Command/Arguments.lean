import ImpactGraph.Report.Style
import ImpactGraph.Settings.Basic

/-!
# Arguments of the command line

There are two commands: `scan` reports the import graph, and `diff` reports the changed files that
are in it.  Both take the options of a scan.  Switches are given or not, and parameters take a
value.
-/

set_option autoImplicit false

namespace ImpactGraph

/-- The options of a scan. -/
structure ScanOptions where
  /-- The file that the scan starts from. -/
  entry : Option Path
  /-- The root of the repository. -/
  root : Path
  /-- A settings file. -/
  config : Option Path
  /-- Names of external packages. -/
  external : List String
  /-- Aliases with their directories, as they are given. -/
  aliases : List (String × Path)
  /-- The text that picks the descriptor comment. -/
  marker : Option String
  /-- The most files at a time. -/
  maxConcurrency : Option Nat
  /-- Whether calls of `import` are left alone. -/
  noDynamic : Bool
  /-- Whether exports from other modules are followed. -/
  followReExports : Bool
  /-- How the report is written. -/
  format : ReportFormat
  /-- The file that the report is written to. -/
  output : Option Path
  /-- Whether issues make the command fail. -/
  strict : Bool
  deriving Inhabited

namespace ScanOptions

/-- The options when none is given. -/
def default : ScanOptions :=
  ⟨none, .ofText ".", none, [], [], none, none, false, false, .text, none, false⟩

/-- What the options set over other settings. -/
def overrides (options : ScanOptions) : Overrides where
  entry := options.entry
  external := options.external
  aliases := SortedMap.ofList options.aliases
  marker := options.marker
  maxConcurrency := options.maxConcurrency
  followDynamic := if options.noDynamic then some false else none
  followReExports := if options.followReExports then some true else none

end ScanOptions

/-- Where changed files are taken from. -/
structure DiffOptions where
  /-- The commit from which changes are taken. -/
  base : Option String
  /-- The commit with the changes. -/
  head : Option String
  /-- A file with a change list. -/
  diffFile : Option Path
  /-- Whether the files that a change can reach are counted. -/
  transitive : Bool
  deriving Inhabited

/-- The options when none is given. -/
def DiffOptions.default : DiffOptions := ⟨none, none, none, false⟩

/-- A command. -/
inductive Command
  /-- Reports the import graph. -/
  | scan (options : ScanOptions)
  /-- Reports changed files. -/
  | diff (options : ScanOptions) (changes : DiffOptions)
  deriving Inhabited

/-- A command line. -/
structure Arguments where
  /-- Whether more is said on the way. -/
  verbose : Bool
  /-- Whether nothing but faults is said on the way. -/
  quiet : Bool
  /-- Whether nothing is shown in colours. -/
  noColor : Bool
  /-- What to do. -/
  command : Command
  deriving Inhabited

/-! ## Names -/

/-- An argument that is given or not. -/
inductive Switch
  | verbose | quiet | noColor | help | version
  | noDynamic | followReExports | strict | transitive
  deriving DecidableEq, Repr, Inhabited

/-- An argument that takes a value; the entry takes it without being named. -/
inductive Parameter
  | entry | root | config | external | aliases | marker | maxConcurrency | format | output
  | base | head | diffFile
  deriving DecidableEq, Repr, Inhabited

/-- What an argument is named for. -/
inductive Named
  /-- A switch. -/
  | switch (switch : Switch)
  /-- A parameter. -/
  | parameter (parameter : Parameter)
  deriving DecidableEq, Repr, Inhabited

/-- Where arguments stand: before the command, or after it. -/
inductive Level
  | root | scan | diff
  deriving DecidableEq, Repr, Inhabited

namespace Level

/-- The long names of the options of a scan. -/
def scanNames : List (String × Named) :=
  [("verbose", .switch .verbose), ("quiet", .switch .quiet), ("no-color", .switch .noColor),
    ("help", .switch .help), ("no-dynamic", .switch .noDynamic),
    ("follow-reexports", .switch .followReExports), ("strict", .switch .strict),
    ("root", .parameter .root), ("config", .parameter .config),
    ("external", .parameter .external), ("alias", .parameter .aliases),
    ("marker", .parameter .marker), ("max-concurrency", .parameter .maxConcurrency),
    ("format", .parameter .format), ("output", .parameter .output)]

/-- The long names of a level. -/
def longNames : Level → List (String × Named)
  | root =>
    [("verbose", .switch .verbose), ("quiet", .switch .quiet), ("no-color", .switch .noColor),
      ("help", .switch .help), ("version", .switch .version)]
  | scan => scanNames
  | diff =>
    scanNames ++
      [("transitive", .switch .transitive), ("base", .parameter .base),
        ("head", .parameter .head), ("diff-file", .parameter .diffFile)]

/-- The short names of a level. -/
def shortNames : Level → List (Char × Named)
  | root =>
    [('v', .switch .verbose), ('q', .switch .quiet), ('h', .switch .help), ('V', .switch .version)]
  | scan | diff =>
    [('v', .switch .verbose), ('q', .switch .quiet), ('h', .switch .help),
      ('r', .parameter .root), ('c', .parameter .config), ('f', .parameter .format),
      ('o', .parameter .output)]

/-- The level after a command of this name. -/
def ofName? (name : String) : Option Level :=
  if name = "scan" then some scan
  else if name = "diff" then some diff
  else none

end Level
end ImpactGraph
