import ImpactGraph.Change.Fault
import ImpactGraph.Scan.Issue
import ImpactGraph.Settings.Fault

/-!
# Why a command fails

A `CommandFault` is shown in one of two ways: `message` says what it is, and `report` is what a user
reads, with a hint where the message has none.
-/

set_option autoImplicit false

namespace ImpactGraph

/-- Why a command fails. -/
inductive CommandFault
  /-- The settings are missing or wrong. -/
  | settings (fault : SettingsFault)
  /-- The scan has no result. -/
  | scan (fault : ScanFault)
  /-- There is no change list. -/
  | change (fault : ChangeFault)
  /-- The scan has issues, and none are allowed. -/
  | strictIssues (count : Nat)
  /-- An argument does not fit. -/
  | invalidArgument (detail : String)
  /-- There is no such file. -/
  | fileNotFound (path : Path)
  /-- A file cannot be read or written. -/
  | io (error : SystemError)
  /-- Anything else, in words. -/
  | custom (text : String)
  deriving Repr

namespace CommandFault

/-- What a fault is. -/
def message : CommandFault → String
  | settings fault => "Configuration error: " ++ fault.message
  | scan fault => "Scan failed: " ++ fault.message
  | change fault => "Diff error: " ++ fault.message
  | strictIssues count =>
    ImpactGraph.withHint s!"{count} import(s) could not be resolved, loaded or parsed"
      "Run without --strict to see the graph anyway, or add the packages to --external"
  | invalidArgument detail => "Invalid argument: " ++ detail
  | fileNotFound path => "File not found: " ++ path.text
  | io error => "I/O error: " ++ error.message
  | custom text => text

/-- What a user reads. -/
def report (fault : CommandFault) : String :=
  match fault with
  | scan (.entryNotFound path) =>
    ImpactGraph.withHint ("Entry file not found: " ++ path.text) "The entry is relative to --root"
  | scan (.entryParse fault) =>
    ImpactGraph.withHint ("Failed to parse entry file: " ++ fault.message)
      "The entry must be valid JavaScript, TypeScript or Vue"
  | scan .cancelled => "Scan cancelled"
  | settings .noEntry =>
    ImpactGraph.withHint "No entry file specified"
      "Pass ENTRY, or set `entry` in depscope.toml or the \"depscope\" field of package.json"
  | settings (.notFound path) =>
    ImpactGraph.withHint ("Config file not found: " ++ path.text) "--config is relative to --root"
  | _ => fault.message

/-! ## Faults with more to say -/

/-- Names the file that is missing. -/
def withPath (fault : CommandFault) (path : Path) : CommandFault :=
  match fault with
  | io error => if error = .noEntry then fileNotFound path else fault
  | _ => fault

/-- Adds a hint. -/
def withHint (fault : CommandFault) (hint : String) : CommandFault :=
  custom (ImpactGraph.withHint fault.message hint)

/-- Says first what was being done. -/
def withContext (fault : CommandFault) (context : String) : CommandFault :=
  custom (context ++ ": " ++ fault.message)

end CommandFault
end ImpactGraph
