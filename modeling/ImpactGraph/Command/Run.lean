import ImpactGraph.Change.ListFile
import ImpactGraph.Command.Arguments
import ImpactGraph.Command.Host
import ImpactGraph.Report.Diff
import ImpactGraph.Report.Scan
import ImpactGraph.Settings.Check
import ImpactGraph.Settings.Load

/-!
# Running a command

`Command.run` loads and checks the settings, scans, and prints a report or writes it to a file.  A
change list is read before the scan, so that a bad one is reported at once.  Issues make a strict
command fail after its report.
-/

set_option autoImplicit false

namespace ImpactGraph

/-- What a command is run with. -/
structure CommandContext where
  /-- The names and texts of the variables. -/
  environment : List (String × String)
  /-- Whether a printed report is shown in colours. -/
  colored : Bool
  deriving Inhabited

/-- A computation of a command: it asks its host, and may fail. -/
abbrev Running (α : Type) := ExceptT CommandFault Hosted α

namespace Running

/-- Goes on with a result, or fails with its fault. -/
def ofExcept {ε α : Type} (toFault : ε → CommandFault) (d : Hosted (Except ε α)) : Running α :=
  ExceptT.mk do return (← d).mapError toFault

end Running

namespace ScanOptions

/-- The settings file and the variables that the options say. -/
def source (options : ScanOptions) (environment : List (String × String)) : SettingsSource :=
  ⟨options.root, options.config, environment⟩

/-- Loads and checks what a scan is told. -/
def loadConfig (options : ScanOptions) (environment : List (String × String)) :
    Disk (Except SettingsFault ScanConfig) := do
  match ← (options.source environment).load options.overrides with
  | .error fault => return .error fault
  | .ok settings =>
    match ← settings.check options.root with
    | .error fault => return .error fault
    | .ok () =>
      match settings.toScanConfig? options.root with
      | some config => return .ok config
      | none => return .error .noEntry

/-- Loads and checks what a scan is told. -/
def scanConfig (options : ScanOptions) (context : CommandContext) : Running ScanConfig :=
  .ofExcept .settings (Hosted.disk (options.loadConfig context.environment))

/-- Whether the report is shown in colours; in a file it never is. -/
def colored (options : ScanOptions) (context : CommandContext) : Bool :=
  options.output.isNone && context.colored

/-- Writes a report to a file, with the directories that are missing. -/
def writeFile (path : Path) (report : String) : Running Unit := do
  match path.parent? with
  | some parent =>
    if !parent.text.isEmpty then
      .ofExcept (fun error ↦ (CommandFault.io error).withPath parent)
        (Hosted.createDirectories parent)
  | none => pure ()
  .ofExcept (fun error ↦ (CommandFault.io error).withContext ("Failed to write " ++ path.text))
    (Hosted.write path report)
  Hosted.note ("Wrote " ++ path.text)

/-- Writes a report to the file that the options name, or else prints it. -/
def deliver (options : ScanOptions) (report : String) : Running Unit :=
  match options.output with
  | some path => writeFile path report
  | none => Hosted.print report

/-- Fails when there are issues and none are allowed. -/
def checkIssues (options : ScanOptions) (issues : List Issue) : Running Unit :=
  if options.strict && !issues.isEmpty then throw (.strictIssues issues.length) else pure ()

/-- Scans. -/
def outcome (config : ScanConfig) : Running ScanOutcome :=
  .ofExcept .scan (Hosted.scanning config.scan)

/-- Reports the import graph. -/
def runScan (options : ScanOptions) (context : CommandContext) : Running Unit := do
  let config ← options.scanConfig context
  let outcome ← outcome config
  let report := Report.scan outcome.snapshot outcome.issues options.format (options.colored context)
  options.deliver report
  Hosted.note (Report.summary outcome.snapshot outcome.issues)
  options.checkIssues outcome.issues

end ScanOptions

namespace DiffOptions

/-- The head of a range when none is given. -/
def defaultHead : String := "HEAD"

/-- The fault of a root that belongs to no repository. -/
def noRepository (root : Path) : CommandFault :=
  .invalidArgument (withHint (root.text ++ " is not inside a git repository")
    "Use --diff-file to supply the change list")

/-- The changed files. -/
def changedFiles (changes : DiffOptions) (root : Path) : Running (List DiffRecord) := do
  match changes.diffFile, changes.base with
  | some path, _ => .ofExcept .change (Hosted.disk (DiffRecord.listedIn path))
  | none, none => throw (.invalidArgument "either --base or --diff-file is required")
  | none, some base =>
    let inRepository : Bool ← ExceptT.lift (Hosted.git (Git.isRepository root))
    if !inRepository then throw (noRepository root)
    let range : GitRange := ⟨base, changes.head.getD defaultHead⟩
    .ofExcept .change (Hosted.git (range.changes root))

/-- What is said after a report of changed files. -/
def summary (records : List DiffRecord) (joined : List JoinedRecord) (outcome : ScanOutcome) :
    String :=
  let scanned := Report.summary outcome.snapshot outcome.issues
  s!"{joined.length} of {records.length} changed file(s) are in the graph; {scanned}"

/-- Reports the changed files that are in the import graph. -/
def runDiff (changes : DiffOptions) (options : ScanOptions) (context : CommandContext) :
    Running Unit := do
  let config ← options.scanConfig context
  let records ← changes.changedFiles options.root
  let outcome ← ScanOptions.outcome config
  let joined := join records outcome.snapshot
  let report := Report.diff outcome.snapshot joined changes.transitive options.format
    (options.colored context)
  options.deliver report
  Hosted.note (summary records joined outcome)
  options.checkIssues outcome.issues

end DiffOptions

/-- Runs a command. -/
def Command.run (command : Command) (context : CommandContext) :
    Hosted (Except CommandFault Unit) :=
  match command with
  | scan options => (options.runScan context).run
  | diff options changes => (changes.runDiff options context).run

end ImpactGraph
