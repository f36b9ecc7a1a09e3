import ImpactGraph.Scan.System

/-!
# Running a scan

`ScanConfig.scan` finds the root and the entry, loads the entry, and lets the tasks take their steps
until the scan is over.  The tasks take turns in the order in which they were started; before every
turn the surroundings are asked whether the scan has been cancelled.  `ScanConfig.Ends` lists the
results that a scan can have when its steps are taken in any order.
-/

set_option autoImplicit false

namespace ImpactGraph

open Source

/-- A question that a scan asks of its surroundings. -/
inductive ScanQuestion
  /-- A question about files. -/
  | files (question : FileQuestion)
  /-- Whether the scan has been cancelled. -/
  | cancelled
  deriving DecidableEq, Repr

/-- The type of the answer to a question. -/
def ScanQuestion.Answer : ScanQuestion → Type
  | .files question => question.Answer
  | .cancelled => Bool

/-- A computation that asks the questions of a scan. -/
abbrev Scanning (α : Type) := Dialogue ScanQuestion ScanQuestion.Answer α

namespace Scanning

/-- Asks whether the scan has been cancelled. -/
def cancelled : Scanning Bool := .question ScanQuestion.cancelled

/-- Asks the questions of a computation over files. -/
def files {α : Type} : Files α → Scanning α
  | .done a => .done a
  | .ask question next => .ask (ScanQuestion.files question) fun answer ↦ files (next answer)

end Scanning

/-! ## The start of a scan -/

/-- Asks for the canonical form of the root. -/
def ScanConfig.findRoot (config : ScanConfig) : Files (Except ScanFault Path) := do
  let absolute ←
    if config.root.isAbsolute then pure config.root
    else
      match ← Files.workingDirectory with
      | .ok directory => pure (directory.join config.root)
      | .error fault => return .error (.files fault)
  match ← Files.canonical absolute with
  | .ok root => return .ok root
  | .error fault => return .error (.rootNotFound absolute fault)

/-- Asks for the canonical form of the entry. -/
def ScanConfig.findEntry (config : ScanConfig) (root : Path) : Files (Except ScanFault Path) := do
  let path := (root.join config.entry).clean
  match ← Files.metadata path with
  | .error _ => return .error (.entryNotFound path)
  | .ok _ =>
    match ← Files.canonical path with
    | .ok entry => return .ok entry
    | .error _ => return .ok path

/-- Finds the root and the entry, and loads the entry. -/
def ScanConfig.begin (config : ScanConfig) :
    Files (Except ScanFault (ScanPlan × ModuleFacts)) := do
  if let some fault := config.fault? then return .error (.invalidConfig fault.message)
  match ← config.findRoot with
  | .error fault => return .error fault
  | .ok root =>
    match ← config.findEntry root with
    | .error fault => return .error fault
    | .ok entry =>
      let plan := ScanPlan.ofConfig config root entry
      match ← plan.facts entry with
      | .ok facts => return .ok (plan, facts)
      | .error (.load fault) => return .error (.entryLoad fault)
      | .error (.parse fault) => return .error (.entryParse fault)

/-! ## The turns -/

/-- Takes a turn: the root goes on until it waits, then the first of the tasks does. -/
def Scan.turn (plan : ScanPlan) (s : Scan) : Files Scan :=
  match s.root, s.tasks with
  | .waiting, _ :: _ => s.step plan 0
  | _, _ => return s.rootStep plan

/-- Whether the scan is over. -/
def Scan.isFinished (s : Scan) : Bool :=
  match s.root with
  | .finished => true
  | _ => false

/-- Takes turns until the scan is over, or a number of them. -/
def Scan.run (plan : ScanPlan) : Nat → Scan → Scanning (Option Scan)
  | 0, _ => return none
  | turns + 1, s => do
    let s := if ← Scanning.cancelled then s.cancel else s
    if s.isFinished then return some s
    (← Scanning.files (s.turn plan)).run plan turns

/-- More turns than any scan takes. -/
def maxTurns : Nat := 0x4000000000000000

/-- Scans from the entry of a configuration. -/
def ScanConfig.scan (config : ScanConfig) : Scanning (Except ScanFault ScanOutcome) := do
  match ← Scanning.files config.begin with
  | .error fault => return .error fault
  | .ok (plan, facts) =>
    match ← (Scan.start config.maxConcurrency facts).run plan maxTurns with
    | none => return .error .unfinished
    | some s => return s.outcome plan

/-! ## The results that a scan can have -/

/-- The results that a scan can have over a file tree that does not change, in whatever order its
steps are taken and wherever it is cancelled. -/
inductive ScanConfig.Ends (config : ScanConfig) (files : FileTree) :
    Except ScanFault ScanOutcome → Prop
  | early {fault : ScanFault} : config.begin.run files = .error fault →
      Ends config files (.error fault)
  | late {plan : ScanPlan} {facts : ModuleFacts} {s : Scan} :
      config.begin.run files = .ok (plan, facts) →
      Scan.Reachable plan files config.maxConcurrency facts s → s.isFinished = true →
      Ends config files (s.outcome plan)

end ImpactGraph
