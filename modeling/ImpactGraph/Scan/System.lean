import ImpactGraph.Graph.Ledger
import ImpactGraph.Scan.Config
import ImpactGraph.Scan.Issue

/-!
# The tasks of a scan

Every import that is followed is a `Task` of its own.  A task resolves its specifier and claims the
file in the ledger; only the task whose claim succeeds loads, parses and walks the file, but every
task notes its importer.  The root of the scan walks the entry, gives up its guard, and waits until
no guard is alive.

`Scan` is the state that the tasks share, and `Scan.step` lets one task take one step, in which it
uses the shared state at most once: tasks may take their steps in any order, and `Scan.Next` lists
all the steps that can be taken.  `Scan.Disturbed` adds the tasks that break off on the way.

Of the guards only the number is here, and the waiting of the root is one step.  The guards and the
notices that end the waiting are those of `Watch`; by `Scan.run_iff_exists_watched` a scan comes to
the same states with them.
-/

set_option autoImplicit false

namespace ImpactGraph

open Source

/-! ## What stays the same during a scan -/

/-- What the tasks of a scan know from the start. -/
structure ScanPlan where
  /-- The root of the repository. -/
  root : Path
  /-- The file the scan starts from. -/
  entry : Path
  /-- What specifiers are resolved with. -/
  resolver : Resolver
  /-- The extensions of files that are parsed and walked. -/
  scriptExtensions : List String
  /-- The text that picks the descriptor comment. -/
  marker : String
  /-- Whether calls of `import` are followed. -/
  followDynamic : Bool
  /-- Whether exports from other modules are followed. -/
  followReExports : Bool
  deriving Inhabited

namespace ScanPlan

/-- The plan of a scan from a root and an entry. -/
def ofConfig (config : ScanConfig) (root entry : Path) : ScanPlan where
  root := root
  entry := entry
  resolver := config.resolver root
  scriptExtensions := config.scriptExtensions
  marker := config.marker
  followDynamic := config.followDynamic
  followReExports := config.followReExports

/-- Whether a file is parsed and walked. -/
def isScript (plan : ScanPlan) (path : Path) : Bool :=
  path.extension?.any (plan.scriptExtensions.contains ·)

/-- Whether imports of a kind are followed. -/
def follows (plan : ScanPlan) : ImportKind → Bool
  | .static => true
  | .dynamic => plan.followDynamic
  | .reExport => plan.followReExports

/-- The specifiers of a module that are followed, each once, in the order in which they first
appear. -/
def followed (plan : ScanPlan) (sites : List ImportSite) : List String :=
  ((sites.filter fun site ↦ plan.follows site.kind).map (·.specifier)).eraseDups

/-- Asks for the facts of the module in a file. -/
def facts (plan : ScanPlan) (path : Path) : Files (Except ModuleFault ModuleFacts) := do
  match ← load path with
  | .error fault => return .error (.load fault)
  | .ok loaded =>
    match ModuleFacts.ofText path loaded.dialect plan.marker loaded.text with
    | .error fault => return .error (.parse fault)
    | .ok facts => return .ok facts

end ScanPlan

/-! ## Tasks -/

/-- Where a task stands. -/
inductive Phase
  /-- About to start, unless the scan is cancelled. -/
  | entering
  /-- About to resolve the specifier. -/
  | resolving
  /-- About to claim the file. -/
  | claiming (target : Path)
  /-- Has claimed a leaf of the graph, which has an empty descriptor. -/
  | marking (target : Path)
  /-- Has claimed a script, and waits for its turn to load it. -/
  | queueing (target : Path)
  /-- About to load and parse the file. -/
  | loading (target : Path)
  /-- About to set the descriptor of the file. -/
  | describing (target : Path) (facts : ModuleFacts)
  /-- About to walk the imports of the file, unless the scan is cancelled. -/
  | checking (target : Path) (facts : ModuleFacts)
  /-- About to start tasks for these imports of the file. -/
  | spawning (target : Path) (specifiers : List String)
  /-- About to report an issue, and to go on with the file if there is one. -/
  | reporting (issue : Issue) (target : Option Path)
  /-- About to note the importer of the file. -/
  | linking (target : Path)
  /-- About to drop the guard. -/
  | leaving
  deriving Inhabited

/-- The number of permits that a task holds. -/
def Phase.permits : Phase → Nat
  | .loading _ => 1
  | _ => 0

/-- A task: one import that is followed.  It holds a guard until it has left. -/
structure Task where
  /-- The file with the import. -/
  owner : Path
  /-- The specifier as written. -/
  specifier : String
  /-- Where the task stands. -/
  phase : Phase
  deriving Inhabited

/-- Where the root of a scan stands. -/
inductive RootPhase
  /-- About to claim the entry. -/
  | claiming (facts : ModuleFacts)
  /-- About to set the descriptor of the entry. -/
  | describing (facts : ModuleFacts)
  /-- About to start tasks for these imports of the entry. -/
  | spawning (specifiers : List String)
  /-- About to drop the guard. -/
  | leaving
  /-- Waiting until nothing is pending. -/
  | waiting
  /-- Done waiting. -/
  | finished
  deriving Inhabited

/-! ## The shared state -/

/-- The state that the tasks of a scan share. -/
structure Scan where
  /-- The files entered so far. -/
  ledger : Ledger
  /-- The issues reported so far. -/
  issues : List Issue
  /-- The tasks that have not left. -/
  tasks : List Task
  /-- The number of guards that are alive. -/
  pending : Nat
  /-- How many more files may be loaded at present. -/
  permits : Nat
  /-- Whether the scan is cancelled. -/
  cancelled : Bool
  /-- Where the root stands. -/
  root : RootPhase
  deriving Inhabited

namespace Scan

/-- The state in which the entry has been loaded and parsed.  There may be any number of permits; a
semaphore that counts them holds `2 ^ 61 - 1` at most, and one that is made with more fails before
there is any task. -/
def start (maxConcurrency : Nat) (facts : ModuleFacts) : Scan where
  ledger := ∅
  issues := []
  tasks := []
  pending := 1
  permits := maxConcurrency
  cancelled := false
  root := .claiming facts

/-- Cancels the scan. -/
def cancel (s : Scan) : Scan := { s with cancelled := true }

/-- Starts a task, which takes a guard. -/
def spawn (s : Scan) (owner : Path) (specifier : String) : Scan :=
  { s with tasks := s.tasks ++ [⟨owner, specifier, .entering⟩], pending := s.pending + 1 }

/-- Moves the task at a place of the list to a phase. -/
def move (s : Scan) (i : Nat) (phase : Phase) : Scan :=
  { s with tasks := s.tasks.modify i fun t ↦ { t with phase } }

/-- Lets the task at a place of the list take its next step. -/
def step (plan : ScanPlan) (s : Scan) (i : Nat) : Files Scan := do
  match s.tasks[i]? with
  | none => return s
  | some task =>
    match task.phase with
    | .entering => return s.move i (if s.cancelled then .leaving else .resolving)
    | .resolving =>
      match ← plan.resolver.resolve task.owner task.specifier with
      | .file target => return s.move i (.claiming target)
      | .external => return s.move i .leaving
      | .failed fault => return s.move i (.reporting (.ofResolution fault) none)
    | .claiming target =>
      let (isNew, ledger) := s.ledger.claim target
      let next : Phase :=
        if !isNew then .linking target
        else if plan.isScript target then .queueing target
        else .marking target
      return { s with ledger }.move i next
    | .marking target =>
      return { s with ledger := (s.ledger.setDescriptor target ∅).2 }.move i (.linking target)
    | .queueing target =>
      if s.permits = 0 then return s
      else return { s with permits := s.permits - 1 }.move i (.loading target)
    | .loading target =>
      let s' := { s with permits := s.permits + 1 }
      match ← plan.facts target with
      | .ok facts => return s'.move i (.describing target facts)
      | .error fault =>
        return s'.move i
          (.reporting (.ofModule task.owner task.specifier target fault) (some target))
    | .describing target facts =>
      return { s with ledger := (s.ledger.setDescriptor target facts.descriptor).2 }.move i
        (.checking target facts)
    | .checking target facts =>
      return s.move i
        (if s.cancelled then .linking target else .spawning target (plan.followed facts.imports))
    | .spawning target [] => return s.move i (.linking target)
    | .spawning target (specifier :: specifiers) =>
      return (s.spawn target specifier).move i (.spawning target specifiers)
    | .reporting issue target =>
      let next : Phase := match target with
        | some target => .linking target
        | none => .leaving
      return { s with issues := issue :: s.issues }.move i next
    | .linking target =>
      return { s with ledger := (s.ledger.addDependent target task.owner).2 }.move i .leaving
    | .leaving => return { s with tasks := s.tasks.eraseIdx i, pending := s.pending - 1 }

/-- Breaks off the task at a place of the list where it stands: its guard and its permit are given
back, and nothing else is done. -/
def breakOff (s : Scan) (i : Nat) : Scan :=
  match s.tasks[i]? with
  | none => s
  | some task =>
    { s with
      tasks := s.tasks.eraseIdx i
      pending := s.pending - 1
      permits := s.permits + task.phase.permits }

/-- Lets the root take its next step; while something is pending it goes on waiting. -/
def rootStep (plan : ScanPlan) (s : Scan) : Scan :=
  match s.root with
  | .claiming facts =>
    { s with ledger := (s.ledger.claim plan.entry).2, root := .describing facts }
  | .describing facts =>
    { s with
      ledger := (s.ledger.setDescriptor plan.entry facts.descriptor).2
      root := .spawning (plan.followed facts.imports) }
  | .spawning [] => { s with root := .leaving }
  | .spawning (specifier :: specifiers) =>
    { s.spawn plan.entry specifier with root := .spawning specifiers }
  | .leaving => { s with pending := s.pending - 1, root := .waiting }
  | .waiting => if s.pending = 0 then { s with root := .finished } else s
  | .finished => s

/-- The steps that can be taken over a file tree that does not change: one of a task, one of the
root, or the cancelling of the scan from outside. -/
inductive Next (plan : ScanPlan) (files : FileTree) (s : Scan) : Scan → Prop
  | task (i : Nat) : i < s.tasks.length → Next plan files s ((s.step plan i).run files)
  | root : Next plan files s (s.rootStep plan)
  | cancel : Next plan files s s.cancel

/-- The steps that can be taken where nothing is taken for granted: the file tree may change from
one step to the next, and a task may break off wherever it stands. -/
inductive Disturbed (plan : ScanPlan) (s : Scan) : Scan → Prop
  | next (files : FileTree) {t : Scan} : Next plan files s t → Disturbed plan s t
  | breakOff (i : Nat) : i < s.tasks.length → Disturbed plan s (s.breakOff i)

/-- The states that a scan can come to by any steps. -/
inductive Reachable (plan : ScanPlan) (files : FileTree) (maxConcurrency : Nat)
    (facts : ModuleFacts) : Scan → Prop
  | start : Reachable plan files maxConcurrency facts (.start maxConcurrency facts)
  | next {s t : Scan} : Reachable plan files maxConcurrency facts s → Next plan files s t →
      Reachable plan files maxConcurrency facts t

/-! ## Outcomes -/

end Scan

/-- What a scan that was not cancelled finds. -/
structure ScanOutcome where
  /-- The graph. -/
  snapshot : Snapshot
  /-- The issues, in order. -/
  issues : List Issue
  deriving Inhabited

/-- The outcome of a state, unless the scan was cancelled. -/
def Scan.outcome (plan : ScanPlan) (s : Scan) : Except ScanFault ScanOutcome :=
  if s.cancelled then .error .cancelled
  else .ok ⟨s.ledger.snapshot plan.root plan.entry, Issue.sort s.issues⟩

end ImpactGraph
