import ImpactGraph.Proofs.Scan.Graph
import Mathlib.Data.List.Perm.Basic
import Mathlib.Logic.Relation

/-!
# What a step can do

`Scan.step` takes the task at a place of a list, but nothing that is proved of a scan depends on the
places: two states are `Alike` if they differ in the order of their tasks only.  So a step may be
looked at as if its task stood first.  `Acts` lists what a task that stands first can do, and
`RootActs` what the root can do, with all that changes; `step_acts` says that this is all.

`Kept` collects what is to be shown of a property to have it in every state that a scan can come
to.
-/

set_option autoImplicit false

namespace ImpactGraph
namespace Scan

variable {plan : ScanPlan} {files : FileTree} {s t : Scan}

/-! ## Tasks in any order -/

/-- Two states that differ in the order of their tasks only. -/
structure Alike (s t : Scan) : Prop where
  tasks : s.tasks.Perm t.tasks
  ledger : s.ledger = t.ledger
  issues : s.issues = t.issues
  pending : s.pending = t.pending
  permits : s.permits = t.permits
  cancelled : s.cancelled = t.cancelled
  root : s.root = t.root

theorem Alike.symm (h : Alike s t) : Alike t s :=
  ⟨h.tasks.symm, h.ledger.symm, h.issues.symm, h.pending.symm, h.permits.symm, h.cancelled.symm,
    h.root.symm⟩

/-- A task of the list can be taken to stand first. -/
theorem alike_of_getElem? {i : Nat} {task : Task} (h : s.tasks[i]? = some task) :
    Alike s { s with tasks := task :: s.tasks.eraseIdx i } := by
  obtain ⟨hi, rfl⟩ := List.getElem?_eq_some_iff.1 h
  exact ⟨(List.getElem_cons_eraseIdx_perm hi).symm, rfl, rfl, rfl, rfl, rfl, rfl⟩

/-! ## The steps of a task -/

/-- What a task that stands before `ts` makes of the state with its next step, by its phase. -/
inductive Acts (plan : ScanPlan) (files : FileTree) (s : Scan) (ts : List Task) (owner : Path)
    (specifier : String) : Phase → Scan → Prop
  | enter : s.cancelled = false → Acts plan files s ts owner specifier .entering
      { s with tasks := ⟨owner, specifier, .resolving⟩ :: ts }
  | giveUp : s.cancelled = true → Acts plan files s ts owner specifier .entering
      { s with tasks := ⟨owner, specifier, .leaving⟩ :: ts }
  | toFile {target : Path} : plan.resolution files owner specifier = .file target →
      Acts plan files s ts owner specifier .resolving
        { s with tasks := ⟨owner, specifier, .claiming target⟩ :: ts }
  | toPackage : plan.resolution files owner specifier = .external →
      Acts plan files s ts owner specifier .resolving
        { s with tasks := ⟨owner, specifier, .leaving⟩ :: ts }
  | toNothing {fault : ResolutionFault} : plan.resolution files owner specifier = .failed fault →
      Acts plan files s ts owner specifier .resolving
        { s with tasks := ⟨owner, specifier, .reporting (.ofResolution fault) none⟩ :: ts }
  | claimOld {target : Path} : s.ledger.contains target = true →
      Acts plan files s ts owner specifier (.claiming target)
        { s with tasks := ⟨owner, specifier, .linking target⟩ :: ts }
  | claimScript {target : Path} : s.ledger.contains target = false →
      plan.isScript target = true → Acts plan files s ts owner specifier (.claiming target)
        { s with
          ledger := (s.ledger.claim target).2
          tasks := ⟨owner, specifier, .queueing target⟩ :: ts }
  | claimLeaf {target : Path} : s.ledger.contains target = false →
      plan.isScript target = false → Acts plan files s ts owner specifier (.claiming target)
        { s with
          ledger := (s.ledger.claim target).2
          tasks := ⟨owner, specifier, .marking target⟩ :: ts }
  | mark {target : Path} : Acts plan files s ts owner specifier (.marking target)
      { s with
        ledger := (s.ledger.setDescriptor target ∅).2
        tasks := ⟨owner, specifier, .linking target⟩ :: ts }
  | wait {target : Path} : s.permits = 0 → Acts plan files s ts owner specifier (.queueing target)
      { s with tasks := ⟨owner, specifier, .queueing target⟩ :: ts }
  | queue {target : Path} : 0 < s.permits →
      Acts plan files s ts owner specifier (.queueing target)
        { s with
          permits := s.permits - 1
          tasks := ⟨owner, specifier, .loading target⟩ :: ts }
  | load {target : Path} {facts : Source.ModuleFacts} : plan.factsOf files target = .ok facts →
      Acts plan files s ts owner specifier (.loading target)
        { s with
          permits := s.permits + 1
          tasks := ⟨owner, specifier, .describing target facts⟩ :: ts }
  | loadFault {target : Path} {fault : ModuleFault} : plan.factsOf files target = .error fault →
      Acts plan files s ts owner specifier (.loading target)
        { s with
          permits := s.permits + 1
          tasks := ⟨owner, specifier,
            .reporting (.ofModule owner specifier target fault) (some target)⟩ :: ts }
  | describe {target : Path} {facts : Source.ModuleFacts} :
      Acts plan files s ts owner specifier (.describing target facts)
        { s with
          ledger := (s.ledger.setDescriptor target facts.descriptor).2
          tasks := ⟨owner, specifier, .checking target facts⟩ :: ts }
  | check {target : Path} {facts : Source.ModuleFacts} : s.cancelled = false →
      Acts plan files s ts owner specifier (.checking target facts)
        { s with
          tasks := ⟨owner, specifier, .spawning target (plan.followed facts.imports)⟩ :: ts }
  | checkCancelled {target : Path} {facts : Source.ModuleFacts} : s.cancelled = true →
      Acts plan files s ts owner specifier (.checking target facts)
        { s with tasks := ⟨owner, specifier, .linking target⟩ :: ts }
  | spawn {target : Path} {name : String} {names : List String} :
      Acts plan files s ts owner specifier (.spawning target (name :: names))
        { s with
          tasks := ⟨owner, specifier, .spawning target names⟩ :: ⟨target, name, .entering⟩ :: ts
          pending := s.pending + 1 }
  | spawned {target : Path} : Acts plan files s ts owner specifier (.spawning target [])
      { s with tasks := ⟨owner, specifier, .linking target⟩ :: ts }
  | report {issue : Issue} : Acts plan files s ts owner specifier (.reporting issue none)
      { s with
        issues := issue :: s.issues
        tasks := ⟨owner, specifier, .leaving⟩ :: ts }
  | reportModule {issue : Issue} {target : Path} :
      Acts plan files s ts owner specifier (.reporting issue (some target))
        { s with
          issues := issue :: s.issues
          tasks := ⟨owner, specifier, .linking target⟩ :: ts }
  | link {target : Path} : Acts plan files s ts owner specifier (.linking target)
      { s with
        ledger := (s.ledger.addDependent target owner).2
        tasks := ⟨owner, specifier, .leaving⟩ :: ts }
  | leave : Acts plan files s ts owner specifier .leaving
      { s with
        tasks := ts
        pending := s.pending - 1 }

/-- A task that changes its phase can be taken to stand first before and after. -/
theorem alike_move {i : Nat} {task : Task} (h : t.tasks[i]? = some task) (phase : Phase) :
    Alike { t with tasks := ⟨task.owner, task.specifier, phase⟩ :: t.tasks.eraseIdx i }
      (t.move i phase) := by
  obtain ⟨hi, rfl⟩ := List.getElem?_eq_some_iff.1 h
  refine ⟨?_, rfl, rfl, rfl, rfl, rfl, rfl⟩
  rw [move, List.modify_eq_take_cons_drop hi, List.eraseIdx_eq_take_drop_succ]
  exact List.perm_middle.symm

theorem alike_move_spawn {i : Nat} {task : Task} (h : s.tasks[i]? = some task) (phase : Phase)
    (owner : Path) (specifier : String) :
    Alike
      { s with
        tasks := ⟨task.owner, task.specifier, phase⟩ :: ⟨owner, specifier, .entering⟩ ::
          s.tasks.eraseIdx i
        pending := s.pending + 1 }
      ((s.spawn owner specifier).move i phase) := by
  obtain ⟨hi, -⟩ := List.getElem?_eq_some_iff.1 h
  have hmove := alike_move (t := s.spawn owner specifier)
    ((List.getElem?_append_left hi).trans h) phase
  refine ⟨List.Perm.trans ?_ hmove.tasks, rfl, rfl, rfl, rfl, rfl, rfl⟩
  rw [spawn, List.eraseIdx_append_of_lt_length hi]
  exact List.Perm.cons _ (List.perm_append_singleton _ _).symm

/-- The next step of a task is one of those listed. -/
theorem step_acts (plan : ScanPlan) (files : FileTree) {i : Nat} {task : Task}
    (h : s.tasks[i]? = some task) :
    ∃ u, Acts plan files s (s.tasks.eraseIdx i) task.owner task.specifier task.phase u ∧
      Alike u ((s.step plan i).run files) := by
  obtain ⟨owner, specifier, phase⟩ := task
  have hmove (ledger : Ledger) (issues : List Issue) (permits : Nat) (phase : Phase) :
      Alike
        { s with
          ledger, issues, permits
          tasks := ⟨owner, specifier, phase⟩ :: s.tasks.eraseIdx i }
        ({ s with ledger, issues, permits }.move i phase) :=
    alike_move (t := { s with ledger, issues, permits }) h phase
  simp only [step, h]
  cases phase with
  | entering =>
    cases hc : s.cancelled with
    | false => exact ⟨_, .enter hc, hmove _ _ _ _⟩
    | true => exact ⟨_, .giveUp hc, hmove _ _ _ _⟩
  | resolving =>
    simp only [Dialogue.run_bind]
    cases hr : (plan.resolver.resolve owner specifier).run files with
    | file target => exact ⟨_, .toFile hr, hmove _ _ _ _⟩
    | external => exact ⟨_, .toPackage hr, hmove _ _ _ _⟩
    | failed fault => exact ⟨_, .toNothing hr, hmove _ _ _ _⟩
  | claiming target =>
    cases hc : s.ledger.contains target with
    | true =>
      refine ⟨_, .claimOld hc, ?_⟩
      simpa [Ledger.claim, hc] using hmove s.ledger _ _ (.linking target)
    | false =>
      have hnew : (s.ledger.claim target).1 = true := by simp [Ledger.claim, hc]
      simp only [hnew, Bool.not_true, Bool.false_eq_true, if_false]
      cases hs : plan.isScript target with
      | true => exact ⟨_, .claimScript hc hs, hmove _ _ _ _⟩
      | false => exact ⟨_, .claimLeaf hc hs, hmove _ _ _ _⟩
  | marking target => exact ⟨_, .mark, hmove _ _ _ _⟩
  | queueing target =>
    dsimp only
    by_cases hp : s.permits = 0
    · rw [if_pos hp]
      exact ⟨_, .wait hp, (alike_of_getElem? h).symm⟩
    · rw [if_neg hp]
      exact ⟨_, .queue (Nat.pos_of_ne_zero hp), hmove _ _ _ _⟩
  | loading target =>
    simp only [Dialogue.run_bind]
    cases hf : (plan.facts target).run files with
    | ok facts => exact ⟨_, .load hf, hmove _ _ _ _⟩
    | error fault => exact ⟨_, .loadFault hf, hmove _ _ _ _⟩
  | describing target facts => exact ⟨_, .describe, hmove _ _ _ _⟩
  | checking target facts =>
    cases hc : s.cancelled with
    | false => exact ⟨_, .check hc, hmove _ _ _ _⟩
    | true => exact ⟨_, .checkCancelled hc, hmove _ _ _ _⟩
  | spawning target names =>
    cases names with
    | nil => exact ⟨_, .spawned, hmove _ _ _ _⟩
    | cons name names => exact ⟨_, .spawn, alike_move_spawn h _ _ _⟩
  | reporting issue target =>
    cases target with
    | none => exact ⟨_, .report, hmove _ _ _ _⟩
    | some target => exact ⟨_, .reportModule, hmove _ _ _ _⟩
  | linking target => exact ⟨_, .link, hmove _ _ _ _⟩
  | leaving => exact ⟨_, .leave, .rfl, rfl, rfl, rfl, rfl, rfl, rfl⟩

/-! ## The steps of the root -/

/-- What the root makes of the state with its next step, by its phase. -/
inductive RootActs (plan : ScanPlan) (s : Scan) : RootPhase → Scan → Prop
  | claim {facts : Source.ModuleFacts} : RootActs plan s (.claiming facts)
      { s with
        ledger := (s.ledger.claim plan.entry).2
        root := .describing facts }
  | describe {facts : Source.ModuleFacts} : RootActs plan s (.describing facts)
      { s with
        ledger := (s.ledger.setDescriptor plan.entry facts.descriptor).2
        root := .spawning (plan.followed facts.imports) }
  | spawn {name : String} {names : List String} : RootActs plan s (.spawning (name :: names))
      { s with
        tasks := ⟨plan.entry, name, .entering⟩ :: s.tasks
        pending := s.pending + 1
        root := .spawning names }
  | spawned : RootActs plan s (.spawning []) { s with root := .leaving }
  | leave : RootActs plan s .leaving
      { s with
        pending := s.pending - 1
        root := .waiting }
  | finish : s.pending = 0 → RootActs plan s .waiting { s with root := .finished }
  | wait : 0 < s.pending → RootActs plan s .waiting s
  | rest : RootActs plan s .finished s

theorem Alike.refl (s : Scan) : Alike s s := ⟨.rfl, rfl, rfl, rfl, rfl, rfl, rfl⟩

/-- The next step of the root is one of those listed. -/
theorem rootStep_acts (plan : ScanPlan) (s : Scan) :
    ∃ u, RootActs plan s s.root u ∧ Alike u (s.rootStep plan) := by
  rw [rootStep]
  cases s.root with
  | claiming facts => exact ⟨_, .claim, .refl _⟩
  | describing facts => exact ⟨_, .describe, .refl _⟩
  | spawning names =>
    cases names with
    | nil => exact ⟨_, .spawned, .refl _⟩
    | cons name names =>
      exact ⟨_, .spawn, (List.perm_append_singleton _ _).symm, rfl, rfl, rfl, rfl, rfl, rfl⟩
  | leaving => exact ⟨_, .leave, .refl _⟩
  | waiting =>
    dsimp only
    by_cases hp : s.pending = 0
    · rw [if_pos hp]
      exact ⟨_, .finish hp, .refl _⟩
    · rw [if_neg hp]
      exact ⟨_, .wait (Nat.pos_of_ne_zero hp), .refl _⟩
  | finished => exact ⟨_, .rest, .refl _⟩

/-! ## What every step keeps -/

/-- A property that no step takes away: it does not depend on the order of the tasks, and it is
kept by what a task that stands first does, by what the root does, and by cancelling. -/
structure Kept (plan : ScanPlan) (files : FileTree) (P : Scan → Prop) : Prop where
  alike {s t : Scan} : Alike s t → P s → P t
  acts {s u : Scan} {ts : List Task} {owner : Path} {specifier : String} {phase : Phase} :
    s.tasks = ⟨owner, specifier, phase⟩ :: ts → P s →
      Acts plan files s ts owner specifier phase u → P u
  root {s u : Scan} : P s → RootActs plan s s.root u → P u
  cancel {s : Scan} : P s → P s.cancel

/-- What a task does is not a matter of where it stood. -/
theorem Acts.withTasks {ts tasks : List Task} {owner : Path} {specifier : String} {phase : Phase}
    {u : Scan} (h : Acts plan files s ts owner specifier phase u) :
    Acts plan files { s with tasks } ts owner specifier phase u := by
  cases h <;> constructor <;> assumption

theorem Kept.step {P : Scan → Prop} (hP : Kept plan files P) (hs : P s) (i : Nat) :
    P ((s.step plan i).run files) := by
  cases h : s.tasks[i]? with
  | none =>
    simp only [Scan.step, h]
    exact hs
  | some task =>
    obtain ⟨u, hu, halike⟩ := step_acts plan files h
    exact hP.alike halike (hP.acts rfl (hP.alike (alike_of_getElem? h) hs) hu.withTasks)

theorem Kept.next {P : Scan → Prop} (hP : Kept plan files P) (hs : P s)
    (h : Next plan files s t) : P t := by
  cases h with
  | task i _ => exact hP.step hs i
  | root =>
    obtain ⟨u, hu, halike⟩ := rootStep_acts plan s
    exact hP.alike halike (hP.root hs hu)
  | cancel => exact hP.cancel hs

theorem Kept.reachable {P : Scan → Prop} (hP : Kept plan files P) {maxConcurrency : Nat}
    {facts : Source.ModuleFacts} (hstart : P (.start maxConcurrency facts))
    (h : Reachable plan files maxConcurrency facts s) : P s := by
  induction h with
  | start => exact hstart
  | next _ hnext ih => exact hP.next ih hnext

/-! ## Tasks that break off -/

/-- The second state can be reached from the first one, by steps during which the files may change
and tasks may break off. -/
def Run (plan : ScanPlan) : Scan → Scan → Prop := Relation.ReflTransGen (Disturbed plan)

theorem breakOff_eq {i : Nat} (hi : i < s.tasks.length) :
    s.breakOff i =
      { s with
        tasks := s.tasks.eraseIdx i
        pending := s.pending - 1
        permits := s.permits + s.tasks[i].phase.permits } := by
  simp only [Scan.breakOff, List.getElem?_eq_getElem hi]

/-- A property that no step takes away, over whatever file tree, nor a task that breaks off. -/
structure Lasting (plan : ScanPlan) (P : Scan → Prop) : Prop where
  kept (files : FileTree) : Kept plan files P
  breakOff {s : Scan} {i : Nat} : i < s.tasks.length → P s → P (s.breakOff i)

theorem Lasting.disturbed {P : Scan → Prop} (hP : Lasting plan P) (hs : P s)
    (h : Disturbed plan s t) : P t := by
  cases h with
  | next files hnext => exact (hP.kept files).next hs hnext
  | breakOff i hi => exact hP.breakOff hi hs

theorem Lasting.run {P : Scan → Prop} (hP : Lasting plan P) (hs : P s) (h : Run plan s t) :
    P t := by
  induction h with
  | refl => exact hs
  | tail _ hnext ih => exact hP.disturbed ih hnext

end Scan
end ImpactGraph
