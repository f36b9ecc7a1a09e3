import ImpactGraph.Proofs.Graph.Ledger
import ImpactGraph.Proofs.Scan.Step

/-!
# Schedules, and what is done under them

A `Move` is a step together with who takes it, so a list of moves is a schedule, and `play` is the
state that a scan comes to under it.  The states of a `Run` are those that are played to
(`run_iff_exists_play`); where no task breaks off and the file tree does not change, they are the
ones that can be reached (`reachable_iff_exists_play`).

`log` lists what is done under a schedule, the latest first: each `Deed` with its doer, which is a
task, known by its import, or the root.  The log is complete: the questions that are asked of the
file tree, the ledger and the issues can all be read off it (`asked_eq`, `performs_play`).
-/

set_option autoImplicit false

namespace ImpactGraph

/-! ## Schedules -/

/-- A step, and who takes it.  The number of a task is its place in the list; a number that is no
place of a task stands for no step. -/
inductive Move
  /-- A task takes its next step, and finds these files. -/
  | task (files : FileTree) (i : Nat)
  /-- The root takes its next step. -/
  | root
  /-- The scan is cancelled. -/
  | cancel
  /-- A task breaks off. -/
  | breakOff (i : Nat)

/-- A move over this file tree, in which no task breaks off. -/
def Move.Over (files : FileTree) : Move → Prop
  | .task files' _ => files' = files
  | .root | .cancel => True
  | .breakOff _ => False

namespace Scan

variable {plan : ScanPlan} {files : FileTree} {s t u : Scan} {m : Move} {ms : List Move}

/-- The state after a move. -/
def after (plan : ScanPlan) (s : Scan) : Move → Scan
  | .task files i => (s.step plan i).run files
  | .root => s.rootStep plan
  | .cancel => s.cancel
  | .breakOff i => s.breakOff i

/-- The state after all moves of a schedule. -/
def play (plan : ScanPlan) (s : Scan) (ms : List Move) : Scan := ms.foldl (after plan) s

@[simp] theorem play_nil : s.play plan [] = s := rfl

@[simp] theorem play_cons : s.play plan (m :: ms) = (s.after plan m).play plan ms := rfl

theorem play_append (ms ms' : List Move) :
    s.play plan (ms ++ ms') = (s.play plan ms).play plan ms' := List.foldl_append

theorem step_of_length_le {i : Nat} (h : s.tasks.length ≤ i) : s.step plan i = pure s := by
  simp [step, List.getElem?_eq_none h]

theorem breakOff_of_length_le {i : Nat} (h : s.tasks.length ≤ i) : s.breakOff i = s := by
  simp [breakOff, List.getElem?_eq_none h]

theorem run_after : Run plan s (s.after plan m) := by
  cases m with
  | task files i =>
    rcases Nat.lt_or_ge i s.tasks.length with hi | hi
    · exact .single (.next files (.task i hi))
    · rw [after, step_of_length_le hi]
      exact .refl
  | root => exact .single (.next (.ofTexts []) .root)
  | cancel => exact .single (.next (.ofTexts []) .cancel)
  | breakOff i =>
    rcases Nat.lt_or_ge i s.tasks.length with hi | hi
    · exact .single (.breakOff i hi)
    · rw [after, breakOff_of_length_le hi]
      exact .refl

theorem run_play : Run plan s (s.play plan ms) := by
  induction ms generalizing s with
  | nil => exact .refl
  | cons m ms ih => exact run_after.trans ih

/-- Whatever a scan comes to, it comes to under a schedule. -/
theorem run_iff_exists_play : Run plan s t ↔ ∃ ms, s.play plan ms = t := by
  refine ⟨fun h ↦ ?_, fun ⟨ms, h⟩ ↦ h ▸ run_play⟩
  induction h with
  | refl => exact ⟨[], rfl⟩
  | tail _ hstep ih =>
    obtain ⟨ms, rfl⟩ := ih
    have hlast (m : Move) : s.play plan (ms ++ [m]) = (s.play plan ms).after plan m :=
      play_append ms [m]
    cases hstep with
    | next files hnext =>
      cases hnext with
      | task i => exact ⟨_, hlast (.task files i)⟩
      | root => exact ⟨_, hlast .root⟩
      | cancel => exact ⟨_, hlast .cancel⟩
    | breakOff i => exact ⟨_, hlast (.breakOff i)⟩

variable {maxConcurrency : Nat} {facts : Source.ModuleFacts}

theorem Reachable.after (h : Reachable plan files maxConcurrency facts s) (hm : m.Over files) :
    Reachable plan files maxConcurrency facts (s.after plan m) := by
  cases m with
  | task files' i =>
    obtain rfl : files' = files := hm
    rcases Nat.lt_or_ge i s.tasks.length with hi | hi
    · exact h.next (.task i hi)
    · rw [Scan.after, step_of_length_le hi]
      exact h
  | root => exact h.next .root
  | cancel => exact h.next .cancel
  | breakOff i => exact hm.elim

theorem Reachable.play (h : Reachable plan files maxConcurrency facts s)
    (hms : ∀ m ∈ ms, m.Over files) :
    Reachable plan files maxConcurrency facts (s.play plan ms) := by
  induction ms generalizing s with
  | nil => exact h
  | cons m ms ih =>
    rw [List.forall_mem_cons] at hms
    exact ih (h.after hms.1) hms.2

/-- What can be reached over a file tree is what can be played to over it. -/
theorem reachable_iff_exists_play :
    Reachable plan files maxConcurrency facts s ↔
      ∃ ms, (∀ m ∈ ms, m.Over files) ∧ (start maxConcurrency facts).play plan ms = s := by
  refine ⟨fun h ↦ ?_, fun ⟨ms, hms, h⟩ ↦ h ▸ Reachable.start.play hms⟩
  induction h with
  | start => exact ⟨[], by simp, rfl⟩
  | next _ hnext ih =>
    obtain ⟨ms, hms, rfl⟩ := ih
    have hlast (m : Move) (hm : m.Over files) : ∃ ms', (∀ m ∈ ms', m.Over files) ∧
        (start maxConcurrency facts).play plan ms' =
          ((start maxConcurrency facts).play plan ms).after plan m :=
      ⟨ms ++ [m], by simpa [or_imp, forall_and] using ⟨hms, hm⟩, play_append ms [m]⟩
    cases hnext with
    | task i => exact hlast (.task files i) rfl
    | root => exact hlast .root trivial
    | cancel => exact hlast .cancel trivial

end Scan

/-! ## Deeds -/

/-- What a task or the root does that is seen outside of it. -/
inductive Deed
  /-- It asks these questions to resolve its specifier. -/
  | resolve (questions : List FileQuestion)
  /-- It asks these questions to load a file. -/
  | load (path : Path) (questions : List FileQuestion)
  /-- It claims a file, and is told whether the file is new. -/
  | claim (path : Path) (isNew : Bool)
  /-- It sets the descriptor of a file. -/
  | describe (path : Path) (d : Descriptor)
  /-- It starts a task for an import of a file. -/
  | launch (owner : Path) (specifier : String)
  /-- It reports an issue. -/
  | report (issue : Issue)
  /-- It notes that a file is imported by another one. -/
  | link (path importer : Path)

/-- A deed and who does it: a task, known by its import, or the root. -/
structure Event where
  /-- The import of the task, if it is one. -/
  doer : Option (Path × String)
  /-- What is done. -/
  deed : Deed

namespace Deed

/-- The questions that are asked with a deed, the latest first. -/
def questions : Deed → List FileQuestion
  | .resolve questions | .load _ questions => questions.reverse
  | _ => []

/-- The ledger after a deed. -/
def perform (l : Ledger) : Deed → Ledger
  | .claim path _ => (l.claim path).2
  | .describe path d => (l.setDescriptor path d).2
  | .link path importer => (l.addDependent path importer).2
  | _ => l

/-- The issue that is reported with a deed. -/
def issue? : Deed → Option Issue
  | .report issue => some issue
  | _ => none

end Deed

/-- The import that a task is known by. -/
def Task.edge (task : Task) : Path × String := (task.owner, task.specifier)

/-- What a task does with its next step. -/
def Task.deed? (plan : ScanPlan) (files : FileTree) (l : Ledger) (task : Task) : Option Deed :=
  match task.phase with
  | .resolving =>
    some (.resolve ((plan.resolver.resolve task.owner task.specifier).asked files))
  | .claiming target => some (.claim target (l.claim target).1)
  | .marking target => some (.describe target ∅)
  | .loading target => some (.load target ((plan.facts target).asked files))
  | .describing target facts => some (.describe target facts.descriptor)
  | .spawning target (specifier :: _) => some (.launch target specifier)
  | .reporting issue _ => some (.report issue)
  | .linking target => some (.link target task.owner)
  | _ => none

/-- What the root does with its next step. -/
def RootPhase.deed? (plan : ScanPlan) (l : Ledger) : RootPhase → Option Deed
  | .claiming _ => some (.claim plan.entry (l.claim plan.entry).1)
  | .describing facts => some (.describe plan.entry facts.descriptor)
  | .spawning (specifier :: _) => some (.launch plan.entry specifier)
  | _ => none

/-- What a task does with its next step, signed by it. -/
def Task.event? (plan : ScanPlan) (files : FileTree) (l : Ledger) (task : Task) : Option Event :=
  (task.deed? plan files l).map (⟨some task.edge, ·⟩)

/-- What the root does with its next step, signed by it. -/
def RootPhase.event? (plan : ScanPlan) (l : Ledger) (phase : RootPhase) : Option Event :=
  (phase.deed? plan l).map (⟨none, ·⟩)

namespace Scan

variable {plan : ScanPlan} {files : FileTree} {s t u : Scan} {m : Move} {ms : List Move}

/-- What is done with a move. -/
def event? (plan : ScanPlan) (s : Scan) : Move → Option Event
  | .task files i => s.tasks[i]?.bind (·.event? plan files s.ledger)
  | .root => s.root.event? plan s.ledger
  | .cancel | .breakOff _ => none

/-- All that is done under a schedule, the latest first. -/
def log (plan : ScanPlan) (s : Scan) : List Move → List Event
  | [] => []
  | m :: ms => (s.after plan m).log plan ms ++ (s.event? plan m).toList

/-- The questions that are asked with a move, in order. -/
def questions (plan : ScanPlan) (s : Scan) : Move → List FileQuestion
  | .task files i => (s.step plan i).asked files
  | .root | .cancel | .breakOff _ => []

/-- The questions that are asked of the file trees under a schedule, the latest first. -/
def asked (plan : ScanPlan) (s : Scan) : List Move → List FileQuestion
  | [] => []
  | m :: ms => (s.after plan m).asked plan ms ++ (s.questions plan m).reverse

theorem log_append (ms ms' : List Move) :
    s.log plan (ms ++ ms') = (s.play plan ms).log plan ms' ++ s.log plan ms := by
  induction ms generalizing s with
  | nil => simp [log]
  | cons m ms ih => rw [List.cons_append, log, ih, log, play_cons, List.append_assoc]

/-! ### The log is complete -/

theorem asked_step {i : Nat} {task : Task} (h : s.tasks[i]? = some task) :
    ((s.step plan i).asked files).reverse =
      (task.event? plan files s.ledger).toList.flatMap (·.deed.questions) := by
  obtain ⟨owner, specifier, phase⟩ := task
  simp only [step, h]
  cases phase with
  | resolving =>
    rw [Dialogue.asked_bind]
    cases (plan.resolver.resolve owner specifier).run files <;>
      simp [Task.event?, Task.deed?, Deed.questions]
  | loading target =>
    rw [Dialogue.asked_bind]
    cases (plan.facts target).run files <;> simp [Task.event?, Task.deed?, Deed.questions]
  | queueing target =>
    dsimp only
    split <;> rfl
  | spawning target names => cases names <;> rfl
  | _ => rfl

theorem questions_eq : (s.questions plan m).reverse =
    (s.event? plan m).toList.flatMap (·.deed.questions) := by
  cases m with
  | task files i =>
    cases h : s.tasks[i]? with
    | none => simp [questions, event?, step, h]
    | some task => simpa [questions, event?, h] using asked_step h
  | root =>
    rw [event?, RootPhase.event?]
    cases s.root with
    | spawning names => cases names <;> rfl
    | _ => rfl
  | cancel | breakOff => rfl

/-- The questions that are asked are those of the deeds. -/
theorem asked_eq : s.asked plan ms = (s.log plan ms).flatMap (·.deed.questions) := by
  induction ms generalizing s with
  | nil => rfl
  | cons m ms ih => rw [asked, log, ih, List.flatMap_append, questions_eq]

/-- The ledger after these events, the latest of which comes first. -/
def replay (l : Ledger) (events : List Event) : Ledger :=
  events.foldr (fun event l ↦ event.deed.perform l) l

theorem Acts.performs {ts : List Task} {owner : Path} {specifier : String} {phase : Phase}
    (h : Acts plan files s ts owner specifier phase u) :
    u.ledger =
        replay s.ledger (Task.event? plan files s.ledger ⟨owner, specifier, phase⟩).toList ∧
      u.issues = (Task.event? plan files s.ledger ⟨owner, specifier, phase⟩).toList.filterMap
        (·.deed.issue?) ++ s.issues := by
  cases h with
  | claimOld hold => exact ⟨(Ledger.claim_of_contains hold).symm, rfl⟩
  | _ => exact ⟨rfl, rfl⟩

theorem RootActs.performs {phase : RootPhase} (h : RootActs plan s phase u) :
    u.ledger = replay s.ledger (phase.event? plan s.ledger).toList ∧
      u.issues = (phase.event? plan s.ledger).toList.filterMap (·.deed.issue?) ++ s.issues := by
  cases h <;> exact ⟨rfl, rfl⟩

/-! ### What every move keeps -/

/-- A property of a log and of the state that it leads to, that is kept by all moves of a kind: it
does not depend on the order of the tasks, and it is kept by what a task that stands first does or
by its breaking off, by what the root does, and by cancelling. -/
structure Recorded (plan : ScanPlan) (A : Move → Prop) (P : List Event → Scan → Prop) : Prop where
  alike {log : List Event} {s t : Scan} : Alike s t → P log s → P log t
  acts {log : List Event} {s u : Scan} {files : FileTree} {i : Nat} {ts : List Task} {owner : Path}
    {specifier : String} {phase : Phase} :
    A (.task files i) → s.tasks = ⟨owner, specifier, phase⟩ :: ts → P log s →
      Acts plan files s ts owner specifier phase u →
        P ((Task.event? plan files s.ledger ⟨owner, specifier, phase⟩).toList ++ log) u
  root {log : List Event} {s u : Scan} : P log s → RootActs plan s s.root u →
    P ((s.root.event? plan s.ledger).toList ++ log) u
  cancel {log : List Event} {s : Scan} : P log s → P log s.cancel
  breakOff {log : List Event} {s : Scan} {i : Nat} {task : Task} {ts : List Task} :
    A (.breakOff i) → s.tasks = task :: ts → P log s →
      P log
        { s with
          tasks := ts
          pending := s.pending - 1
          permits := s.permits + task.phase.permits }

variable {A : Move → Prop} {P : List Event → Scan → Prop} {log : List Event}

theorem Recorded.after (hP : Recorded plan A P) (hm : A m) (hs : P log s) :
    P ((s.event? plan m).toList ++ log) (s.after plan m) := by
  cases m with
  | task files i =>
    cases h : s.tasks[i]? with
    | none =>
      rw [Scan.after, step_of_length_le (List.getElem?_eq_none_iff.1 h), event?, h]
      exact hs
    | some task =>
      obtain ⟨u, hu, halike⟩ := step_acts plan files h
      have hacts := hP.acts hm rfl (hP.alike (alike_of_getElem? h) hs) hu.withTasks
      rw [Scan.after, event?, h]
      exact hP.alike halike hacts
  | root =>
    obtain ⟨u, hu, halike⟩ := rootStep_acts plan s
    exact hP.alike halike (hP.root hs hu)
  | cancel => exact hP.cancel hs
  | breakOff i =>
    rcases Nat.lt_or_ge i s.tasks.length with hi | hi
    · have hget := List.getElem?_eq_getElem hi
      have hrest := hP.breakOff hm rfl (hP.alike (alike_of_getElem? hget) hs)
      rw [Scan.after, breakOff_eq hi]
      exact hrest
    · rw [Scan.after, breakOff_of_length_le hi]
      exact hs

theorem Recorded.play (hP : Recorded plan A P) (hms : ∀ m ∈ ms, A m) (hs : P log s) :
    P (s.log plan ms ++ log) (s.play plan ms) := by
  induction ms generalizing s log with
  | nil => exact hs
  | cons m ms ih =>
    rw [List.forall_mem_cons] at hms
    rw [Scan.log, List.append_assoc]
    exact ih hms.2 (hP.after hms.1 hs)

theorem Recorded.play_of_nil (hP : Recorded plan A P) (hms : ∀ m ∈ ms, A m) (hs : P [] s) :
    P (s.log plan ms) (s.play plan ms) := by
  have h := hP.play hms hs
  rwa [List.append_nil] at h

/-- The ledger and the issues are what the deeds have made of them. -/
theorem recorded_performs (plan : ScanPlan) (l : Ledger) (issues : List Issue) :
    Recorded plan (fun _ ↦ True) fun log t ↦
      t.ledger = replay l log ∧ t.issues = log.filterMap (·.deed.issue?) ++ issues where
  alike h hs := ⟨h.ledger ▸ hs.1, h.issues ▸ hs.2⟩
  acts _ _ hs h := by
    obtain ⟨hledger, hissues⟩ := h.performs
    rw [replay, List.foldr_append, List.filterMap_append, List.append_assoc, ← hs.2]
    exact ⟨hs.1 ▸ hledger, hissues⟩
  root hs h := by
    obtain ⟨hledger, hissues⟩ := h.performs
    rw [replay, List.foldr_append, List.filterMap_append, List.append_assoc, ← hs.2]
    exact ⟨hs.1 ▸ hledger, hissues⟩
  cancel hs := hs
  breakOff _ _ hs := hs

theorem performs_play :
    (s.play plan ms).ledger = replay s.ledger (s.log plan ms) ∧
      (s.play plan ms).issues = (s.log plan ms).filterMap (·.deed.issue?) ++ s.issues :=
  (recorded_performs plan s.ledger s.issues).play_of_nil (fun _ _ ↦ trivial) ⟨rfl, rfl⟩

end Scan
end ImpactGraph
