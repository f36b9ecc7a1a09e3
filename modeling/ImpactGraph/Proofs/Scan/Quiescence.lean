import ImpactGraph.Proofs.Graph.Ledger
import ImpactGraph.Proofs.Scan.Step
import ImpactGraph.Scan.Run

/-!
# When nothing is pending

The number of pending guards is the number of tasks that have not left, and one more while the root
holds a guard.  This is so whatever the tasks meet: the files may change under them, and a task may
break off wherever it stands.  Since guards are taken only by those who hold one, a count of zero is
final: no task is left to change the ledger or the issues (`still_of_pending_eq_zero`).

So what the root takes when it is done waiting has every `Record` that was ever made in it.  For
descriptors this needs that no other descriptor was set before: a task that has claimed a file is
the only one that answers for it, which is the invariant `Fresh`.
-/

set_option autoImplicit false

namespace ImpactGraph

/-- The number of guards that the root holds. -/
def RootPhase.guards : RootPhase → Nat
  | .waiting | .finished => 0
  | _ => 1

namespace Scan

variable {plan : ScanPlan} {files : FileTree} {s t u v : Scan}

theorem isFinished_iff : s.isFinished = true ↔ s.root = .finished := by
  rw [isFinished]
  cases s.root <;> simp

/-! ## Counting guards -/

/-- Every guard that is alive is counted, and the root is not done before the last one is
dropped. -/
structure Counted (s : Scan) : Prop where
  pending : s.pending = s.tasks.length + s.root.guards
  finished : s.root = .finished → s.tasks = []

theorem kept_counted : Kept plan files Counted where
  alike h hs := by
    refine ⟨?_, fun hroot ↦ ?_⟩
    · rw [← h.pending, ← h.tasks.length_eq, ← h.root, hs.pending]
    · have hperm := h.tasks
      rw [hs.finished (h.root.trans hroot), List.nil_perm] at hperm
      exact hperm
  acts htasks hs h := by
    have hpending := hs.pending
    have hfinished := hs.finished
    rw [htasks] at hpending hfinished
    simp only [List.length_cons, reduceCtorEq, imp_false] at hpending hfinished
    cases h with
    | leave => exact ⟨by simp only; omega, fun hroot ↦ absurd hroot hfinished⟩
    | spawn =>
      exact ⟨by simp only [List.length_cons]; omega, fun hroot ↦ absurd hroot hfinished⟩
    | _ => exact ⟨hpending, fun hroot ↦ absurd hroot hfinished⟩
  root {s u} hs h := by
    have hpending := hs.pending
    generalize hphase : s.root = phase at hpending h
    cases h with
    | finish hzero =>
      refine ⟨?_, fun _ ↦ ?_⟩ <;> simp_all [RootPhase.guards]
    | rest => exact hs
    | wait => exact hs
    | spawn =>
      refine ⟨?_, by simp⟩
      simp only [RootPhase.guards, List.length_cons] at hpending ⊢
      omega
    | leave =>
      refine ⟨?_, by simp⟩
      simp only [RootPhase.guards] at hpending ⊢
      omega
    | _ => exact ⟨hpending, by simp⟩
  cancel hs := ⟨hs.pending, hs.finished⟩

theorem lasting_counted : Lasting plan Counted where
  kept _ := kept_counted
  breakOff {s i} hi hs := by
    rw [breakOff_eq hi]
    refine ⟨?_, fun hroot ↦ ?_⟩
    · have hlength := List.length_eraseIdx_of_lt hi
      have hpending := hs.pending
      simp only
      omega
    · rw [hs.finished hroot] at hi
      exact absurd hi (Nat.not_lt_zero i)

theorem counted_start (maxConcurrency : Nat) (facts : Source.ModuleFacts) :
    Counted (.start maxConcurrency facts) := ⟨rfl, by simp [start]⟩

/-! ## Zero is final -/

/-- Nothing has changed since an earlier state, and nothing is left that could change it. -/
structure Still (s t : Scan) : Prop where
  pending : t.pending = 0
  guards : t.root.guards = 0
  tasks : t.tasks = []
  ledger : t.ledger = s.ledger
  issues : t.issues = s.issues

theorem lasting_still : Lasting plan (Still s) where
  kept _ :=
    { alike := fun h hs ↦ by
        have hperm := h.tasks
        rw [hs.tasks, List.nil_perm] at hperm
        exact ⟨h.pending ▸ hs.pending, h.root ▸ hs.guards, hperm, h.ledger ▸ hs.ledger,
          h.issues ▸ hs.issues⟩
      acts := fun htasks hs _ ↦ absurd (htasks.symm.trans hs.tasks) (List.cons_ne_nil _ _)
      root := fun {t u} hs h ↦ by
        have hguards := hs.guards
        generalize t.root = phase at hguards h
        cases h with
        | finish => exact ⟨hs.pending, rfl, hs.tasks, hs.ledger, hs.issues⟩
        | wait => exact hs
        | rest => exact hs
        | _ => cases hguards
      cancel := fun hs ↦ ⟨hs.pending, hs.guards, hs.tasks, hs.ledger, hs.issues⟩ }
  breakOff hi hs := by
    rw [hs.tasks] at hi
    exact absurd hi (Nat.not_lt_zero _)

theorem still_of_pending_eq_zero (hs : Counted s) (h : s.pending = 0) : Still s s := by
  have hpending := hs.pending
  exact ⟨h, by omega, List.eq_nil_of_length_eq_zero (by omega), rfl, rfl⟩

/-! ## What is never taken back -/

/-- All that is in the ledger and among the issues of one state is there in the other one. -/
structure Grown (s t : Scan) : Prop where
  ledger : s.ledger.Extends t.ledger
  issues : s.issues ⊆ t.issues

theorem Grown.refl (s : Scan) : Grown s s := ⟨.refl _, List.Subset.refl _⟩

theorem Grown.trans (h : Grown s t) (h' : Grown t u) : Grown s u :=
  ⟨h.ledger.trans h'.ledger, fun _ hmem ↦ h'.issues (h.issues hmem)⟩

theorem Alike.grown (h : Alike s t) : Grown s t :=
  ⟨h.ledger ▸ .refl _, h.issues ▸ List.Subset.refl _⟩

theorem Acts.grown {ts : List Task} {owner : Path} {specifier : String} {phase : Phase}
    (h : Acts plan files s ts owner specifier phase u) : Grown s u := by
  cases h with
  | claimScript | claimLeaf => exact ⟨Ledger.extends_claim, List.Subset.refl _⟩
  | mark | describe => exact ⟨Ledger.extends_setDescriptor, List.Subset.refl _⟩
  | link => exact ⟨Ledger.extends_addDependent, List.Subset.refl _⟩
  | report | reportModule => exact ⟨.refl _, List.subset_cons_self _ _⟩
  | _ => exact ⟨.refl _, List.Subset.refl _⟩

theorem RootActs.grown {phase : RootPhase} (h : RootActs plan s phase u) : Grown s u := by
  cases h with
  | claim => exact ⟨Ledger.extends_claim, List.Subset.refl _⟩
  | describe => exact ⟨Ledger.extends_setDescriptor, List.Subset.refl _⟩
  | _ => exact ⟨.refl _, List.Subset.refl _⟩

theorem cancel_grown (s : Scan) : Grown s s.cancel := ⟨.refl _, List.Subset.refl _⟩

theorem lasting_grown : Lasting plan (Grown s) where
  kept _ :=
    { alike := fun h hs ↦ hs.trans h.grown
      acts := fun _ hs h ↦ hs.trans h.grown
      root := fun hs h ↦ hs.trans h.grown
      cancel := fun hs ↦ hs.trans (cancel_grown _) }
  breakOff hi hs := by
    rw [breakOff_eq hi]
    exact ⟨hs.ledger, hs.issues⟩

/-! ## Files without a descriptor -/

end Scan

/-- The file that a task is to set the descriptor of. -/
def Phase.awaited : Phase → Option Path
  | .marking target => some target
  | .queueing target => some target
  | .loading target => some target
  | .describing target _ => some target
  | _ => none

/-- The file that the root is to set the descriptor of. -/
def RootPhase.awaited (plan : ScanPlan) : RootPhase → List Path
  | .describing _ => [plan.entry]
  | _ => []

namespace Scan

variable {plan : ScanPlan} {files : FileTree} {s t u v : Scan}

/-- The files that are waiting for their descriptor. -/
def awaited (plan : ScanPlan) (s : Scan) : List Path :=
  s.tasks.filterMap (·.phase.awaited) ++ s.root.awaited plan

/-- Every file that waits for its descriptor waits for one task only, or for the root, which has
the ledger to itself in the beginning. -/
structure Fresh (plan : ScanPlan) (s : Scan) : Prop where
  awaits : s.ledger.Awaits (s.awaited plan)
  start : ∀ facts, s.root = .claiming facts → s.tasks = [] ∧ s.ledger = ∅

theorem kept_fresh : Kept plan files (Fresh plan) where
  alike h hs := by
    refine ⟨?_, fun facts hroot ↦ ?_⟩
    · rw [← h.ledger]
      refine hs.awaits.perm ?_
      rw [awaited, awaited, h.root]
      exact (h.tasks.filterMap _).append_right _
    · obtain ⟨htasks, hledger⟩ := hs.start facts (h.root.trans hroot)
      have hperm := h.tasks
      rw [htasks, List.nil_perm] at hperm
      exact ⟨hperm, h.ledger ▸ hledger⟩
  acts {s u ts owner specifier phase} htasks hs h := by
    have hawaits := hs.awaits
    rw [awaited, htasks] at hawaits
    have hstart : ∀ facts, s.root ≠ .claiming facts := fun facts hroot ↦
      List.cons_ne_nil _ _ (htasks.symm.trans (hs.start facts hroot).1)
    cases h with
    | claimScript hnew | claimLeaf hnew =>
      exact ⟨hawaits.claim hnew, fun facts hroot ↦ absurd hroot (hstart facts)⟩
    | mark | describe =>
      exact ⟨hawaits.setDescriptor, fun facts hroot ↦ absurd hroot (hstart facts)⟩
    | link => exact ⟨hawaits.addDependent, fun facts hroot ↦ absurd hroot (hstart facts)⟩
    | loadFault =>
      exact ⟨hawaits.sublist (List.sublist_cons_self _ _),
        fun facts hroot ↦ absurd hroot (hstart facts)⟩
    | _ => exact ⟨hawaits, fun facts hroot ↦ absurd hroot (hstart facts)⟩
  root {s u} hs h := by
    have hawaits := hs.awaits
    have hstart := hs.start
    rw [awaited] at hawaits
    generalize s.root = phase at hawaits hstart h
    cases h with
    | @claim facts =>
      obtain ⟨htasks, hledger⟩ := hstart facts rfl
      refine ⟨?_, by simp⟩
      rw [htasks] at hawaits
      have hnew : s.ledger.contains plan.entry = false := by rw [hledger]; rfl
      simpa [awaited, htasks, RootPhase.awaited] using hawaits.claim hnew
    | describe =>
      refine ⟨?_, by simp⟩
      have hfirst := hawaits.perm (List.perm_append_singleton plan.entry _)
      simpa [awaited, RootPhase.awaited] using hfirst.setDescriptor
    | wait | rest => exact hs
    | _ => exact ⟨hawaits, by simp⟩
  cancel hs := ⟨hs.awaits, hs.start⟩

theorem lasting_fresh : Lasting plan (Fresh plan) where
  kept _ := kept_fresh
  breakOff {s i} hi hs := by
    rw [breakOff_eq hi]
    refine ⟨hs.awaits.sublist ?_, fun facts hroot ↦ ?_⟩
    · exact ((List.eraseIdx_sublist s.tasks i).filterMap _).append_right _
    · rw [(hs.start facts hroot).1] at hi
      exact absurd hi (Nat.not_lt_zero i)

theorem fresh_start (maxConcurrency : Nat) (facts : Source.ModuleFacts) :
    Fresh plan (.start maxConcurrency facts) :=
  ⟨Ledger.awaits_nil _, fun _ _ ↦ ⟨rfl, rfl⟩⟩

/-! ## Records -/

end Scan

/-- What a task or the root writes down for the outcome. -/
inductive Record
  /-- A file belongs to the graph. -/
  | file (path : Path)
  /-- A file has a descriptor. -/
  | descriptor (path : Path) (d : Descriptor)
  /-- A file is imported by another one. -/
  | dependent (path importer : Path)
  /-- Something is wrong with an import. -/
  | issue (issue : Issue)

/-- What a task writes down with its next step. -/
def Task.record? (task : Task) : Option Record :=
  match task.phase with
  | .claiming target => some (.file target)
  | .marking target => some (.descriptor target ∅)
  | .describing target facts => some (.descriptor target facts.descriptor)
  | .reporting issue _ => some (.issue issue)
  | .linking target => some (.dependent target task.owner)
  | _ => none

/-- What the root writes down with its next step. -/
def RootPhase.record? (plan : ScanPlan) : RootPhase → Option Record
  | .claiming _ => some (.file plan.entry)
  | .describing facts => some (.descriptor plan.entry facts.descriptor)
  | _ => none

/-- A record is in an outcome. -/
def ScanOutcome.Shows (outcome : ScanOutcome) : Record → Prop
  | .file p => outcome.snapshot.contains p = true
  | .descriptor p d => ∃ node, outcome.snapshot.get? p = some node ∧ node.descriptor = d
  | .dependent p importer =>
    ∃ node, outcome.snapshot.get? p = some node ∧ ∃ d ∈ node.dependents, importer.same d = true
  | .issue issue => issue ∈ outcome.issues

namespace Scan

variable {plan : ScanPlan} {files : FileTree} {s t u v : Scan} {r : Record}

/-- The snapshot and the issues in a state. -/
def taken (plan : ScanPlan) (s : Scan) : ScanOutcome :=
  ⟨s.ledger.snapshot plan.root plan.entry, Issue.sort s.issues⟩

/-- A task or the root takes a step from one state to the other one, and writes a record down. -/
inductive Makes (plan : ScanPlan) (s : Scan) (r : Record) : Scan → Prop
  | task {i : Nat} {task : Task} (files : FileTree) : s.tasks[i]? = some task →
      task.record? = some r → Makes plan s r ((s.step plan i).run files)
  | root : s.root.record? plan = some r → Makes plan s r (s.rootStep plan)

/-- A record is in the ledger or among the issues. -/
def Holds (s : Scan) : Record → Prop
  | .file p => s.ledger.contains p = true
  | .descriptor p d => ∃ k e, s.ledger.Has k e ∧ p.parts = k.parts ∧ e.descriptor = some d
  | .dependent p importer =>
    ∃ k e, s.ledger.Has k e ∧ p.parts = k.parts ∧ e.dependents.contains importer = true
  | .issue issue => issue ∈ s.issues

theorem Holds.mono (h : s.Holds r) (hst : Grown s t) : t.Holds r := by
  cases r with
  | file p => exact hst.ledger.contains h
  | descriptor p d =>
    obtain ⟨k, e, he, hp, hd⟩ := h
    obtain ⟨e', he', hee'⟩ := hst.ledger k e he
    exact ⟨k, e', he', hp, hee'.descriptor d hd⟩
  | dependent p importer =>
    obtain ⟨k, e, he, hp, hd⟩ := h
    obtain ⟨e', he', hee'⟩ := hst.ledger k e he
    obtain ⟨o, ho, himporter⟩ := PathSet.contains_iff.1 hd
    exact ⟨k, e', he', hp, PathSet.contains_iff.2 ⟨o, hee'.dependents o ho, himporter⟩⟩
  | issue issue => exact hst.issues h

theorem Holds.alike (h : s.Holds r) (hst : Alike s t) : t.Holds r := h.mono hst.grown

theorem Holds.shows (h : s.Holds r) : (s.taken plan).Shows r := by
  cases r with
  | file p => exact (Ledger.contains_snapshot _ _ _).trans h
  | descriptor p d =>
    obtain ⟨k, e, he, hp, hd⟩ := h
    refine ⟨_, Ledger.get?_snapshot_eq_some_iff.2 ⟨k, e, he, hp, rfl⟩, ?_⟩
    rw [Ledger.nodeOf, hd, Option.getD_some]
  | dependent p importer =>
    obtain ⟨k, e, he, hp, hd⟩ := h
    obtain ⟨o, ho, himporter⟩ := PathSet.contains_iff.1 hd
    exact ⟨_, Ledger.get?_snapshot_eq_some_iff.2 ⟨k, e, he, hp, rfl⟩, o, ho,
      Path.same_iff.2 himporter⟩
  | issue issue => exact List.mem_mergeSort.2 h

theorem Acts.holds {ts : List Task} {owner : Path} {specifier : String} {phase : Phase}
    (h : Acts plan files s ts owner specifier phase u)
    (htasks : s.tasks = ⟨owner, specifier, phase⟩ :: ts) (hs : Fresh plan s)
    (hr : Task.record? ⟨owner, specifier, phase⟩ = some r) : u.Holds r := by
  have hawaits := hs.awaits
  rw [awaited, htasks] at hawaits
  cases h with
  | claimOld hold => cases hr; exact hold
  | claimScript | claimLeaf => cases hr; exact Ledger.contains_claim
  | mark | describe =>
    cases hr
    exact (hawaits.unset _ List.mem_cons_self).exists_setDescriptor
      (hawaits.contains _ List.mem_cons_self)
  | report | reportModule => cases hr; exact List.mem_cons_self
  | link => cases hr; exact Ledger.exists_addDependent
  | _ => cases hr

theorem RootActs.holds {phase : RootPhase} (h : RootActs plan s phase u) (hphase : s.root = phase)
    (hs : Fresh plan s) (hr : phase.record? plan = some r) : u.Holds r := by
  cases h with
  | claim => cases hr; exact Ledger.contains_claim
  | describe =>
    cases hr
    have hawaits := hs.awaits
    rw [awaited, hphase] at hawaits
    have hmem : plan.entry ∈ s.tasks.filterMap (·.phase.awaited) ++ [plan.entry] := by simp
    exact (hawaits.unset _ hmem).exists_setDescriptor (hawaits.contains _ hmem)
  | _ => cases hr

/-- What is written down with a step is there after it. -/
theorem Makes.holds (h : Makes plan s r t) (hs : Fresh plan s) : t.Holds r := by
  cases h with
  | @task i task files hget hr =>
    obtain ⟨u, hu, halike⟩ := step_acts plan files hget
    have hfresh := (kept_fresh : Kept plan files (Fresh plan)).alike (alike_of_getElem? hget) hs
    exact (hu.withTasks.holds rfl hfresh hr).alike halike
  | root hr =>
    obtain ⟨u, hu, halike⟩ := rootStep_acts plan s
    exact (hu.holds rfl hs hr).alike halike

/-! ## All that is to be said of pending guards -/

/-- What the count of guards says of a state that a scan has come to, from its start with these
facts of the entry. -/
structure Guarded (plan : ScanPlan) (maxConcurrency : Nat) (facts : Source.ModuleFacts)
    (s : Scan) : Prop where
  /-- The guards that are alive are those of the tasks and that of the root. -/
  count : s.pending = s.tasks.length + s.root.guards
  /-- A guard that is to be dropped is counted. -/
  live : s.tasks ≠ [] ∨ 0 < s.root.guards → 0 < s.pending
  /-- A guard is taken by a task that has not left, or by the root while it holds its own. -/
  schedule : ∀ t, Disturbed plan s t → s.pending < t.pending →
    (∃ files i, i < s.tasks.length ∧ t = (s.step plan i).run files) ∨
      0 < s.root.guards ∧ t = s.rootStep plan
  /-- After the last guard nothing moves any more. -/
  zero : s.pending = 0 → ∀ t, Run plan s t →
    t.pending = 0 ∧ t.tasks = [] ∧ t.ledger = s.ledger ∧ t.issues = s.issues
  /-- The root is done waiting only after the last guard. -/
  finished : s.isFinished = true → s.pending = 0
  /-- What the root takes then has everything in it that was ever written down. -/
  complete : s.isFinished = true → ∀ u v r, Run plan (.start maxConcurrency facts) u →
    Makes plan u r v → Run plan v s → (s.taken plan).Shows r

theorem lt_pending_of_disturbed (h : Disturbed plan s t)
    (hpending : s.pending < t.pending) :
    (∃ files i, i < s.tasks.length ∧ t = (s.step plan i).run files) ∨
      0 < s.root.guards ∧ t = s.rootStep plan := by
  cases h with
  | breakOff i hi =>
    rw [breakOff_eq hi] at hpending
    exact absurd hpending (by simp)
  | next files hnext =>
    cases hnext with
    | task i hi => exact .inl ⟨files, i, hi, rfl⟩
    | cancel => exact absurd hpending (Nat.lt_irrefl _)
    | root =>
      refine .inr ⟨?_, rfl⟩
      rw [rootStep] at hpending
      cases hroot : s.root with
      | waiting =>
        simp only [hroot] at hpending
        split at hpending <;> exact absurd hpending (Nat.lt_irrefl _)
      | finished =>
        simp only [hroot] at hpending
        exact absurd hpending (Nat.lt_irrefl _)
      | _ => exact Nat.one_pos

/-- The count of guards is exact, and zero is the end. -/
theorem guarded_of_run {maxConcurrency : Nat} {facts : Source.ModuleFacts}
    (h : Run plan (.start maxConcurrency facts) s) : Guarded plan maxConcurrency facts s := by
  have hs : Counted s := lasting_counted.run (counted_start maxConcurrency facts) h
  have hfinished : s.isFinished = true → s.pending = 0 := fun hf ↦ by
    have hroot := isFinished_iff.1 hf
    rw [hs.pending, hs.finished hroot, hroot]
    rfl
  refine ⟨hs.pending, ?_, fun t ht ↦ lt_pending_of_disturbed ht, fun hzero t ht ↦ ?_, hfinished,
    fun hf u v r hu hr hv ↦ ?_⟩
  · have hpending := hs.pending
    rintro (htasks | hguards)
    · have := List.length_pos_iff.2 htasks
      omega
    · omega
  · have hstill := lasting_still.run (still_of_pending_eq_zero hs hzero) ht
    exact ⟨hstill.pending, hstill.tasks, hstill.ledger, hstill.issues⟩
  · have hfresh : Fresh plan u := lasting_fresh.run (fresh_start maxConcurrency facts) hu
    exact ((hr.holds hfresh).mono (lasting_grown.run (.refl v) hv)).shows

/-- The one task of a scan breaks off as soon as it is started, and the root goes on. -/
theorem guarded_of_task_broken_off :
    ∃ s, Run default (.start 1 ⟨[⟨.static, "./a.js"⟩], ∅⟩) s ∧ s.isFinished = true ∧
      Guarded default 1 ⟨[⟨.static, "./a.js"⟩], ∅⟩ s := by
  have root (t : Scan) : Disturbed default t (t.rootStep default) := .next (.ofTexts []) .root
  have h : Run default (.start 1 ⟨[⟨.static, "./a.js"⟩], ∅⟩) _ :=
    ((((((Relation.ReflTransGen.refl.tail (root _)).tail (root _)).tail (root _)).tail
      (.breakOff 0 (by decide))).tail (root _)).tail (root _)).tail (root _)
  exact ⟨_, h, by decide, guarded_of_run h⟩

end Scan
end ImpactGraph
