import ImpactGraph.Proofs.Scan.Once
import ImpactGraph.Proofs.Scan.Outcome
import ImpactGraph.Proofs.Scan.Reported
import Mathlib.Data.Prod.Lex
import Mathlib.Data.Set.Card

/-!
# Every scan comes to an end

A task starts tasks only for a file that is new, and where the graph is finite there are only so
many of these.  So the steps of a scan that change anything bring it nearer to its end: either fewer
files of the graph are left to be claimed, or as many files and less `work`, a count of the steps
that tasks and the root are still to take.

While anything is pending some step changes something: a task waits only for its turn to load, and
the tasks that hold the permits wait for nothing (`Metered`).

`Launched` says for which imports tasks are started until a scan is over.
-/

set_option autoImplicit false

namespace ImpactGraph

/-- The number of steps that a task takes from a phase on, and that those tasks take that it has
still to start; `n` is how many tasks are started for a file. -/
def Phase.work (n : Path → Nat) : Phase → Nat
  | .entering => 10
  | .resolving => 9
  | .claiming _ => 8
  | .queueing t => 7 + 11 * n t
  | .loading t => 6 + 11 * n t
  | .describing t _ => 5 + 11 * n t
  | .checking t _ => 4 + 11 * n t
  | .spawning _ names => 3 + 11 * names.length
  | .marking _ | .reporting _ _ => 3
  | .linking _ => 2
  | .leaving => 1

/-- The number of steps that the root takes from a phase on, and that its tasks take. -/
def RootPhase.work (plan : ScanPlan) : RootPhase → Nat
  | .claiming facts => 5 + 11 * (plan.followed facts.imports).length
  | .describing facts => 4 + 11 * (plan.followed facts.imports).length
  | .spawning names => 3 + 11 * names.length
  | .leaving => 2
  | .waiting => 1
  | .finished => 0

namespace Scan

variable {plan : ScanPlan} {files : FileTree} {s t u : Scan} {ts : List Task} {owner : Path}
  {specifier : String} {phase : Phase} {n : Path → Nat}

/-! ## Steps that change something -/

/-- A task or the root takes a step that changes something. -/
inductive Works (plan : ScanPlan) (files : FileTree) (s : Scan) : Scan → Prop
  | task {i : Nat} : i < s.tasks.length → (s.step plan i).run files ≠ s →
      Works plan files s ((s.step plan i).run files)
  | root : s.rootStep plan ≠ s → Works plan files s (s.rootStep plan)

/-- A step is taken that changes something. -/
structure Moves (plan : ScanPlan) (files : FileTree) (s t : Scan) : Prop where
  next : Next plan files s t
  ne : t ≠ s

/-- In whatever order the steps are taken from a state on, there are finitely many that change
something until a property holds. -/
inductive Inevitably (plan : ScanPlan) (files : FileTree) (P : Scan → Prop) : Scan → Prop
  | now {s : Scan} : P s → Inevitably plan files P s
  | later {s : Scan} : (∃ t, Works plan files s t) →
      (∀ t, Moves plan files s t → Inevitably plan files P t) → Inevitably plan files P s

theorem inevitably_of_rank {α : Type} [LT α] [WellFoundedLT α] (rank : Scan → α)
    {I P : Scan → Prop} (hkept : ∀ s t, I s → Moves plan files s t → I t ∧ rank t < rank s)
    (hworks : ∀ s, I s → P s ∨ ∃ t, Works plan files s t) (hs : I s) :
    Inevitably plan files P s := by
  induction hrank : rank s using WellFoundedLT.induction generalizing s with
  | ind a ih =>
    subst hrank
    rcases hworks s hs with hP | hw
    · exact .now hP
    · refine .later hw fun t ht ↦ ?_
      obtain ⟨hI, hlt⟩ := hkept s t hs ht
      exact ih (rank t) hlt hI rfl

/-! ## The work that is left -/

/-- The number of steps that are still to be taken, unless more files are claimed. -/
def work (plan : ScanPlan) (n : Path → Nat) (s : Scan) : Nat :=
  (s.tasks.map (·.phase.work n)).sum + s.root.work plan + if s.cancelled then 0 else 1

theorem Alike.work (h : Alike s t) : s.work plan n = t.work plan n := by
  rw [Scan.work, Scan.work, (h.tasks.map _).sum_eq, h.root, h.cancelled]

/-- A task that is not waiting leaves less work, unless it claims a file that tasks will be started
for. -/
theorem Acts.work_lt (h : Acts plan files s ts owner specifier phase u)
    (htasks : s.tasks = ⟨owner, specifier, phase⟩ :: ts) (hs : s.Sound plan files)
    (hn : s.cancelled = false → ∀ t, (plan.specifiers files t).length ≤ n t)
    (hpermits : ∀ t, phase = .queueing t → 0 < s.permits) :
    u.work plan n < s.work plan n ∨
      ∃ t, 0 < n t ∧ plan.IsNode files t ∧ s.ledger.contains t = false ∧
        u.ledger.contains t = true := by
  obtain ⟨howner, hspecifier, hphase⟩ := hs.head htasks
  rw [Scan.work, Scan.work, htasks, List.map_cons, List.sum_cons]
  cases h with
  | @claimScript t hnew =>
    rcases Nat.eq_zero_or_pos (n t) with hzero | hpos
    · refine .inl ?_
      simp only [List.map_cons, List.sum_cons, Phase.work, hzero]
      omega
    · refine .inr ⟨t, hpos, ?_, hnew, Ledger.contains_claim⟩
      exact .imported (hs.ledger.traced owner howner).isNode
        (ScanPlan.imports_of_mem hspecifier hphase)
  | @check t facts hcancelled =>
    have hlength := hn hcancelled t
    rw [ScanPlan.specifiers_eq hphase.2] at hlength
    refine .inl ?_
    simp only [List.map_cons, List.sum_cons, Phase.work]
    omega
  | wait hzero => exact absurd hzero (hpermits _ rfl).ne'
  | _ =>
    refine .inl ?_
    simp only [List.map_cons, List.sum_cons, List.length_cons, List.length_nil, Phase.work]
    omega

/-- The root leaves less work, unless it is waiting or finished. -/
theorem RootActs.work_lt {phase : RootPhase} (h : RootActs plan s phase u)
    (hroot : s.root = phase) (hwaiting : phase = .waiting → s.pending = 0)
    (hfinished : phase ≠ .finished) : u.work plan n < s.work plan n := by
  rw [Scan.work, Scan.work, hroot]
  cases h with
  | wait hpos => exact absurd (hwaiting rfl) hpos.ne'
  | rest => exact absurd rfl hfinished
  | _ =>
    simp only [List.map_cons, List.sum_cons, List.length_cons, List.length_nil, Phase.work,
      RootPhase.work]
    omega

/-- One state is nearer to the end than the other one: there is less work left, or a file has been
claimed that tasks will be started for. -/
def Nearer (plan : ScanPlan) (files : FileTree) (n : Path → Nat) (t s : Scan) : Prop :=
  t.work plan n < s.work plan n ∨
    ∃ p, 0 < n p ∧ plan.IsNode files p ∧ s.ledger.contains p = false ∧ t.ledger.contains p = true

theorem not_nearer_self : ¬Nearer plan files n s s := by
  rintro (h | ⟨p, -, -, hnew, hold⟩)
  · exact absurd h (Nat.lt_irrefl _)
  · rw [hnew] at hold
    cases hold

theorem step_nearer (hs : s.Sound plan files)
    (hn : s.cancelled = false → ∀ t, (plan.specifiers files t).length ≤ n t) {i : Nat} {task : Task}
    (htask : s.tasks[i]? = some task) (hpermits : ∀ t, task.phase = .queueing t → 0 < s.permits) :
    Nearer plan files n ((s.step plan i).run files) s := by
  obtain ⟨u, hu, halike⟩ := step_acts plan files htask
  have hfirst := alike_of_getElem? htask
  rw [Nearer, ← halike.work, ← halike.ledger, hfirst.work]
  exact hu.withTasks.work_lt rfl (hs.alike hfirst) hn hpermits

theorem rootStep_nearer (hwaiting : s.root = .waiting → s.pending = 0)
    (hfinished : s.root ≠ .finished) : Nearer plan files n (s.rootStep plan) s := by
  obtain ⟨u, hu, halike⟩ := rootStep_acts plan s
  rw [Nearer, ← halike.work]
  exact .inl (hu.work_lt rfl hwaiting hfinished)

theorem step_of_queueing {i : Nat} {task : Task} {t : Path} (htask : s.tasks[i]? = some task)
    (hphase : task.phase = .queueing t) (hpermits : s.permits = 0) :
    (s.step plan i).run files = s := by
  simp [step, htask, hphase, hpermits]

theorem Moves.nearer (h : Moves plan files s t) (hs : s.Sound plan files)
    (hn : s.cancelled = false → ∀ t, (plan.specifiers files t).length ≤ n t) :
    Nearer plan files n t s := by
  obtain ⟨hnext, hne⟩ := h
  cases hnext with
  | task i hi =>
    have htask := List.getElem?_eq_getElem hi
    refine step_nearer hs hn htask fun t ht ↦ Nat.pos_of_ne_zero fun hzero ↦ hne ?_
    exact step_of_queueing htask ht hzero
  | root =>
    refine rootStep_nearer (fun hwaiting ↦ ?_) fun hfinished ↦ hne ?_
    · by_contra hpending
      exact hne (by simp [rootStep, hwaiting, hpending])
    · simp [rootStep, hfinished]
  | cancel =>
    cases hc : s.cancelled with
    | true => exact absurd (by rw [cancel, ← hc]) hne
    | false =>
      refine .inl ?_
      simp [work, cancel, hc]

/-! ## Permits -/

/-- All permits are there: those that are left, and those of the tasks that load. -/
def Metered (maxConcurrency : Nat) (s : Scan) : Prop :=
  (s.tasks.map (·.phase.permits)).sum + s.permits = maxConcurrency

theorem lasting_metered {maxConcurrency : Nat} : Lasting plan (Metered maxConcurrency) where
  kept _ :=
    { alike := fun h hs ↦ by
        rw [Metered, ← (h.tasks.map _).sum_eq, ← h.permits]
        exact hs
      acts := fun htasks hs h ↦ by
        rw [Metered, htasks, List.map_cons, List.sum_cons] at hs
        cases h <;>
        · simp only [Metered, List.map_cons, List.sum_cons, Phase.permits] at hs ⊢
          omega
      root := fun {s u} hs h ↦ by
        generalize s.root = phase at h
        cases h with
        | spawn => simpa [Metered, Phase.permits] using hs
        | _ => exact hs
      cancel := fun hs ↦ hs }
  breakOff {s i} hi hs := by
    have hperm := (List.getElem_cons_eraseIdx_perm hi).map (·.phase.permits)
    rw [Metered, ← hperm.sum_eq, List.map_cons, List.sum_cons] at hs
    rw [breakOff_eq hi, Metered]
    simp only
    omega

theorem metered_start (maxConcurrency : Nat) (facts : Source.ModuleFacts) :
    Metered maxConcurrency (.start maxConcurrency facts) := Nat.zero_add _

/-- The number of tasks that are loading a file. -/
def loading (s : Scan) : Nat :=
  s.tasks.countP fun
    | ⟨_, _, .loading _⟩ => true
    | _ => false

theorem Metered.loading_le {maxConcurrency : Nat} (h : Metered maxConcurrency s) :
    s.loading ≤ maxConcurrency := by
  have hsum (tasks : List Task) : (tasks.countP fun
      | ⟨_, _, .loading _⟩ => true
      | _ => false) = (tasks.map (·.phase.permits)).sum := by
    induction tasks with
    | nil => rfl
    | cons task tasks ih =>
      rw [List.countP_cons, ih, List.map_cons, List.sum_cons, Nat.add_comm]
      obtain ⟨owner, specifier, phase⟩ := task
      cases phase <;> rfl
  rw [loading, hsum, ← show _ = maxConcurrency from h]
  exact Nat.le_add_right _ _

/-- Some task can go on, even if all permits are taken. -/
theorem Metered.exists_step {maxConcurrency : Nat} (h : Metered maxConcurrency s)
    (hmax : 0 < maxConcurrency) (hs : s.Sound plan files) (htasks : s.tasks ≠ []) :
    ∃ i, i < s.tasks.length ∧ (s.step plan i).run files ≠ s := by
  by_cases hfree : ∃ task ∈ s.tasks, ∀ t, task.phase = .queueing t → 0 < s.permits
  · obtain ⟨task, hmem, hpermits⟩ := hfree
    obtain ⟨i, hi, rfl⟩ := List.getElem_of_mem hmem
    refine ⟨i, hi, fun heq ↦ ?_⟩
    have hnearer := step_nearer hs (fun _ _ ↦ le_rfl) (List.getElem?_eq_getElem hi) hpermits
    rw [heq] at hnearer
    exact not_nearer_self hnearer
  · -- all tasks would be waiting for a permit, and nobody would have one
    push Not at hfree
    have hpermits : ∀ n ∈ s.tasks.map (·.phase.permits), n = 0 := by
      intro n hn
      obtain ⟨task, hmem, rfl⟩ := List.mem_map.1 hn
      obtain ⟨t, hphase, -⟩ := hfree task hmem
      rw [hphase]
      rfl
    obtain ⟨task, hmem⟩ := List.exists_mem_of_ne_nil _ htasks
    obtain ⟨t, -, hzero⟩ := hfree task hmem
    rw [Metered, List.sum_eq_zero hpermits] at h
    omega

/-- Without tasks the root can go on until it is finished. -/
theorem Counted.rootStep_ne (h : Counted s) (htasks : s.tasks = []) (hroot : s.root ≠ .finished) :
    s.rootStep plan ≠ s := by
  intro heq
  have hwaiting : s.root = .waiting → s.pending = 0 := fun hwaiting ↦ by
    rw [h.pending, htasks, hwaiting]
    rfl
  have hnearer : Nearer plan (.ofTexts []) (fun _ ↦ 0) (s.rootStep plan) s :=
    rootStep_nearer hwaiting hroot
  rw [heq] at hnearer
  exact not_nearer_self hnearer

section reachable

variable {maxConcurrency : Nat} {facts : Source.ModuleFacts}
  (h : Reachable plan files maxConcurrency facts s)
include h

theorem Reachable.counted : Counted s := kept_counted.reachable (counted_start _ _) h

theorem Reachable.metered : Metered maxConcurrency s :=
  (lasting_metered.kept files).reachable (metered_start _ _) h

variable (hwalked : plan.walked? files plan.entry = some facts)
include hwalked

theorem Reachable.sound : s.Sound plan files := kept_sound.reachable (sound_start hwalked) h

/-- As long as a scan is not finished, a task can go on, and without tasks the root can. -/
theorem Reachable.exists_step (hmax : 0 < maxConcurrency) (hroot : s.root ≠ .finished) :
    (∃ i, i < s.tasks.length ∧ (s.step plan i).run files ≠ s) ∨
      s.tasks = [] ∧ s.rootStep plan ≠ s := by
  by_cases htasks : s.tasks = []
  · exact .inr ⟨htasks, h.counted.rootStep_ne htasks hroot⟩
  · exact .inl (h.metered.exists_step hmax (h.sound hwalked) htasks)

theorem Reachable.exists_works (hmax : 0 < maxConcurrency) (hfinished : s.isFinished = false) :
    ∃ t, Works plan files s t := by
  have hroot : s.root ≠ .finished := fun hroot ↦ by
    rw [isFinished_iff.2 hroot] at hfinished
    cases hfinished
  obtain ⟨i, hi, hne⟩ | ⟨-, hne⟩ := h.exists_step hwalked hmax hroot
  · exact ⟨_, .task hi hne⟩
  · exact ⟨_, .root hne⟩

end reachable

/-! ## How far a scan is from its end -/

/-- The files of the graph that are still to be claimed, by their parts. -/
def unclaimed (plan : ScanPlan) (files : FileTree) (s : Scan) : Set (List Part) :=
  {parts | ∃ t, plan.IsNode files t ∧ t.parts = parts ∧ s.ledger.contains t = false}

/-- How far a state is from the end: first, how many files are still to be claimed, and then, how
much work is left. -/
noncomputable def rank (plan : ScanPlan) (files : FileTree) (s : Scan) : ℕ ×ₗ ℕ :=
  toLex ((unclaimed plan files s).ncard, s.work plan fun t ↦ (plan.specifiers files t).length)

theorem Grown.unclaimed_subset (h : Grown s t) :
    unclaimed plan files t ⊆ unclaimed plan files s := by
  rintro parts ⟨p, hp, hparts, hnew⟩
  refine ⟨p, hp, hparts, ?_⟩
  by_contra hold
  rw [h.ledger.contains (by simpa using hold)] at hnew
  cases hnew

/-- Where the graph is finite, every step that changes something leads nearer to the end. -/
theorem Moves.rank_lt (hfinite : (Path.parts '' {t | plan.IsNode files t}).Finite)
    (hs : s.Sound plan files) (h : Moves plan files s t) :
    rank plan files t < rank plan files s := by
  have hgrown : Grown s t := (lasting_grown.kept files).next (.refl s) h.next
  have hfinite' : (unclaimed plan files s).Finite :=
    hfinite.subset fun parts ⟨p, hp, hparts, _⟩ ↦ ⟨p, hp, hparts⟩
  have hsubset : unclaimed plan files t ⊆ unclaimed plan files s := hgrown.unclaimed_subset
  have hle := Set.ncard_le_ncard hsubset hfinite'
  rw [rank, rank, Prod.Lex.toLex_lt_toLex]
  rcases h.nearer hs fun _ _ ↦ le_rfl with hwork | ⟨p, -, hp, hnew, hold⟩
  · exact hle.lt_or_eq.imp_right fun heq ↦ ⟨heq, hwork⟩
  · refine .inl (Set.ncard_lt_ncard ⟨hsubset, fun hsuperset ↦ ?_⟩ hfinite')
    obtain ⟨q, -, hparts, hnew'⟩ := hsuperset ⟨p, hp, rfl, hnew⟩
    rw [Ledger.contains_congr hparts, hold] at hnew'
    cases hnew'

/-! ## The imports that tasks are started for -/

variable {log : List Event} {phase' : Phase}

/-- The imports that tasks are still to be started for. -/
def unstarted (plan : ScanPlan) (files : FileTree) (s : Scan) : List (Path × String) :=
  s.tasks.flatMap (·.phase.unstarted plan files) ++ s.root.unstarted plan files

/-- Tasks are started for imports of the files of the ledger, and unless the scan is cancelled, for
all of them. -/
structure Launched (plan : ScanPlan) (files : FileTree) (log : List Event) (s : Scan) : Prop
    extends Sound plan files s where
  edge : ∀ edge ∈ launches log, edge.1 ∈ s.ledger.keys ∧ edge.2 ∈ plan.specifiers files edge.1
  complete : s.cancelled = false → ∀ k ∈ s.ledger.keys, ∀ name ∈ plan.specifiers files k,
    (k, name) ∈ launches log ++ s.unstarted plan files

/-- A task goes on to a phase in which it is still to start the tasks for files that are new, and
those that it had to start before. -/
theorem Launched.advance {log' : List Event} (h : s.Launched plan files log)
    (hstep : Advances s u ts owner specifier phase phase') (hu : u.Sound plan files)
    (hsu : Grown s u) (hlaunches : launches log' = launches log)
    (hkeys : ∀ k ∈ u.ledger.keys, k ∈ s.ledger.keys ∨
      ∀ name ∈ plan.specifiers files k, (k, name) ∈ phase'.unstarted plan files)
    (hunstarted : s.cancelled = false → phase.unstarted plan files ⊆ phase'.unstarted plan files) :
    u.Launched plan files log' where
  toSound := hu
  edge edge hedge := by
    rw [hlaunches] at hedge
    exact ⟨hsu.ledger.mem_keys (h.edge edge hedge).1, (h.edge edge hedge).2⟩
  complete hc k hk name hname := by
    rw [hstep.cancelled] at hc
    rw [hlaunches, unstarted, hstep.after, hstep.root, List.flatMap_cons]
    rcases hkeys k hk with hk | hnew
    · have hold := h.complete hc k hk name hname
      rw [unstarted, hstep.before, List.flatMap_cons] at hold
      simp only [List.mem_append] at hold ⊢
      exact hold.imp_right (Or.imp_left (Or.imp_left fun hmem ↦ hunstarted hc hmem))
    · have hmem := hnew name hname
      simp only [List.mem_append]
      exact .inr (.inl (.inl hmem))

theorem launched_acts (h : s.Launched plan files log)
    (htasks : s.tasks = ⟨owner, specifier, phase⟩ :: ts)
    (hu : Acts plan files s ts owner specifier phase u) :
    u.Launched plan files
      ((Task.event? plan files s.ledger ⟨owner, specifier, phase⟩).toList ++ log) := by
  have hsound := sound_acts h.toSound htasks hu
  have hsu := hu.grown
  obtain ⟨-, -, hphase⟩ := h.head htasks
  cases hu with
  | enter | giveUp | toFile | toPackage | toNothing | claimOld | wait | queue | load | report |
    reportModule | spawned =>
    exact h.advance ⟨htasks, rfl, rfl, rfl⟩ hsound hsu rfl (fun _ ↦ .inl)
      fun _ ↦ List.Subset.refl _
  | claimScript hnew =>
    refine h.advance ⟨htasks, rfl, rfl, rfl⟩ hsound hsu rfl (fun k hk ↦ ?_)
      fun _ ↦ List.nil_subset _
    rcases (Ledger.mem_keys_claim hnew).1 hk with rfl | hk
    · exact .inr fun name hname ↦ List.mem_map_of_mem hname
    · exact .inl hk
  | claimLeaf hnew hleaf =>
    refine h.advance ⟨htasks, rfl, rfl, rfl⟩ hsound hsu rfl (fun k hk ↦ ?_)
      fun _ ↦ List.nil_subset _
    rcases (Ledger.mem_keys_claim hnew).1 hk with rfl | hk
    · refine .inr fun name hname ↦ ?_
      obtain ⟨-, -, howns, -⟩ := hsound.head rfl
      rw [ScanPlan.specifiers_eq_nil (ScanPlan.walked?_eq_none_of_leaf howns.ne hleaf)] at hname
      exact absurd hname List.not_mem_nil
    · exact .inl hk
  | mark | describe =>
    exact h.advance ⟨htasks, rfl, rfl, rfl⟩ hsound hsu rfl
      (fun _ hk ↦ .inl (Ledger.mem_keys_setDescriptor.1 hk)) fun _ ↦ List.Subset.refl _
  | loadFault hfault =>
    refine h.advance ⟨htasks, rfl, rfl, rfl⟩ hsound hsu rfl (fun _ ↦ .inl) fun _ ↦ ?_
    rw [Phase.unstarted, ScanPlan.specifiers_eq_nil (ScanPlan.walked?_eq_none_of_error hfault)]
    exact List.nil_subset _
  | check =>
    refine h.advance ⟨htasks, rfl, rfl, rfl⟩ hsound hsu rfl (fun _ ↦ .inl) fun _ ↦ ?_
    rw [Phase.unstarted, Phase.unstarted, ScanPlan.specifiers_eq hphase.2]
    exact List.Subset.refl _
  | checkCancelled hcancelled =>
    exact h.advance ⟨htasks, rfl, rfl, rfl⟩ hsound hsu rfl (fun _ ↦ .inl) (by simp [hcancelled])
  | link =>
    exact h.advance ⟨htasks, rfl, rfl, rfl⟩ hsound hsu rfl
      (fun _ hk ↦ .inl ((Ledger.mem_keys_addDependent hphase.2).1 hk))
      fun _ ↦ List.Subset.refl _
  | @spawn t name names =>
    obtain ⟨howns, hnames⟩ := hphase
    refine ⟨hsound, ?_, fun hc k hk sp hsp ↦ ?_⟩
    · exact List.forall_mem_cons.2 ⟨⟨howns.mem, hnames.subset List.mem_cons_self⟩, h.edge⟩
    · have hold := h.complete hc k hk sp hsp
      rw [unstarted, htasks] at hold
      exact List.perm_middle.mem_iff.1 hold
  | leave =>
    refine ⟨hsound, h.edge, fun hc k hk sp hsp ↦ ?_⟩
    have hold := h.complete hc k hk sp hsp
    rwa [unstarted, htasks] at hold

theorem launched_rootActs (h : s.Launched plan files log) (hu : RootActs plan s s.root u) :
    u.Launched plan files ((s.root.event? plan s.ledger).toList ++ log) := by
  have hsound := sound_rootActs h.toSound hu
  have hroot := h.root
  have hold := h.complete
  rw [unstarted] at hold
  generalize s.root = phase at hroot hu hold
  cases hu with
  | claim =>
    obtain ⟨-, hledger, htasks, -⟩ := hroot
    have hnew : s.ledger.contains plan.entry = false := by rw [hledger]; rfl
    refine ⟨hsound, fun edge hedge ↦ ?_, fun hc k hk name hname ↦ ?_⟩
    · obtain ⟨hmem, hspecifier⟩ := h.edge edge hedge
      exact ⟨Ledger.extends_claim.mem_keys hmem, hspecifier⟩
    · rcases (Ledger.mem_keys_claim hnew).1 hk with rfl | hk
      · exact List.mem_append_right _ (List.mem_append_right _ (List.mem_map_of_mem hname))
      · rw [hledger] at hk
        exact absurd hk List.not_mem_nil
  | describe =>
    refine ⟨hsound, fun edge hedge ↦ ?_, fun hc k hk name hname ↦ ?_⟩
    · obtain ⟨hmem, hspecifier⟩ := h.edge edge hedge
      exact ⟨Ledger.mem_keys_setDescriptor.2 hmem, hspecifier⟩
    · rw [unstarted, RootPhase.unstarted, ← ScanPlan.specifiers_eq hroot.2]
      exact hold hc k (Ledger.mem_keys_setDescriptor.1 hk) name hname
  | @spawn name names =>
    refine ⟨hsound, ?_, fun hc k hk sp hsp ↦ ?_⟩
    · exact List.forall_mem_cons.2
        ⟨⟨hroot.1, hroot.2.subset List.mem_cons_self⟩, h.edge⟩
    · have hmem := hold hc k hk sp hsp
      rw [← List.append_assoc] at hmem
      have hperm := List.perm_middle.mem_iff.1 hmem
      rw [List.append_assoc] at hperm
      exact hperm
  | spawned | leave | finish => exact ⟨hsound, h.edge, hold⟩
  | wait | rest => exact h

theorem recorded_launched :
    Recorded plan (Move.Over files) (Launched plan files) where
  alike {log s t} hst h := by
    refine ⟨h.toSound.alike hst, fun edge hedge ↦ hst.ledger ▸ h.edge edge hedge,
      fun hc k hk name hname ↦ ?_⟩
    have hold := h.complete (hst.cancelled.trans hc) k (hst.ledger ▸ hk) name hname
    rw [unstarted, ← hst.root]
    exact (((hst.tasks.flatMap_right _).append_right _).append_left _).mem_iff.1 hold
  acts hfiles htasks h hu := by
    obtain rfl := hfiles
    exact launched_acts h htasks hu
  root h hu := launched_rootActs h hu
  cancel h := ⟨kept_sound.cancel h.toSound, h.edge, by simp [cancel]⟩
  breakOff hfalse := hfalse.elim

theorem launched_start {maxConcurrency : Nat} {facts : Source.ModuleFacts}
    (h : plan.walked? files plan.entry = some facts) :
    Launched plan files [] (.start maxConcurrency facts) :=
  ⟨sound_start h, by simp [launches], fun _ _ hk ↦ absurd hk List.not_mem_nil⟩

theorem launched_play {maxConcurrency : Nat} {facts : Source.ModuleFacts} {ms : List Move}
    (h : plan.walked? files plan.entry = some facts) (hms : ∀ m ∈ ms, m.Over files) :
    Launched plan files ((start maxConcurrency facts).log plan ms)
      ((start maxConcurrency facts).play plan ms) :=
  recorded_launched.play_of_nil hms (launched_start h)

end Scan

/-! ## The end -/

theorem Ledger.nodup_keys (l : Ledger) : l.keys.Nodup := SortedMap.nodup_keys l.entries

/-- The specifiers that are followed are counted once each, by the import sites that are
followed. -/
theorem ScanPlan.length_followed (plan : ScanPlan) (sites : List Source.ImportSite) :
    (plan.followed sites).length =
      ((sites.filter fun site ↦ plan.follows site.kind).map (·.specifier)).toFinset.card := by
  rw [← List.toFinset_card_of_nodup (nodup_followed sites)]
  congr 1
  ext specifier
  simp [followed]

/-- The number of tasks that a file is to be walked with: one for each specifier that stands at some
site of it that is followed. -/
def ScanPlan.fanOut (plan : ScanPlan) (files : FileTree) (p : Path) : Nat :=
  match plan.walked? files p with
  | some facts =>
    ((facts.imports.filter fun site ↦ plan.follows site.kind).map (·.specifier)).toFinset.card
  | none => 0

variable {plan : ScanPlan} {files : FileTree} {config : ScanConfig} {facts : Source.ModuleFacts}

theorem ScanPlan.length_specifiers {p : Path} :
    (plan.specifiers files p).length = plan.fanOut files p := by
  rw [specifiers, fanOut]
  cases plan.walked? files p with
  | none => rfl
  | some facts => exact length_followed plan facts.imports

namespace Scan

variable {s : Scan} {ms : List Move} {maxConcurrency : Nat}

/-- When a scan that was not cancelled is over, a task has been started for every import of every
file, once. -/
theorem Launched.perm {log : List Event} (h : s.Launched plan files log)
    (honce : Once plan log s) (hcounted : Counted s) (hfinished : s.isFinished = true)
    (hcancelled : s.cancelled = false) :
    (launches log).Perm (s.ledger.keys.flatMap fun k ↦ (plan.specifiers files k).map (k, ·)) := by
  have hroot := isFinished_iff.1 hfinished
  refine (List.perm_ext_iff_of_nodup honce.orderly.nodup_launches ?_).2 fun edge ↦ ?_
  · refine List.nodup_flatMap.2 ⟨fun k _ ↦ nodup_pairs ScanPlan.nodup_specifiers, ?_⟩
    refine (Ledger.nodup_keys s.ledger).imp fun {k k'} hne ↦ ?_
    rw [Function.onFun, List.disjoint_left]
    rintro _ hk hk'
    obtain ⟨_, -, rfl⟩ := List.mem_map.1 hk
    obtain ⟨_, -, heq⟩ := List.mem_map.1 hk'
    exact hne (Prod.mk.inj heq).1.symm
  · rw [List.mem_flatMap]
    constructor
    · intro hedge
      obtain ⟨hmem, hspecifier⟩ := h.edge edge hedge
      exact ⟨edge.1, hmem, List.mem_map.2 ⟨edge.2, hspecifier, rfl⟩⟩
    · rintro ⟨k, hk, hmem⟩
      obtain ⟨name, hname, rfl⟩ := List.mem_map.1 hmem
      have hall := h.complete hcancelled k hk name hname
      rw [unstarted, hcounted.finished hroot, hroot] at hall
      simpa [RootPhase.unstarted] using hall

section

variable (hwalked : plan.walked? files plan.entry = some facts)
include hwalked

/-- Where the graph is finite, no run of steps that change something goes on for ever. -/
theorem not_exists_run (hfinite : (Path.parts '' {t | plan.IsNode files t}).Finite) :
    ¬∃ run : ℕ → Scan, run 0 = .start maxConcurrency facts ∧
      ∀ i, Moves plan files (run i) (run (i + 1)) := by
  rintro ⟨run, hstart, hrun⟩
  have hreachable (i : ℕ) : Reachable plan files maxConcurrency facts (run i) := by
    induction i with
    | zero => exact hstart ▸ .start
    | succ i ih => exact ih.next (hrun i).next
  obtain ⟨i, hi⟩ := WellFounded.not_rel_apply_succ (r := (· < ·)) fun i ↦ rank plan files (run i)
  exact hi ((hrun i).rank_lt hfinite ((hreachable i).sound hwalked))

theorem inevitably_isFinished (hmax : 0 < maxConcurrency)
    (hfinite : (Path.parts '' {t | plan.IsNode files t}).Finite) :
    Inevitably plan files (·.isFinished = true) (.start maxConcurrency facts) := by
  refine inevitably_of_rank (rank plan files) (I := Reachable plan files maxConcurrency facts)
    (fun s t hs hmoves ↦ ⟨hs.next hmoves.next, hmoves.rank_lt hfinite (hs.sound hwalked)⟩)
    (fun s hs ↦ ?_) .start
  cases hfinished : s.isFinished with
  | true => exact .inl rfl
  | false => exact .inr (hs.exists_works hwalked hmax hfinished)

/-- When a scan that was not cancelled is over, as many tasks have been started as its files are to
be walked with. -/
theorem length_launches (hms : ∀ m ∈ ms, m.Over files)
    (hfinished : ((start maxConcurrency facts).play plan ms).isFinished = true)
    (hcancelled : ((start maxConcurrency facts).play plan ms).cancelled = false) :
    (launches ((start maxConcurrency facts).log plan ms)).length =
      (((start maxConcurrency facts).play plan ms).ledger.keys.map (plan.fanOut files)).sum := by
  have hcounted := (Reachable.start.play hms : Reachable plan files maxConcurrency facts _).counted
  have honce := once_play plan maxConcurrency facts ms
  have hperm := (launched_play hwalked hms).perm honce hcounted hfinished hcancelled
  rw [hperm.length_eq, List.length_flatMap]
  simp only [List.length_map, ScanPlan.length_specifiers]

end

end Scan

/-- What is said of the end of all scans of this plan. -/
structure ScanConfig.Finishes (config : ScanConfig) (files : FileTree) (plan : ScanPlan)
    (facts : Source.ModuleFacts) : Prop where
  /-- There is no infinite run. -/
  finite : ¬∃ run : ℕ → Scan, run 0 = .start config.maxConcurrency facts ∧
    ∀ i, Scan.Moves plan files (run i) (run (i + 1))
  /-- While there are tasks, one of them can go on, and without tasks the root can, as long as
  something is pending. -/
  live : ∀ s, Scan.Reachable plan files config.maxConcurrency facts s → 0 < s.pending →
    (∃ i, i < s.tasks.length ∧ (s.step plan i).run files ≠ s) ∨
      s.tasks = [] ∧ s.rootStep plan ≠ s
  /-- In whatever order the steps are taken, the scan is over after finitely many. -/
  inevitable : Scan.Inevitably plan files (·.isFinished = true)
    (.start config.maxConcurrency facts)
  /-- The number of files that are loaded at a time is limited. -/
  loading : ∀ s, Scan.Reachable plan files config.maxConcurrency facts s →
    s.loading ≤ config.maxConcurrency
  /-- The number of tasks that are started, unless the scan is cancelled. -/
  launched : ∀ ms : List Move, (∀ m ∈ ms, m.Over files) →
    ((Scan.start config.maxConcurrency facts).play plan ms).isFinished = true →
      ((Scan.start config.maxConcurrency facts).play plan ms).cancelled = false →
        (launches ((Scan.start config.maxConcurrency facts).log plan ms)).length =
          (((Scan.start config.maxConcurrency facts).play plan ms).ledger.keys.map
            (plan.fanOut files)).sum

/-- A scan starts only with permits, and with the entry walked. -/
theorem walked_of_begin (hbegin : config.begin.run files = .ok (plan, facts)) :
    0 < config.maxConcurrency ∧ plan.walked? files plan.entry = some facts := by
  obtain ⟨hvalid, root, entry, -, -, rfl, hfacts⟩ := begin_eq_ok_iff.1 hbegin
  refine ⟨Nat.pos_of_ne_zero fun hzero ↦ ?_, ScanPlan.walked?_eq_some ?_ hfacts⟩
  · rw [ScanConfig.fault?, hzero] at hvalid
    split at hvalid <;> simp at hvalid
  · simp [Path.same_iff, ScanPlan.ofConfig]

/-- Where the graph is finite, every scan that starts comes to its end, whatever the order of its
steps. -/
theorem finishes_of_begin (hbegin : config.begin.run files = .ok (plan, facts))
    (hfinite : (Path.parts '' {t | plan.IsNode files t}).Finite) :
    config.Finishes files plan facts := by
  obtain ⟨hmax, hwalked⟩ := walked_of_begin hbegin
  refine ⟨Scan.not_exists_run hwalked hfinite, fun s hs hpending ↦ ?_,
    Scan.inevitably_isFinished hwalked hmax hfinite, fun s hs ↦ hs.metered.loading_le,
    fun ms ↦ Scan.length_launches hwalked⟩
  -- when the root is finished nothing is pending any more
  refine hs.exists_step hwalked hmax fun hroot ↦ hpending.ne' ?_
  rw [hs.counted.pending, hs.counted.finished hroot, hroot]
  rfl

/-- In a tree with finitely many files, there are finitely many that specifiers lead to. -/
theorem finite_isNode_ofTexts (plan : ScanPlan) (texts : List (Path × String)) :
    (Path.parts '' {t | plan.IsNode (.ofTexts texts) t}).Finite := by
  refine (List.finite_toSet ((plan.entry :: texts.map (·.1.clean)).map Path.parts)).subset ?_
  rintro _ ⟨t, ht, rfl⟩
  exact List.mem_map_of_mem (ScanPlan.mem_of_isNode_ofTexts ht)

/-- A small repository with a cycle. -/
theorem finishes_sample :
    ∃ plan facts, Sample.settings.begin.run Sample.repository = .ok (plan, facts) ∧
      (Path.parts '' {t | plan.IsNode Sample.repository t}).Finite ∧
        Sample.settings.Finishes Sample.repository plan facts := by
  obtain ⟨plan, facts, h⟩ := Sample.exists_begin
  have hfinite : (Path.parts '' {t | plan.IsNode Sample.repository t}).Finite :=
    finite_isNode_ofTexts plan _
  exact ⟨plan, facts, h, hfinite, finishes_of_begin h hfinite⟩

end ImpactGraph
