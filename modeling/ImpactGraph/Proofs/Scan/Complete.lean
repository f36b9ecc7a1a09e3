import ImpactGraph.Proofs.Scan.Quiescence
import ImpactGraph.Proofs.Scan.Sound

/-!
# The whole graph

Nothing of the graph is left out, for someone is always on the way to what is still missing.
`Described` says so of descriptors: a file without one is awaited by the task that claimed it, or
will never get one, since it is not walked.  `Followed` says so of imports: one that is followed is
`underway`, or its task is about to note the importer, or it is settled.  Cancelling a scan loses
imports, but no descriptors.

When no tasks are left, all descriptors are set and all imports are settled.
-/

set_option autoImplicit false

namespace ImpactGraph

variable {plan : ScanPlan} {files : FileTree} {l : Ledger} {k p t owner : Path}
  {specifier : String}

/-! ## What is underway -/

/-- The imports that a task will start tasks for. -/
def Phase.unstarted (plan : ScanPlan) (files : FileTree) : Phase → List (Path × String)
  | .queueing t | .loading t | .describing t _ | .checking t _ =>
    (plan.specifiers files t).map (t, ·)
  | .spawning t names => names.map (t, ·)
  | _ => []

/-- Whether a task has still to find out what becomes of its import. -/
def Phase.isOpen : Phase → Bool
  | .linking _ | .leaving => false
  | _ => true

/-- The imports that a task has to take care of. -/
def Task.underway (plan : ScanPlan) (files : FileTree) (task : Task) : List (Path × String) :=
  (if task.phase.isOpen then [(task.owner, task.specifier)] else []) ++
    task.phase.unstarted plan files

/-- The imports that the root will start tasks for. -/
def RootPhase.unstarted (plan : ScanPlan) (files : FileTree) : RootPhase → List (Path × String)
  | .describing _ => (plan.specifiers files plan.entry).map (plan.entry, ·)
  | .spawning names => names.map (plan.entry, ·)
  | _ => []

namespace Scan

variable {s u : Scan} {ts : List Task} {phase phase' : Phase}

/-- The imports that someone has to take care of. -/
def underway (plan : ScanPlan) (files : FileTree) (s : Scan) : List (Path × String) :=
  s.tasks.flatMap (·.underway plan files) ++ s.root.unstarted plan files

/-- Nothing is left to be done for an import. -/
inductive Settled (plan : ScanPlan) (files : FileTree) (s : Scan) (owner : Path)
    (specifier : String) : Prop
  | external : plan.resolution files owner specifier = .external →
      Settled plan files s owner specifier
  | failed {fault : ResolutionFault} : plan.resolution files owner specifier = .failed fault →
      .ofResolution fault ∈ s.issues → Settled plan files s owner specifier
  | file {t : Path} : plan.resolution files owner specifier = .file t →
      (∃ k e, s.ledger.Has k e ∧ t.parts = k.parts ∧ e.dependents.contains owner = true) →
      Settled plan files s owner specifier

theorem Settled.mono (h : Settled plan files s owner specifier) (hsu : Grown s u) :
    Settled plan files u owner specifier := by
  cases h with
  | external hexternal => exact .external hexternal
  | failed hfault hmem => exact .failed hfault (hsu.issues hmem)
  | file ht hedge =>
    exact .file ht (Holds.mono (r := .dependent _ owner) hedge hsu)

/-- What may have become of an import. -/
def Progress (plan : ScanPlan) (files : FileTree) (s : Scan) (owner : Path) (specifier : String) :
    Prop :=
  (owner, specifier) ∈ s.underway plan files ∨
    (∃ t, ⟨owner, specifier, .linking t⟩ ∈ s.tasks) ∨ Settled plan files s owner specifier

theorem Progress.of_mem_task {task : Task} (htask : task ∈ s.tasks)
    (h : (owner, specifier) ∈ task.underway plan files) :
    Progress plan files s owner specifier :=
  .inl (List.mem_append_left _ (List.mem_flatMap.2 ⟨task, htask, h⟩))

/-- What may have become of an import before a task has taken a step may have become of it
afterwards, if that is so of the imports of this task. -/
theorem Progress.step (h : Progress plan files s owner specifier) {task : Task}
    (htasks : s.tasks = task :: ts) (hts : ts ⊆ u.tasks) (hroot : u.root = s.root)
    (hsu : Grown s u)
    (hhead : (owner, specifier) ∈ task.underway plan files → Progress plan files u owner specifier)
    (hlink : ∀ t, task = ⟨owner, specifier, .linking t⟩ → Progress plan files u owner specifier) :
    Progress plan files u owner specifier := by
  rcases h with h | ⟨t, h⟩ | h
  · rw [underway, htasks, List.flatMap_cons, List.append_assoc, List.mem_append,
      List.mem_append] at h
    rcases h with h | h | h
    · exact hhead h
    · obtain ⟨task', hmem, h⟩ := List.mem_flatMap.1 h
      exact .of_mem_task (hts hmem) h
    · exact .inl (List.mem_append_right _ (hroot ▸ h))
  · rw [htasks, List.mem_cons] at h
    rcases h with h | h
    · exact hlink t h.symm
    · exact .inr (.inl ⟨t, hts h⟩)
  · exact .inr (.inr (h.mono hsu))

/-! ## Imports that are followed -/

/-- Unless the scan is cancelled, no import of a file in the ledger is forgotten. -/
structure Followed (plan : ScanPlan) (files : FileTree) (s : Scan) : Prop
    extends Sound plan files s where
  followed : s.cancelled = false → ∀ k ∈ s.ledger.keys, ∀ specifier ∈ plan.specifiers files k,
    Progress plan files s k specifier

theorem mem_underway_iff {pair : Path × String} :
    pair ∈ Task.underway plan files ⟨owner, specifier, phase⟩ ↔
      (phase.isOpen = true ∧ pair = (owner, specifier)) ∨ pair ∈ phase.unstarted plan files := by
  rw [Task.underway, List.mem_append]
  cases phase.isOpen <;> simp

/-- The task that stands first goes on from one phase to another one, and keeps its import. -/
structure Advances (s u : Scan) (ts : List Task) (owner : Path) (specifier : String)
    (phase phase' : Phase) : Prop where
  before : s.tasks = ⟨owner, specifier, phase⟩ :: ts
  after : u.tasks = ⟨owner, specifier, phase'⟩ :: ts
  root : u.root = s.root
  cancelled : u.cancelled = s.cancelled

/-- A task goes on to a phase in which it takes care of the files that are new, and of the imports
that it took care of before. -/
theorem Followed.advance (h : s.Followed plan files)
    (hstep : Advances s u ts owner specifier phase phase') (hu : u.Sound plan files)
    (hsu : Grown s u)
    (hkeys : ∀ k ∈ u.ledger.keys, k ∈ s.ledger.keys ∨
      ∀ name ∈ plan.specifiers files k, (k, name) ∈ phase'.unstarted plan files)
    (hunstarted : s.cancelled = false → phase.unstarted plan files ⊆ phase'.unstarted plan files)
    (hown : s.cancelled = false → phase'.isOpen = true ∨ Progress plan files u owner specifier) :
    u.Followed plan files where
  toSound := hu
  followed hc k hk name hname := by
    rw [hstep.cancelled] at hc
    have hmem : (⟨owner, specifier, phase'⟩ : Task) ∈ u.tasks :=
      hstep.after ▸ List.mem_cons_self
    have hown' : Progress plan files u owner specifier :=
      (hown hc).elim (fun hopen ↦ .of_mem_task hmem (mem_underway_iff.2 (.inl ⟨hopen, rfl⟩))) id
    rcases hkeys k hk with hk | hnew
    · have hold := h.followed hc k hk name hname
      refine hold.step hstep.before (hstep.after ▸ List.subset_cons_self _ _) hstep.root hsu
        (fun hhead ↦ ?_) fun t ht ↦ ?_
      · rcases mem_underway_iff.1 hhead with ⟨-, hpair⟩ | hrest
        · cases hpair
          exact hown'
        · exact .of_mem_task hmem (mem_underway_iff.2 (.inr (hunstarted hc hrest)))
      · cases ht
        exact hown'
    · exact .of_mem_task hmem (mem_underway_iff.2 (.inr (hnew name hname)))

theorem followed_acts (h : s.Followed plan files)
    (htasks : s.tasks = ⟨owner, specifier, phase⟩ :: ts)
    (hu : Acts plan files s ts owner specifier phase u) : u.Followed plan files := by
  have hsound := sound_acts h.toSound htasks hu
  have hsu := hu.grown
  obtain ⟨-, -, hphase⟩ := h.head htasks
  have hlinking {t : Path} {u' : Scan} (hmem : (⟨owner, specifier, .linking t⟩ : Task) ∈ u'.tasks) :
      Progress plan files u' owner specifier := .inr (.inl ⟨t, hmem⟩)
  cases hu with
  | enter | toFile | toNothing | wait | queue | load =>
    exact h.advance ⟨htasks, rfl, rfl, rfl⟩ hsound hsu (fun _ ↦ .inl)
      (fun _ ↦ List.Subset.refl _) fun _ ↦ .inl rfl
  | giveUp hcancelled =>
    exact h.advance ⟨htasks, rfl, rfl, rfl⟩ hsound hsu (fun _ ↦ .inl)
      (fun _ ↦ List.Subset.refl _) (by simp [hcancelled])
  | toPackage hexternal =>
    exact h.advance ⟨htasks, rfl, rfl, rfl⟩ hsound hsu (fun _ ↦ .inl)
      (fun _ ↦ List.Subset.refl _) fun _ ↦ .inr (.inr (.inr (.external hexternal)))
  | claimOld | spawned | reportModule =>
    exact h.advance ⟨htasks, rfl, rfl, rfl⟩ hsound hsu (fun _ ↦ .inl)
      (fun _ ↦ List.Subset.refl _) fun _ ↦ .inr (hlinking List.mem_cons_self)
  | claimScript hnew =>
    refine h.advance ⟨htasks, rfl, rfl, rfl⟩ hsound hsu (fun k hk ↦ ?_)
      (fun _ ↦ List.nil_subset _) fun _ ↦ .inl rfl
    rcases (Ledger.mem_keys_claim hnew).1 hk with rfl | hk
    · exact .inr fun name hname ↦ List.mem_map_of_mem hname
    · exact .inl hk
  | claimLeaf hnew hleaf =>
    refine h.advance ⟨htasks, rfl, rfl, rfl⟩ hsound hsu (fun k hk ↦ ?_)
      (fun _ ↦ List.nil_subset _) fun _ ↦ .inl rfl
    rcases (Ledger.mem_keys_claim hnew).1 hk with rfl | hk
    · refine .inr fun name hname ↦ ?_
      obtain ⟨-, -, howns, -⟩ := hsound.head rfl
      rw [ScanPlan.specifiers_eq_nil (ScanPlan.walked?_eq_none_of_leaf howns.ne hleaf)] at hname
      exact absurd hname List.not_mem_nil
    · exact .inl hk
  | mark =>
    exact h.advance ⟨htasks, rfl, rfl, rfl⟩ hsound hsu
      (fun _ hk ↦ .inl (Ledger.mem_keys_setDescriptor.1 hk)) (fun _ ↦ List.Subset.refl _)
      fun _ ↦ .inr (hlinking List.mem_cons_self)
  | loadFault hfault =>
    refine h.advance ⟨htasks, rfl, rfl, rfl⟩ hsound hsu (fun _ ↦ .inl) (fun _ ↦ ?_)
      fun _ ↦ .inl rfl
    rw [Phase.unstarted, ScanPlan.specifiers_eq_nil (ScanPlan.walked?_eq_none_of_error hfault)]
    exact List.nil_subset _
  | describe =>
    exact h.advance ⟨htasks, rfl, rfl, rfl⟩ hsound hsu
      (fun _ hk ↦ .inl (Ledger.mem_keys_setDescriptor.1 hk)) (fun _ ↦ List.Subset.refl _)
      fun _ ↦ .inl rfl
  | check =>
    refine h.advance ⟨htasks, rfl, rfl, rfl⟩ hsound hsu (fun _ ↦ .inl) (fun _ ↦ ?_)
      fun _ ↦ .inl rfl
    rw [Phase.unstarted, Phase.unstarted, ScanPlan.specifiers_eq hphase.2]
    exact List.Subset.refl _
  | checkCancelled hcancelled =>
    exact h.advance ⟨htasks, rfl, rfl, rfl⟩ hsound hsu (fun _ ↦ .inl) (by simp [hcancelled])
      (by simp [hcancelled])
  | report =>
    obtain ⟨fault, hfault, rfl⟩ := hphase
    exact h.advance ⟨htasks, rfl, rfl, rfl⟩ hsound hsu (fun _ ↦ .inl)
      (fun _ ↦ List.Subset.refl _) fun _ ↦ .inr (.inr (.inr (.failed hfault List.mem_cons_self)))
  | @link t =>
    obtain ⟨hresolution, hcontains⟩ := hphase
    exact h.advance ⟨htasks, rfl, rfl, rfl⟩ hsound hsu
      (fun _ hk ↦ .inl ((Ledger.mem_keys_addDependent hcontains).1 hk))
      (fun _ ↦ List.Subset.refl _)
      fun _ ↦ .inr (.inr (.inr (.file hresolution Ledger.exists_addDependent)))
  | @spawn t name names =>
    refine ⟨hsound, fun hc k hk sp hsp ↦ ?_⟩
    refine (h.followed hc k hk sp hsp).step htasks (List.subset_cons_of_subset _
      (List.subset_cons_self _ _)) rfl hsu (fun hhead ↦ ?_) (by simp)
    rcases mem_underway_iff.1 hhead with hopen | hrest
    · exact .of_mem_task List.mem_cons_self (mem_underway_iff.2 (.inl ⟨rfl, hopen.2⟩))
    · rcases List.mem_cons.1 hrest with hname | hrest
      · -- the new task takes care of it
        exact .of_mem_task (List.mem_cons_of_mem _ List.mem_cons_self)
          (mem_underway_iff.2 (.inl ⟨rfl, hname⟩))
      · exact .of_mem_task List.mem_cons_self (mem_underway_iff.2 (.inr hrest))
  | leave =>
    refine ⟨hsound, fun hc k hk sp hsp ↦ ?_⟩
    refine (h.followed hc k hk sp hsp).step htasks (List.Subset.refl _) rfl hsu
      (fun hhead ↦ ?_) (by simp)
    exact absurd hhead List.not_mem_nil

theorem followed_rootActs (h : s.Followed plan files) (hu : RootActs plan s s.root u) :
    u.Followed plan files := by
  have hsound := sound_rootActs h.toSound hu
  have hsu := hu.grown
  have hroot := h.root
  -- a step of the root touches no task, so it can only move its own imports on
  have step {k : Path} {name : String} (hts : s.tasks ⊆ u.tasks)
      (hrest : (k, name) ∈ s.root.unstarted plan files → Progress plan files u k name)
      (hold : Progress plan files s k name) : Progress plan files u k name := by
    rcases hold with hold | ⟨t, hold⟩ | hold
    · rcases List.mem_append.1 hold with hold | hold
      · obtain ⟨task, hmem, hold⟩ := List.mem_flatMap.1 hold
        exact .of_mem_task (hts hmem) hold
      · exact hrest hold
    · exact .inr (.inl ⟨t, hts hold⟩)
    · exact .inr (.inr (hold.mono hsu))
  generalize hphase : s.root = phase at hroot hu step
  refine ⟨hsound, fun hc k hk name hname ↦ ?_⟩
  have hlater (hmem : (k, name) ∈ u.root.unstarted plan files) : Progress plan files u k name :=
    .inl (List.mem_append_right _ hmem)
  cases hu with
  | claim =>
    obtain ⟨-, hledger, -, -⟩ := hroot
    have hnew : s.ledger.contains plan.entry = false := by rw [hledger]; rfl
    rcases (Ledger.mem_keys_claim hnew).1 hk with rfl | hk
    · exact hlater (List.mem_map_of_mem hname)
    · rw [hledger] at hk
      exact absurd hk List.not_mem_nil
  | describe =>
    refine step (List.Subset.refl _) (fun hmem ↦ hlater ?_)
      (h.followed hc k (Ledger.mem_keys_setDescriptor.1 hk) name hname)
    rwa [RootPhase.unstarted, ← ScanPlan.specifiers_eq hroot.2]
  | @spawn name' names =>
    refine step (List.subset_cons_self _ _) (fun hmem ↦ ?_) (h.followed hc k hk name hname)
    rcases List.mem_cons.1 hmem with hmem | hmem
    · exact .of_mem_task List.mem_cons_self (mem_underway_iff.2 (.inl ⟨rfl, hmem⟩))
    · exact hlater hmem
  | spawned | leave | finish | wait | rest =>
    exact step (List.Subset.refl _) (fun hmem ↦ absurd hmem List.not_mem_nil)
      (h.followed hc k hk name hname)

theorem kept_followed : Kept plan files (Followed plan files) where
  alike {s t} hst h := by
    refine ⟨h.toSound.alike hst, fun hc k hk name hname ↦ ?_⟩
    have hold := h.followed (hst.cancelled.trans hc) k (hst.ledger ▸ hk) name hname
    rcases hold with hold | ⟨t, hold⟩ | hold
    · refine .inl ?_
      rw [underway, ← hst.root]
      exact ((hst.tasks.flatMap_right _).append_right _).mem_iff.1 hold
    · exact .inr (.inl ⟨t, hst.tasks.mem_iff.1 hold⟩)
    · exact .inr (.inr (hold.mono hst.grown))
  acts htasks h hu := followed_acts h htasks hu
  root h hu := followed_rootActs h hu
  cancel h := ⟨kept_sound.cancel h.toSound, by simp [cancel]⟩

theorem followed_start {maxConcurrency : Nat} {facts : Source.ModuleFacts}
    (h : plan.walked? files plan.entry = some facts) :
    Followed plan files (.start maxConcurrency facts) :=
  ⟨sound_start h, fun _ _ hk ↦ absurd hk List.not_mem_nil⟩

/-- When no tasks are left, all imports are settled. -/
theorem Followed.settled (h : s.Followed plan files) (hc : s.cancelled = false)
    (htasks : s.tasks = []) (hroot : s.root = .finished) (hk : k ∈ s.ledger.keys)
    (hfrom : plan.FollowsFrom files k specifier) : Settled plan files s k specifier := by
  have hspecifier := ScanPlan.mem_specifiers_iff.2 hfrom
  rcases h.followed hc k hk specifier hspecifier with hmem | ⟨t, hmem⟩ | hsettled
  · rw [underway, htasks, hroot] at hmem
    exact absurd hmem List.not_mem_nil
  · rw [htasks] at hmem
    exact absurd hmem List.not_mem_nil
  · exact hsettled

/-! ## Descriptors -/

/-- A file without a descriptor is waiting for it, or is not walked. -/
structure Described (plan : ScanPlan) (files : FileTree) (s : Scan) : Prop
    extends Sound plan files s where
  described : ∀ k e, s.ledger.Has k e → e.descriptor = none →
    k ∈ s.awaited plan ∨ plan.walked? files k = none

/-- Of the files that were waiting, one has been given its descriptor. -/
theorem mem_of_setDescriptor {ks : List Path} {d : Descriptor}
    (h : ∀ k e, l.Has k e → e.descriptor = none → k ∈ p :: ks ∨ plan.walked? files k = none)
    {e : LedgerEntry} (he : (l.setDescriptor p d).2.Has k e) (hd : e.descriptor = none) :
    k ∈ ks ∨ plan.walked? files k = none := by
  obtain ⟨e', he', rfl⟩ := Ledger.has_setDescriptor.1 he
  split at hd
  · cases hd
  · next hne =>
    rcases h k e' he' hd with hmem | hnone
    · rcases List.mem_cons.1 hmem with rfl | hmem
      · exact absurd rfl hne
      · exact .inl hmem
    · exact .inr hnone

theorem described_acts (h : s.Described plan files)
    (htasks : s.tasks = ⟨owner, specifier, phase⟩ :: ts)
    (hu : Acts plan files s ts owner specifier phase u) : u.Described plan files := by
  refine ⟨sound_acts h.toSound htasks hu, fun k e he hd ↦ ?_⟩
  obtain ⟨-, -, hphase⟩ := h.head htasks
  have hold := h.described
  rw [awaited, htasks] at hold
  cases hu with
  | claimScript hnew | claimLeaf hnew =>
    rcases (Ledger.has_claim hnew).1 he with ⟨rfl, rfl⟩ | he
    · exact .inl List.mem_cons_self
    · exact (hold k e he hd).imp_left (List.mem_cons_of_mem _)
  | mark | describe => exact mem_of_setDescriptor hold he hd
  | loadFault hfault =>
    rcases hold k e he hd with hmem | hnone
    · rcases List.mem_cons.1 hmem with rfl | hmem
      · exact .inr (ScanPlan.walked?_eq_none_of_error hfault)
      · exact .inl hmem
    · exact .inr hnone
  | link =>
    obtain ⟨e', he', rfl⟩ := (Ledger.has_addDependent hphase.2).1 he
    refine hold k e' he' ?_
    split at hd <;> exact hd
  | _ => exact hold k e he hd

theorem described_rootActs (h : s.Described plan files) (hu : RootActs plan s s.root u) :
    u.Described plan files := by
  refine ⟨sound_rootActs h.toSound hu, fun k e he hd ↦ ?_⟩
  have hroot := h.root
  have hold := h.described
  rw [awaited] at hold
  generalize s.root = phase at hroot hu hold
  cases hu with
  | claim =>
    obtain ⟨-, hledger, -, -⟩ := hroot
    have hnew : s.ledger.contains plan.entry = false := by rw [hledger]; rfl
    rcases (Ledger.has_claim hnew).1 he with ⟨rfl, rfl⟩ | he
    · exact .inl (List.mem_append_right _ List.mem_cons_self)
    · rw [hledger] at he
      exact absurd he Ledger.not_has_empty
  | describe =>
    have hfirst : ∀ k e, s.ledger.Has k e → e.descriptor = none →
        k ∈ plan.entry :: s.tasks.filterMap (·.phase.awaited) ∨
          plan.walked? files k = none := fun k e he hd ↦
      (hold k e he hd).imp_left (List.perm_append_singleton plan.entry _).mem_iff.1
    exact (mem_of_setDescriptor hfirst he hd).imp_left (List.mem_append_left _)
  | wait | rest => exact h.described k e he hd
  | _ => exact hold k e he hd

theorem kept_described : Kept plan files (Described plan files) where
  alike {s t} hst h := by
    refine ⟨h.toSound.alike hst, fun k e he hd ↦ ?_⟩
    rw [awaited, ← hst.root]
    exact (h.described k e (hst.ledger ▸ he) hd).imp_left
      ((hst.tasks.filterMap _).append_right _).mem_iff.1
  acts htasks h hu := described_acts h htasks hu
  root h hu := described_rootActs h hu
  cancel h := ⟨kept_sound.cancel h.toSound, h.described⟩

theorem described_start {maxConcurrency : Nat} {facts : Source.ModuleFacts}
    (h : plan.walked? files plan.entry = some facts) :
    Described plan files (.start maxConcurrency facts) :=
  ⟨sound_start h, fun _ _ he ↦ absurd he Ledger.not_has_empty⟩

/-- When no tasks are left, every file has the descriptor that it has in the graph. -/
theorem Described.getD_descriptor (h : s.Described plan files) (htasks : s.tasks = [])
    (hroot : s.root = .finished) {e : LedgerEntry} (he : s.ledger.Has k e) :
    e.descriptor.getD ∅ = plan.descriptorOf files k := by
  cases hd : e.descriptor with
  | some d => exact h.ledger.descriptor k e d he hd
  | none =>
    rcases h.described k e he hd with hmem | hnone
    · rw [awaited, htasks, hroot] at hmem
      exact absurd hmem List.not_mem_nil
    · rw [ScanPlan.descriptorOf, hnone, Option.getD_none]

end Scan
end ImpactGraph
