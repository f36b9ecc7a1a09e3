import ImpactGraph.Proofs.Graph.Ledger
import ImpactGraph.Proofs.Scan.Step

/-!
# Nothing but the graph

Over a file tree that does not change, all that a scan writes down is true of the graph.  The
invariant `Sound` says so of the ledger, of the issues, of every task by its phase, and of the
root.  It speaks of files in the very spelling in which the ledger keeps them, so it does not matter
whether the file tree tells two spellings of a path apart.

Files are claimed by tasks whose importer was claimed before them.  `Traced` keeps the way back to
the entry, in files of the ledger.
-/

set_option autoImplicit false

namespace ImpactGraph

variable {plan : ScanPlan} {files : FileTree} {l l' : Ledger} {k p t owner : Path}
  {specifier : String} {d : Descriptor}

/-! ## The ledger -/

/-- A file can be reached from the entry by imports of these files. -/
inductive Traced (plan : ScanPlan) (files : FileTree) (ks : List Path) : Path → Prop
  | entry : Traced plan files ks plan.entry
  | imported {owner target : Path} : owner ∈ ks → Traced plan files ks owner →
      plan.Imports files owner target → Traced plan files ks target

theorem Traced.mono {ks ks' : List Path} (h : Traced plan files ks p) (hks : ks ⊆ ks') :
    Traced plan files ks' p := by
  induction h with
  | entry => exact .entry
  | imported howner _ himports ih => exact .imported (hks howner) ih himports

theorem Traced.isNode {ks : List Path} (h : Traced plan files ks p) : plan.IsNode files p := by
  induction h with
  | entry => exact .entry
  | imported _ _ himports ih => exact .imported ih himports

namespace Ledger

/-- Files, importers and descriptors in the ledger are those of the graph. -/
structure Sound (plan : ScanPlan) (files : FileTree) (l : Ledger) : Prop where
  traced : ∀ k ∈ l.keys, Traced plan files l.keys k
  edge : ∀ k e, l.Has k e → ∀ o ∈ e.dependents.toList,
    o ∈ l.keys ∧ ∃ t, plan.Imports files o t ∧ t.parts = k.parts
  descriptor : ∀ k e d, l.Has k e → e.descriptor = some d → d = plan.descriptorOf files k

theorem sound_empty : (∅ : Ledger).Sound plan files where
  traced _ hk := absurd hk List.not_mem_nil
  edge _ _ he := absurd he not_has_empty
  descriptor _ _ _ he := absurd he not_has_empty

theorem Sound.claim (h : l.Sound plan files) (hp : l.contains p = false)
    (htraced : Traced plan files l.keys p) : (l.claim p).2.Sound plan files where
  traced k hk := by
    have hks : l.keys ⊆ (l.claim p).2.keys := fun _ ↦ extends_claim.mem_keys
    rcases (mem_keys_claim hp).1 hk with rfl | hk
    · exact htraced.mono hks
    · exact (h.traced k hk).mono hks
  edge k e he o ho := by
    rcases (has_claim hp).1 he with ⟨rfl, rfl⟩ | he
    · exact absurd ho List.not_mem_nil
    · obtain ⟨hmem, himports⟩ := h.edge k e he o ho
      exact ⟨extends_claim.mem_keys hmem, himports⟩
  descriptor k e d he hd := by
    rcases (has_claim hp).1 he with ⟨rfl, rfl⟩ | he
    · cases hd
    · exact h.descriptor k e d he hd

theorem Sound.setDescriptor (h : l.Sound plan files) (hp : p ∈ l.keys) :
    (l.setDescriptor p (plan.descriptorOf files p)).2.Sound plan files where
  traced k hk := by
    have hks : l.keys ⊆ (l.setDescriptor p (plan.descriptorOf files p)).2.keys :=
      fun _ ↦ extends_setDescriptor.mem_keys
    exact (h.traced k (mem_keys_setDescriptor.1 hk)).mono hks
  edge k e he o ho := by
    obtain ⟨e', he', rfl⟩ := has_setDescriptor.1 he
    have ho' : o ∈ e'.dependents.toList := by split at ho <;> exact ho
    obtain ⟨hmem, himports⟩ := h.edge k e' he' o ho'
    exact ⟨extends_setDescriptor.mem_keys hmem, himports⟩
  descriptor k e d he hd := by
    obtain ⟨e', he', rfl⟩ := has_setDescriptor.1 he
    split at hd
    · next hparts =>
      obtain ⟨e₀, he₀⟩ := mem_keys_iff.1 hp
      obtain ⟨rfl, rfl⟩ := he₀.eq_of_parts_eq he' hparts
      cases hold : e₀.descriptor with
      | none => simpa [LedgerEntry.describe, hold] using hd.symm
      | some d' =>
        rw [LedgerEntry.describe_of_eq_some hold] at hd
        exact h.descriptor p e₀ d he₀ hd
    · exact h.descriptor k e' d he' hd

theorem Sound.addDependent (h : l.Sound plan files) (hp : l.contains p = true)
    (howner : owner ∈ l.keys) (himports : plan.Imports files owner p) :
    (l.addDependent p owner).2.Sound plan files where
  traced k hk := by
    have hks : l.keys ⊆ (l.addDependent p owner).2.keys := fun _ ↦ extends_addDependent.mem_keys
    exact (h.traced k ((mem_keys_addDependent hp).1 hk)).mono hks
  edge k e he o ho := by
    obtain ⟨e', he', rfl⟩ := (has_addDependent hp).1 he
    have hedge (ho : o ∈ e'.dependents.toList) :
        o ∈ (l.addDependent p owner).2.keys ∧ ∃ t, plan.Imports files o t ∧ t.parts = k.parts := by
      obtain ⟨hmem, himports⟩ := h.edge k e' he' o ho
      exact ⟨extends_addDependent.mem_keys hmem, himports⟩
    split at ho
    · next hparts =>
      rcases PathSet.mem_add.1 ho with ho | ⟨rfl, -⟩
      · exact hedge ho
      · exact ⟨extends_addDependent.mem_keys howner, p, himports, hparts⟩
    · exact hedge ho
  descriptor k e d he hd := by
    obtain ⟨e', he', rfl⟩ := (has_addDependent hp).1 he
    split at hd <;> exact h.descriptor k e' d he' hd

end Ledger

/-! ## Tasks and issues -/

/-- A task for this import has claimed a file, which is not the entry. -/
structure Owns (plan : ScanPlan) (files : FileTree) (l : Ledger) (owner : Path)
    (specifier : String) (target : Path) : Prop where
  resolution : plan.resolution files owner specifier = .file target
  mem : target ∈ l.keys
  ne : target.parts ≠ plan.entry.parts

theorem Owns.mono (h : Owns plan files l owner specifier t) (hl : l.Extends l') :
    Owns plan files l' owner specifier t := ⟨h.resolution, hl.mem_keys h.mem, h.ne⟩

/-- What holds of a task for an import in each of its phases. -/
def Phase.Sound (plan : ScanPlan) (files : FileTree) (l : Ledger) (owner : Path)
    (specifier : String) : Phase → Prop
  | .entering | .resolving | .leaving => True
  | .claiming t => plan.resolution files owner specifier = .file t
  | .marking t => Owns plan files l owner specifier t ∧ plan.isScript t = false
  | .queueing t | .loading t => Owns plan files l owner specifier t ∧ plan.isScript t = true
  | .describing t facts | .checking t facts =>
    Owns plan files l owner specifier t ∧ plan.walked? files t = some facts
  | .spawning t names =>
    Owns plan files l owner specifier t ∧ names.Sublist (plan.specifiers files t)
  | .reporting issue none =>
    ∃ fault, plan.resolution files owner specifier = .failed fault ∧ issue = .ofResolution fault
  | .reporting issue (some t) =>
    (Owns plan files l owner specifier t ∧ plan.isScript t = true) ∧
      ∃ fault, plan.factsOf files t = .error fault ∧ issue = .ofModule owner specifier t fault
  | .linking t => plan.resolution files owner specifier = .file t ∧ l.contains t = true

theorem Phase.Sound.mono {phase : Phase} (h : phase.Sound plan files l owner specifier)
    (hl : l.Extends l') : phase.Sound plan files l' owner specifier := by
  cases phase with
  | entering | resolving | leaving | claiming => exact h
  | marking | queueing | loading | describing | checking | spawning => exact ⟨h.1.mono hl, h.2⟩
  | reporting issue t =>
    cases t with
    | none => exact h
    | some t => exact ⟨⟨h.1.1.mono hl, h.1.2⟩, h.2⟩
  | linking => exact ⟨h.1, hl.contains h.2⟩

/-- What holds of a task: its import is one of a file of the ledger. -/
structure Task.Sound (plan : ScanPlan) (files : FileTree) (l : Ledger) (task : Task) : Prop where
  owner : task.owner ∈ l.keys
  specifier : task.specifier ∈ plan.specifiers files task.owner
  phase : task.phase.Sound plan files l task.owner task.specifier

theorem Task.Sound.mono {task : Task} (h : task.Sound plan files l) (hl : l.Extends l') :
    task.Sound plan files l' := ⟨hl.mem_keys h.owner, h.specifier, h.phase.mono hl⟩

/-- The issues that there are to be found, once these files are in the ledger. -/
inductive Issue.Sound (plan : ScanPlan) (files : FileTree) (l : Ledger) : Issue → Prop
  | resolution {owner : Path} {specifier : String} {fault : ResolutionFault} :
      owner ∈ l.keys → specifier ∈ plan.specifiers files owner →
      plan.resolution files owner specifier = .failed fault →
      Issue.Sound plan files l (.ofResolution fault)
  | module {owner t : Path} {specifier : String} {fault : ModuleFault} :
      owner ∈ l.keys → specifier ∈ plan.specifiers files owner →
      Owns plan files l owner specifier t → plan.isScript t = true →
      plan.factsOf files t = .error fault →
      Issue.Sound plan files l (.ofModule owner specifier t fault)

theorem Issue.Sound.mono {issue : Issue} (h : issue.Sound plan files l) (hl : l.Extends l') :
    issue.Sound plan files l' := by
  cases h with
  | resolution howner hspecifier hfault =>
    exact .resolution (hl.mem_keys howner) hspecifier hfault
  | module howner hspecifier howns hscript hfault =>
    exact .module (hl.mem_keys howner) hspecifier (howns.mono hl) hscript hfault

theorem Issue.Sound.importer_mem {issue : Issue} (h : issue.Sound plan files l) :
    issue.importer ∈ l.keys := by
  cases h with
  | @resolution owner specifier fault howner hspecifier hfault =>
    obtain ⟨-, rfl⟩ := Resolver.run_resolve_eq_failed_iff.1 hfault
    exact howner
  | module howner => exact howner

/-- What holds of the root in each of its phases. -/
def RootPhase.Sound (plan : ScanPlan) (files : FileTree) (s : Scan) : RootPhase → Prop
  | .claiming facts =>
    plan.walked? files plan.entry = some facts ∧ s.ledger = ∅ ∧ s.tasks = [] ∧ s.issues = []
  | .describing facts => plan.entry ∈ s.ledger.keys ∧ plan.walked? files plan.entry = some facts
  | .spawning names =>
    plan.entry ∈ s.ledger.keys ∧ names.Sublist (plan.specifiers files plan.entry)
  | .leaving | .waiting | .finished => plan.entry ∈ s.ledger.keys

namespace Scan

variable {s u : Scan}

/-! ## The invariant -/

/-- All that a scan has written down, and all that its tasks are about to, is true of the graph. -/
structure Sound (plan : ScanPlan) (files : FileTree) (s : Scan) : Prop where
  ledger : s.ledger.Sound plan files
  tasks : ∀ task ∈ s.tasks, task.Sound plan files s.ledger
  issues : ∀ issue ∈ s.issues, issue.Sound plan files s.ledger
  root : s.root.Sound plan files s

theorem Sound.head {ts : List Task} {phase : Phase} (h : s.Sound plan files)
    (htasks : s.tasks = ⟨owner, specifier, phase⟩ :: ts) :
    owner ∈ s.ledger.keys ∧ specifier ∈ plan.specifiers files owner ∧
      phase.Sound plan files s.ledger owner specifier := by
  obtain ⟨howner, hspecifier, hphase⟩ := h.tasks _ (htasks ▸ List.mem_cons_self)
  exact ⟨howner, hspecifier, hphase⟩

/-- Once there are tasks, the entry has been claimed. -/
theorem Sound.entry_mem {task : Task} {ts : List Task} (h : s.Sound plan files)
    (htasks : s.tasks = task :: ts) : plan.entry ∈ s.ledger.keys := by
  have hroot := h.root
  cases hphase : s.root with
  | claiming =>
    rw [hphase] at hroot
    exact absurd (htasks.symm.trans hroot.2.2.1) (List.cons_ne_nil _ _)
  | describing | spawning => rw [hphase] at hroot; exact hroot.1
  | leaving | waiting | finished => rw [hphase] at hroot; exact hroot

theorem Sound.root_mono {task : Task} {ts : List Task} (h : s.Sound plan files)
    (htasks : s.tasks = task :: ts) (hl : s.ledger.Extends u.ledger) (hroot : u.root = s.root) :
    u.root.Sound plan files u := by
  have hentry := hl.mem_keys (h.entry_mem htasks)
  have hsound := h.root
  rw [hroot]
  cases hphase : s.root with
  | claiming =>
    rw [hphase] at hsound
    exact absurd (htasks.symm.trans hsound.2.2.1) (List.cons_ne_nil _ _)
  | describing | spawning => rw [hphase] at hsound; exact ⟨hentry, hsound.2⟩
  | leaving | waiting | finished => exact hentry

/-- A task that goes on to a phase in which all is as it should be. -/
theorem Sound.advance {ts : List Task} {phase phase' : Phase} (h : s.Sound plan files)
    (htasks : s.tasks = ⟨owner, specifier, phase⟩ :: ts) {issues : List Issue} {permits : Nat}
    (hl : s.ledger.Extends l) (hsound : l.Sound plan files)
    (hphase : phase'.Sound plan files l owner specifier)
    (hissues : ∀ issue ∈ issues, issue ∈ s.issues ∨ issue.Sound plan files l) :
    Sound plan files
      { s with
        ledger := l
        issues
        permits
        tasks := ⟨owner, specifier, phase'⟩ :: ts } where
  ledger := hsound
  tasks := by
    have hold (task : Task) (hmem : task ∈ s.tasks) : task.Sound plan files l :=
      (h.tasks task hmem).mono hl
    rw [htasks, List.forall_mem_cons] at hold
    exact List.forall_mem_cons.2 ⟨⟨hold.1.owner, hold.1.specifier, hphase⟩, hold.2⟩
  issues issue hmem := (hissues issue hmem).elim (fun hold ↦ (h.issues issue hold).mono hl) id
  root := h.root_mono htasks hl rfl

theorem sound_acts {ts : List Task} {phase : Phase} (h : s.Sound plan files)
    (htasks : s.tasks = ⟨owner, specifier, phase⟩ :: ts)
    (hu : Acts plan files s ts owner specifier phase u) : u.Sound plan files := by
  obtain ⟨howner, hspecifier, hphase⟩ := h.head htasks
  have hts : ∀ task ∈ ts, task.Sound plan files s.ledger := fun task hmem ↦
    h.tasks task (htasks ▸ List.mem_cons_of_mem _ hmem)
  have hentry := h.entry_mem htasks
  cases hu with
  | enter | giveUp | toPackage =>
    exact h.advance htasks (.refl _) h.ledger trivial fun _ ↦ .inl
  | toFile ht => exact h.advance htasks (.refl _) h.ledger ht fun _ ↦ .inl
  | toNothing hfault =>
    exact h.advance htasks (.refl _) h.ledger ⟨_, hfault, rfl⟩ fun _ ↦ .inl
  | claimOld hold => exact h.advance htasks (.refl _) h.ledger ⟨hphase, hold⟩ fun _ ↦ .inl
  | @claimScript t hnew hscript | @claimLeaf t hnew hscript =>
    have htraced : Traced plan files s.ledger.keys t :=
      .imported howner (h.ledger.traced owner howner) (ScanPlan.imports_of_mem hspecifier hphase)
    have hne : t.parts ≠ plan.entry.parts := fun heq ↦ by
      rw [Ledger.contains_of_mem_keys hentry heq] at hnew
      cases hnew
    have howns : Owns plan files (s.ledger.claim t).2 owner specifier t :=
      ⟨hphase, (Ledger.mem_keys_claim hnew).2 (.inl rfl), hne⟩
    exact h.advance htasks Ledger.extends_claim (h.ledger.claim hnew htraced) ⟨howns, hscript⟩
      fun _ ↦ .inl
  | @mark t =>
    obtain ⟨howns, hleaf⟩ := hphase
    have hd : ∅ = plan.descriptorOf files t := by
      rw [ScanPlan.descriptorOf, ScanPlan.walked?_eq_none_of_leaf howns.ne hleaf]
    rw [hd]
    exact h.advance htasks Ledger.extends_setDescriptor (h.ledger.setDescriptor howns.mem)
      ⟨howns.resolution, Ledger.extends_setDescriptor.contains
        (Ledger.contains_of_mem_keys howns.mem rfl)⟩ fun _ ↦ .inl
  | wait | queue => exact h.advance htasks (.refl _) h.ledger hphase fun _ ↦ .inl
  | load hfacts =>
    obtain ⟨howns, hscript⟩ := hphase
    exact h.advance htasks (.refl _) h.ledger
      ⟨howns, ScanPlan.walked?_eq_some (by simp [hscript]) hfacts⟩ fun _ ↦ .inl
  | loadFault hfault =>
    exact h.advance htasks (.refl _) h.ledger ⟨hphase, _, hfault, rfl⟩ fun _ ↦ .inl
  | describe =>
    obtain ⟨howns, hwalked⟩ := hphase
    rw [← ScanPlan.descriptorOf_eq hwalked]
    exact h.advance htasks Ledger.extends_setDescriptor (h.ledger.setDescriptor howns.mem)
      ⟨howns.mono Ledger.extends_setDescriptor, hwalked⟩ fun _ ↦ .inl
  | check =>
    obtain ⟨howns, hwalked⟩ := hphase
    exact h.advance htasks (.refl _) h.ledger
      ⟨howns, by rw [ScanPlan.specifiers_eq hwalked]⟩ fun _ ↦ .inl
  | checkCancelled | spawned =>
    exact h.advance htasks (.refl _) h.ledger
      ⟨hphase.1.resolution, Ledger.contains_of_mem_keys hphase.1.mem rfl⟩ fun _ ↦ .inl
  | @spawn t name names =>
    obtain ⟨howns, hnames⟩ := hphase
    have hname : Task.Sound plan files s.ledger ⟨t, name, .entering⟩ :=
      ⟨howns.mem, hnames.subset List.mem_cons_self, trivial⟩
    have hrest := (List.sublist_cons_self name names).trans hnames
    refine ⟨h.ledger, ?_, h.issues, h.root_mono htasks (.refl _) rfl⟩
    exact List.forall_mem_cons.2 ⟨⟨howner, hspecifier, howns, hrest⟩,
      List.forall_mem_cons.2 ⟨hname, hts⟩⟩
  | report =>
    obtain ⟨fault, hfault, rfl⟩ := hphase
    refine h.advance htasks (.refl _) h.ledger trivial fun issue hissue ↦ ?_
    rcases List.mem_cons.1 hissue with rfl | hissue
    · exact .inr (.resolution howner hspecifier hfault)
    · exact .inl hissue
  | reportModule =>
    obtain ⟨⟨howns, hscript⟩, fault, hfault, rfl⟩ := hphase
    refine h.advance htasks (.refl _) h.ledger
      ⟨howns.resolution, Ledger.contains_of_mem_keys howns.mem rfl⟩ fun issue hissue ↦ ?_
    rcases List.mem_cons.1 hissue with rfl | hissue
    · exact .inr (.module howner hspecifier howns hscript hfault)
    · exact .inl hissue
  | link =>
    obtain ⟨hresolution, hcontains⟩ := hphase
    exact h.advance htasks Ledger.extends_addDependent
      (h.ledger.addDependent hcontains howner (ScanPlan.imports_of_mem hspecifier hresolution))
      trivial fun _ ↦ .inl
  | leave => exact ⟨h.ledger, hts, h.issues, h.root_mono htasks (.refl _) rfl⟩

theorem sound_rootActs (h : s.Sound plan files) (hu : RootActs plan s s.root u) :
    u.Sound plan files := by
  have hroot := h.root
  generalize hphase : s.root = phase at hroot hu
  cases hu with
  | claim =>
    obtain ⟨hfacts, hledger, htasks, hissues⟩ := hroot
    have hnew : s.ledger.contains plan.entry = false := by rw [hledger]; rfl
    exact ⟨h.ledger.claim hnew .entry, by simp [htasks], by simp [hissues],
      (Ledger.mem_keys_claim hnew).2 (.inl rfl), hfacts⟩
  | describe =>
    obtain ⟨hentry, hwalked⟩ := hroot
    rw [← ScanPlan.descriptorOf_eq hwalked, ← ScanPlan.specifiers_eq hwalked]
    exact ⟨h.ledger.setDescriptor hentry,
      fun task hmem ↦ (h.tasks task hmem).mono Ledger.extends_setDescriptor,
      fun issue hmem ↦ (h.issues issue hmem).mono Ledger.extends_setDescriptor,
      Ledger.extends_setDescriptor.mem_keys hentry, .refl _⟩
  | @spawn name names =>
    obtain ⟨hentry, hnames⟩ := hroot
    have hname : Task.Sound plan files s.ledger ⟨plan.entry, name, .entering⟩ :=
      ⟨hentry, hnames.subset List.mem_cons_self, trivial⟩
    exact ⟨h.ledger, List.forall_mem_cons.2 ⟨hname, h.tasks⟩, h.issues, hentry,
      (List.sublist_cons_self name names).trans hnames⟩
  | spawned => exact ⟨h.ledger, h.tasks, h.issues, hroot.1⟩
  | leave => exact ⟨h.ledger, h.tasks, h.issues, hroot⟩
  | finish => exact ⟨h.ledger, h.tasks, h.issues, hroot⟩
  | wait | rest => exact h

theorem Sound.alike (h : s.Sound plan files) (hst : Alike s u) : u.Sound plan files where
  ledger := hst.ledger ▸ h.ledger
  tasks task hmem := hst.ledger ▸ h.tasks task (hst.tasks.mem_iff.2 hmem)
  issues issue hmem := hst.ledger ▸ h.issues issue (hst.issues ▸ hmem)
  root := by
    have hroot := h.root
    rw [← hst.root]
    cases hphase : s.root with
    | claiming =>
      rw [hphase] at hroot
      obtain ⟨hfacts, hledger, htasks, hissues⟩ := hroot
      have hperm := hst.tasks
      rw [htasks, List.nil_perm] at hperm
      exact ⟨hfacts, hst.ledger ▸ hledger, hperm, hst.issues ▸ hissues⟩
    | describing | spawning | leaving | waiting | finished =>
      rw [hphase] at hroot
      rw [RootPhase.Sound, ← hst.ledger]
      exact hroot

theorem kept_sound : Kept plan files (Sound plan files) where
  alike hst h := h.alike hst
  acts htasks h hu := sound_acts h htasks hu
  root h hu := sound_rootActs h hu
  cancel {s} h := ⟨h.ledger, h.tasks, h.issues, by
    have hroot := h.root
    show s.root.Sound plan files s.cancel
    cases hphase : s.root <;> rw [hphase] at hroot <;> exact hroot⟩

theorem sound_start {maxConcurrency : Nat} {facts : Source.ModuleFacts}
    (h : plan.walked? files plan.entry = some facts) :
    Sound plan files (.start maxConcurrency facts) :=
  ⟨Ledger.sound_empty, by simp [start], by simp [start], h, rfl, rfl, rfl⟩

end Scan
end ImpactGraph
