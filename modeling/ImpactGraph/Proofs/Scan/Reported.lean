import ImpactGraph.Proofs.Scan.Complete
import Mathlib.Data.List.Nodup

/-!
# Each failure once

Whatever fails is reported by one task.  `Charged` says so of modules: the task that claimed a file
is the only one that will report it, and the file stays charged to this task until the issue is
there.  `Distinct` says so of imports: no import is taken care of twice, nor after its issue has
been reported, since a file is walked once and each of its specifiers is followed once.
-/

set_option autoImplicit false

namespace ImpactGraph

variable {plan : ScanPlan} {files : FileTree} {k t owner : Path} {specifier : String}

/-- The file that a task may have to report. -/
def Phase.charged : Phase → Option Path
  | .queueing target | .loading target => some target
  | .reporting _ target => target
  | _ => none

namespace Scan

variable {s u : Scan} {ts : List Task} {phase phase' : Phase}

/-! ## Modules -/

/-- The files that have been reported, or may have to be. -/
def charged (s : Scan) : List Path :=
  s.tasks.filterMap (·.phase.charged) ++ s.issues.filterMap (·.target)

/-- A module that fails is charged, and no file is charged twice. -/
structure Charged (plan : ScanPlan) (files : FileTree) (s : Scan) : Prop
    extends Sound plan files s where
  lists : s.ledger.Lists s.charged
  failing : ∀ k ∈ s.ledger.keys, k.parts ≠ plan.entry.parts → plan.isScript k = true →
    ∀ fault, plan.factsOf files k = .error fault → k ∈ s.charged

theorem charged_acts (h : s.Charged plan files)
    (htasks : s.tasks = ⟨owner, specifier, phase⟩ :: ts)
    (hu : Acts plan files s ts owner specifier phase u) : u.Charged plan files := by
  have hsound := sound_acts h.toSound htasks hu
  obtain ⟨-, -, hphase⟩ := h.head htasks
  have hlists := h.lists
  have hfailing := h.failing
  rw [charged, htasks] at hlists hfailing
  cases hu with
  | @claimScript t hnew =>
    refine ⟨hsound, hlists.claim hnew, fun k hk hne hscript fault hfault ↦ ?_⟩
    rcases (Ledger.mem_keys_claim hnew).1 hk with rfl | hk
    · exact List.mem_cons_self
    · exact List.mem_cons_of_mem _ (hfailing k hk hne hscript fault hfault)
  | @claimLeaf t hnew hleaf =>
    refine ⟨hsound, hlists.mono Ledger.extends_claim, fun k hk hne hscript fault hfault ↦ ?_⟩
    rcases (Ledger.mem_keys_claim hnew).1 hk with rfl | hk
    · rw [hscript] at hleaf
      cases hleaf
    · exact hfailing k hk hne hscript fault hfault
  | mark | describe =>
    exact ⟨hsound, hlists.mono Ledger.extends_setDescriptor,
      fun k hk ↦ hfailing k (Ledger.mem_keys_setDescriptor.1 hk)⟩
  | link =>
    exact ⟨hsound, hlists.mono Ledger.extends_addDependent,
      fun k hk ↦ hfailing k ((Ledger.mem_keys_addDependent hphase.2).1 hk)⟩
  | load hfacts =>
    refine ⟨hsound, hlists.sublist (List.sublist_cons_self _ _),
      fun k hk hne hscript fault hfault ↦ ?_⟩
    rcases List.mem_cons.1 (hfailing k hk hne hscript fault hfault) with rfl | hmem
    · rw [hfacts] at hfault
      cases hfault
    · exact hmem
  | report =>
    obtain ⟨fault, hfault, rfl⟩ := hphase
    exact ⟨hsound, hlists, hfailing⟩
  | @reportModule issue t =>
    obtain ⟨-, fault, hfault, rfl⟩ := hphase
    have hperm : (t :: (ts.filterMap (·.phase.charged) ++ s.issues.filterMap (·.target))).Perm
        (ts.filterMap (·.phase.charged) ++ t :: s.issues.filterMap (·.target)) :=
      List.perm_middle.symm
    exact ⟨hsound, hlists.perm hperm, fun k hk hne hscript fault hfault ↦
      hperm.mem_iff.1 (hfailing k hk hne hscript fault hfault)⟩
  | _ => exact ⟨hsound, hlists, hfailing⟩

theorem charged_rootActs (h : s.Charged plan files) (hu : RootActs plan s s.root u) :
    u.Charged plan files := by
  have hsound := sound_rootActs h.toSound hu
  have hroot := h.root
  generalize s.root = phase at hroot hu
  cases hu with
  | claim =>
    obtain ⟨-, hledger, -, -⟩ := hroot
    have hnew : s.ledger.contains plan.entry = false := by rw [hledger]; rfl
    refine ⟨hsound, h.lists.mono Ledger.extends_claim, fun k hk hne ↦ ?_⟩
    rcases (Ledger.mem_keys_claim hnew).1 hk with rfl | hk
    · exact absurd rfl hne
    · exact h.failing k hk hne
  | describe =>
    exact ⟨hsound, h.lists.mono Ledger.extends_setDescriptor,
      fun k hk ↦ h.failing k (Ledger.mem_keys_setDescriptor.1 hk)⟩
  | _ => exact ⟨hsound, h.lists, h.failing⟩

theorem kept_charged : Kept plan files (Charged plan files) where
  alike {s t} hst h := by
    have hperm : s.charged.Perm t.charged := by
      rw [charged, charged, ← hst.issues]
      exact (hst.tasks.filterMap _).append_right _
    exact ⟨h.toSound.alike hst, hst.ledger ▸ h.lists.perm hperm,
      fun k hk hne hscript fault hfault ↦
        hperm.mem_iff.1 (h.failing k (hst.ledger ▸ hk) hne hscript fault hfault)⟩
  acts htasks h hu := charged_acts h htasks hu
  root h hu := charged_rootActs h hu
  cancel h := ⟨kept_sound.cancel h.toSound, h.lists, h.failing⟩

theorem charged_start {maxConcurrency : Nat} {facts : Source.ModuleFacts}
    (h : plan.walked? files plan.entry = some facts) :
    Charged plan files (.start maxConcurrency facts) :=
  ⟨sound_start h, Ledger.lists_nil _, fun _ hk ↦ absurd hk List.not_mem_nil⟩

/-! ## Imports -/

/-- The imports that someone has to take care of, and those with an issue. -/
def imports (plan : ScanPlan) (files : FileTree) (s : Scan) : List (Path × String) :=
  s.underway plan files ++ s.issues.map fun issue ↦ (issue.importer, issue.specifier)

/-- No import is taken care of twice, nor after it has been reported. -/
structure Distinct (plan : ScanPlan) (files : FileTree) (s : Scan) : Prop
    extends Sound plan files s where
  nodup : (s.imports plan files).Nodup

/-- Only files of the ledger have imports to take care of. -/
theorem Sound.mem_keys_of_mem_imports (h : s.Sound plan files) {pair : Path × String}
    (hpair : pair ∈ s.imports plan files) : pair.1 ∈ s.ledger.keys := by
  rw [imports, underway, List.append_assoc, List.mem_append, List.mem_append] at hpair
  rcases hpair with hpair | hpair | hpair
  · obtain ⟨⟨owner, specifier, phase⟩, htask, hpair⟩ := List.mem_flatMap.1 hpair
    obtain ⟨howner, -, hphase⟩ := h.tasks _ htask
    rcases mem_underway_iff.1 hpair with ⟨-, rfl⟩ | hpair
    · exact howner
    · cases phase with
      | queueing | loading | describing | checking =>
        obtain ⟨name, -, rfl⟩ := List.mem_map.1 hpair
        exact hphase.1.mem
      | spawning =>
        obtain ⟨name, -, rfl⟩ := List.mem_map.1 hpair
        exact hphase.1.mem
      | _ => exact absurd hpair List.not_mem_nil
  · have hroot := h.root
    generalize s.root = phase at hroot hpair
    cases phase with
    | describing | spawning =>
      obtain ⟨name, -, rfl⟩ := List.mem_map.1 hpair
      exact hroot.1
    | _ => exact absurd hpair List.not_mem_nil
  · obtain ⟨issue, hissue, rfl⟩ := List.mem_map.1 hpair
    exact (h.issues issue hissue).importer_mem

theorem imports_of_tasks {task : Task} (h : s.tasks = task :: ts) :
    s.imports plan files = task.underway plan files ++
      (ts.flatMap (·.underway plan files) ++ s.root.unstarted plan files ++
        s.issues.map fun issue ↦ (issue.importer, issue.specifier)) := by
  simp [imports, underway, h]

theorem nodup_pairs {names : List String} (h : names.Nodup) : (names.map (t, ·)).Nodup :=
  h.map fun _ _ heq ↦ (Prod.mk.inj heq).2

/-- A task goes on to a phase in which it takes care of no more than before. -/
theorem Distinct.advance (h : s.Distinct plan files)
    (hstep : Advances s u ts owner specifier phase phase') (hu : u.Sound plan files)
    (hissues : u.issues = s.issues)
    (hhead : (Task.underway plan files ⟨owner, specifier, phase'⟩).Sublist
      (Task.underway plan files ⟨owner, specifier, phase⟩)) : u.Distinct plan files := by
  refine ⟨hu, h.nodup.sublist ?_⟩
  rw [imports_of_tasks hstep.before, imports_of_tasks hstep.after, hstep.root, hissues]
  exact hhead.append_right _

/-- A task goes on once it has reported its import. -/
theorem Distinct.report {issue : Issue} (h : s.Distinct plan files)
    (hstep : Advances s u ts owner specifier phase phase') (hu : u.Sound plan files)
    (hissues : u.issues = issue :: s.issues)
    (hissue : (issue.importer, issue.specifier) = (owner, specifier))
    (hbefore : Task.underway plan files ⟨owner, specifier, phase⟩ = [(owner, specifier)])
    (hafter : Task.underway plan files ⟨owner, specifier, phase'⟩ = []) :
    u.Distinct plan files := by
  have hnodup := h.nodup
  rw [imports_of_tasks hstep.before, hbefore] at hnodup
  refine ⟨hu, ?_⟩
  rw [imports_of_tasks hstep.after, hafter, hstep.root, hissues, List.map_cons, hissue]
  exact List.perm_middle.symm.nodup hnodup

theorem distinct_acts (h : s.Distinct plan files)
    (htasks : s.tasks = ⟨owner, specifier, phase⟩ :: ts)
    (hu : Acts plan files s ts owner specifier phase u) : u.Distinct plan files := by
  have hsound := sound_acts h.toSound htasks hu
  obtain ⟨-, -, hphase⟩ := h.head htasks
  have hnodup := h.nodup
  rw [imports_of_tasks htasks] at hnodup
  cases hu with
  | enter | toFile | toNothing | claimLeaf | wait | queue | load | describe | link =>
    exact h.advance ⟨htasks, rfl, rfl, rfl⟩ hsound rfl (List.Sublist.refl _)
  | giveUp | toPackage | claimOld | mark | checkCancelled | spawned =>
    exact h.advance ⟨htasks, rfl, rfl, rfl⟩ hsound rfl (List.nil_sublist _)
  | loadFault =>
    exact h.advance ⟨htasks, rfl, rfl, rfl⟩ hsound rfl (List.sublist_append_left _ _)
  | check =>
    refine h.advance ⟨htasks, rfl, rfl, rfl⟩ hsound rfl ?_
    rw [Task.underway, Task.underway, Phase.unstarted, Phase.unstarted,
      ScanPlan.specifiers_eq hphase.2]
    exact List.Sublist.refl _
  | @claimScript t hnew =>
    refine ⟨hsound, ?_⟩
    -- the file is new, so that no import of it is taken care of yet
    have hdisjoint : ∀ pair ∈ (plan.specifiers files t).map (t, ·),
        ∀ pair' ∈ s.imports plan files, pair ≠ pair' := by
      rintro pair hpair pair' hpair' rfl
      obtain ⟨name, -, rfl⟩ := List.mem_map.1 hpair
      rw [Ledger.contains_of_mem_keys (h.mem_keys_of_mem_imports hpair') rfl] at hnew
      cases hnew
    have hall := List.nodup_append.2
      ⟨nodup_pairs ScanPlan.nodup_specifiers, h.nodup, hdisjoint⟩
    rw [imports_of_tasks htasks] at hall
    rw [imports_of_tasks rfl]
    exact List.perm_middle.nodup hall
  | @spawn t name names =>
    refine ⟨hsound, ?_⟩
    rw [imports_of_tasks rfl]
    exact (List.Perm.cons (owner, specifier) List.perm_middle.symm).nodup hnodup
  | report =>
    obtain ⟨fault, hfault, rfl⟩ := hphase
    obtain ⟨-, rfl⟩ := Resolver.run_resolve_eq_failed_iff.1 hfault
    exact h.report ⟨htasks, rfl, rfl, rfl⟩ hsound rfl rfl rfl rfl
  | reportModule =>
    obtain ⟨-, fault, -, rfl⟩ := hphase
    exact h.report ⟨htasks, rfl, rfl, rfl⟩ hsound rfl rfl rfl rfl
  | leave => exact ⟨hsound, hnodup⟩

theorem distinct_rootActs (h : s.Distinct plan files) (hu : RootActs plan s s.root u) :
    u.Distinct plan files := by
  have hsound := sound_rootActs h.toSound hu
  have hroot := h.root
  have hnodup := h.nodup
  rw [imports, underway] at hnodup
  generalize s.root = phase at hroot hu hnodup
  refine ⟨hsound, ?_⟩
  cases hu with
  | claim =>
    obtain ⟨-, -, htasks, hissues⟩ := hroot
    simp only [imports, underway, htasks, hissues, List.flatMap_nil, List.map_nil,
      List.append_nil, List.nil_append]
    exact nodup_pairs ScanPlan.nodup_specifiers
  | describe =>
    rw [imports, underway, RootPhase.unstarted, ← ScanPlan.specifiers_eq hroot.2]
    exact hnodup
  | @spawn name names =>
    refine List.Perm.nodup ?_ hnodup
    rw [List.append_assoc]
    exact List.perm_middle.trans (by rw [imports, underway, List.append_assoc]; rfl)
  | spawned | leave | finish => exact hnodup
  | wait | rest => exact h.nodup

theorem kept_distinct : Kept plan files (Distinct plan files) where
  alike {s t} hst h := by
    refine ⟨h.toSound.alike hst, List.Perm.nodup ?_ h.nodup⟩
    rw [imports, imports, underway, underway, ← hst.root, ← hst.issues]
    exact ((hst.tasks.flatMap_right _).append_right _).append_right _
  acts htasks h hu := distinct_acts h htasks hu
  root h hu := distinct_rootActs h hu
  cancel h := ⟨kept_sound.cancel h.toSound, h.nodup⟩

theorem distinct_start {maxConcurrency : Nat} {facts : Source.ModuleFacts}
    (h : plan.walked? files plan.entry = some facts) :
    Distinct plan files (.start maxConcurrency facts) := ⟨sound_start h, List.nodup_nil⟩

end Scan
end ImpactGraph
