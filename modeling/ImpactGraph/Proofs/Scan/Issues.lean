import ImpactGraph.Proofs.Scan.Outcome
import ImpactGraph.Proofs.Scan.Reported
import Mathlib.Data.List.Pairwise

/-!
# The issues that a scan finds

A scan that was not cancelled reports every import that resolves to nothing and every module that
fails, each once and nothing else (`ScanPlan.Accounts`).  Which importer a module is reported for
depends on the order of the steps, since the task that claims the module reports it; but it is
always one whose import leads there.

No two issues are about the same import, so they are in strict order once they are sorted.
-/

set_option autoImplicit false

namespace ImpactGraph

open Std

/-! ## Sorting -/

namespace Issue

variable {a b : Issue}

instance : TransCmp Issue.compare :=
  inferInstanceAs (TransCmp (compareLex (compareOn Issue.importer)
    (compareLex (compareOn Issue.specifier) (compareOn fun issue : Issue ↦ issue.kind.rank))))

/-- Issues that are equal in the order are about the same import. -/
theorem eq_of_compare_eq (h : a.compare b = .eq) :
    a.importer.parts = b.importer.parts ∧ a.specifier = b.specifier := by
  rw [compare, compareLex_eq_eq, compareLex_eq_eq] at h
  exact ⟨Path.compare_eq_iff.1 h.1, LawfulEqOrd.eq_of_compare h.2.1⟩

theorem mem_sort {issues : List Issue} : a ∈ sort issues ↔ a ∈ issues := List.mem_mergeSort

/-- Without ties the order is strict. -/
theorem pairwise_sort {issues : List Issue} (h : issues.Pairwise fun a b ↦ a.compare b ≠ .eq) :
    (sort issues).Pairwise fun a b ↦ a.compare b = .lt := by
  have htrans (a b c : Issue) : (a.compare b).isLE = true → (b.compare c).isLE = true →
      (a.compare c).isLE = true := TransCmp.isLE_trans
  have htotal (a b : Issue) : ((a.compare b).isLE || (b.compare a).isLE) = true := by
    have hswap : b.compare a = (a.compare b).swap := OrientedCmp.eq_swap
    rw [hswap]
    cases a.compare b <;> rfl
  have hle : (sort issues).Pairwise fun a b ↦ (a.compare b).isLE = true :=
    List.pairwise_mergeSort htrans htotal issues
  have hne : (sort issues).Pairwise fun a b ↦ a.compare b ≠ .eq :=
    (List.mergeSort_perm issues _).symm.pairwise h fun hab hba ↦ hab (OrientedCmp.eq_symm hba)
  refine hle.imp₂ (fun a b hle hne ↦ ?_) hne
  cases hab : a.compare b with
  | lt => rfl
  | eq => exact absurd hab hne
  | gt => rw [hab] at hle; cases hle

end Issue

/-! ## What there is to report -/

namespace ScanPlan

/-- The issues of an outcome are those of the graph: the imports that resolve to nothing, and the
modules that fail, each of them once. -/
structure Accounts (plan : ScanPlan) (files : FileTree) (outcome : ScanOutcome) : Prop where
  resolution : ∀ issue, issue ∈ outcome.issues ∧ issue.kind = .resolution ↔
    ∃ o ∈ outcome.snapshot.nodes.keys, ∃ specifier, plan.FollowsFrom files o specifier ∧
      plan.resolver.isExternal specifier = false ∧
        (∀ p ∈ plan.resolver.probes o specifier, FileTree.isFile files p = false) ∧
          issue = .ofResolution ⟨o, specifier, plan.resolver.probes o specifier⟩
  module : ∀ issue ∈ outcome.issues, issue.kind ≠ .resolution →
    ∃ o ∈ outcome.snapshot.nodes.keys, ∃ specifier, plan.FollowsFrom files o specifier ∧
      ∃ t ∈ outcome.snapshot.nodes.keys, ∃ fault,
        plan.resolution files o specifier = .file t ∧ t.same plan.entry = false ∧
          plan.isScript t = true ∧ plan.factsOf files t = .error fault ∧
            issue = .ofModule o specifier t fault
  failing : ∀ t ∈ outcome.snapshot.nodes.keys, t.same plan.entry = false →
    plan.isScript t = true → ∀ fault, plan.factsOf files t = .error fault →
      ∃! issue, issue ∈ outcome.issues ∧ issue.kind ≠ .resolution ∧ issue.target = some t
  head : ∀ issue ∈ outcome.issues,
    issue.head = String.ofList (issue.specifier.toList.takeWhile (· != '/'))
  increasing : outcome.issues.Pairwise fun a b ↦ a.compare b = .lt

end ScanPlan

variable {plan : ScanPlan} {files : FileTree} {config : ScanConfig} {outcome : ScanOutcome}

theorem Issue.kind_ofModule_ne {owner t : Path} {specifier : String} {fault : ModuleFault} :
    (Issue.ofModule owner specifier t fault).kind ≠ .resolution := by
  cases fault <;> simp [Issue.ofModule]

namespace Scan.Over

variable {s : Scan} {maxConcurrency : Nat} {facts : Source.ModuleFacts}

theorem charged (h : Over plan files maxConcurrency facts s) : s.Charged plan files :=
  kept_charged.reachable (charged_start h.walked) h.reachable

theorem distinct (h : Over plan files maxConcurrency facts s) : s.Distinct plan files :=
  kept_distinct.reachable (distinct_start h.walked) h.reachable

theorem pairwise_compare_ne (h : Over plan files maxConcurrency facts s) :
    s.issues.Pairwise fun a b ↦ a.compare b ≠ .eq := by
  have hnodup := h.distinct.nodup.sublist (List.sublist_append_right _ _)
  refine (List.pairwise_map.1 hnodup).imp_of_mem fun {a b} ha hb hne hcompare ↦ hne ?_
  obtain ⟨himporter, hspecifier⟩ := Issue.eq_of_compare_eq hcompare
  obtain ⟨e, he⟩ := Ledger.mem_keys_iff.1 (h.sound.issues a ha).importer_mem
  obtain ⟨e', he'⟩ := Ledger.mem_keys_iff.1 (h.sound.issues b hb).importer_mem
  rw [(he.eq_of_parts_eq he' himporter).1, hspecifier]

/-- A module that fails is the target of one issue. -/
theorem existsUnique_issue (h : Over plan files maxConcurrency facts s) {t : Path}
    (ht : t ∈ s.ledger.keys) (hne : t.parts ≠ plan.entry.parts) (hscript : plan.isScript t = true)
    {fault : ModuleFault} (hfault : plan.factsOf files t = .error fault) :
    ∃! issue, issue ∈ s.issues ∧ issue.target = some t := by
  have hcharged : s.charged = s.issues.filterMap (·.target) := by
    rw [Scan.charged, h.tasks, List.filterMap_nil, List.nil_append]
  have hmem := h.charged.failing t ht hne hscript fault hfault
  have hnodup := h.charged.lists.nodup.of_map
  rw [hcharged] at hmem hnodup
  obtain ⟨issue, hissue, htarget⟩ := List.mem_filterMap.1 hmem
  refine ⟨issue, ⟨hissue, htarget⟩, fun issue' hissue' ↦ ?_⟩
  by_contra hdiff
  have : Symm fun a b : Issue ↦ ∀ p, a.target = some p → ∀ q, b.target = some q → p ≠ q :=
    ⟨fun a b hab p hp q hq heq ↦ hab q hq p hp heq.symm⟩
  exact (List.pairwise_filterMap.1 hnodup).forall hissue'.1 hissue hdiff t hissue'.2 t htarget rfl

theorem accounts (h : Over plan files maxConcurrency facts s) :
    plan.Accounts files (s.taken plan) where
  resolution issue := by
    rw [taken, Issue.mem_sort, Ledger.keys_snapshot]
    constructor
    · rintro ⟨hissue, hkind⟩
      cases h.sound.issues issue hissue with
      | @resolution owner specifier fault howner hspecifier hfault =>
        obtain ⟨⟨hexternal, hprobes⟩, rfl⟩ := Resolver.run_resolve_eq_failed_iff.1 hfault
        exact ⟨owner, howner, specifier, ScanPlan.mem_specifiers_iff.1 hspecifier, hexternal,
          hprobes, rfl⟩
      | module => exact absurd hkind Issue.kind_ofModule_ne
    · rintro ⟨o, ho, specifier, hfrom, hexternal, hprobes, rfl⟩
      have hfailed : plan.resolution files o specifier = .failed _ :=
        Resolver.run_resolve_eq_failed_iff.2 ⟨⟨hexternal, hprobes⟩, rfl⟩
      refine ⟨?_, rfl⟩
      cases h.followed.settled h.cancelled h.tasks h.root ho hfrom with
      | external hresolution => rw [hfailed] at hresolution; cases hresolution
      | file hresolution => rw [hfailed] at hresolution; cases hresolution
      | failed hresolution hmem =>
        rw [hfailed] at hresolution
        cases hresolution
        exact hmem
  module issue hissue hkind := by
    rw [taken, Issue.mem_sort] at hissue
    rw [taken, Ledger.keys_snapshot]
    cases h.sound.issues issue hissue with
    | resolution => exact absurd rfl hkind
    | module howner hspecifier howns hscript hfault =>
      exact ⟨_, howner, _, ScanPlan.mem_specifiers_iff.1 hspecifier, _, howns.mem, _,
        howns.resolution, decide_eq_false howns.ne, hscript, hfault, rfl⟩
  failing t ht hne hscript fault hfault := by
    rw [taken, Ledger.keys_snapshot] at ht
    rw [Path.same, decide_eq_false_iff_not] at hne
    obtain ⟨issue, ⟨hissue, htarget⟩, hunique⟩ := h.existsUnique_issue ht hne hscript hfault
    refine ⟨issue, ⟨Issue.mem_sort.2 hissue, ?_, htarget⟩, fun issue' hissue' ↦ ?_⟩
    · cases h.sound.issues issue hissue with
      | resolution => cases htarget
      | module => exact Issue.kind_ofModule_ne
    · exact hunique issue' ⟨Issue.mem_sort.1 hissue'.1, hissue'.2.2⟩
  head issue hissue := by
    cases h.sound.issues issue (Issue.mem_sort.1 hissue) with
    | resolution => rfl
    | module => rfl
  increasing := Issue.pairwise_sort h.pairwise_compare_ne

end Scan.Over

/-- Whatever the files are and in whatever order the tasks take their steps, a scan that ends with
an outcome has reported all that fails, once, and nothing else. -/
theorem accounts_of_ends (h : config.Ends files (.ok outcome)) :
    ∃ root entry, config.findRoot.run files = .ok root ∧
      (config.findEntry root).run files = .ok entry ∧
        (ScanPlan.ofConfig config root entry).Accounts files outcome := by
  obtain ⟨root, entry, facts, s, -, hroot, hentry, hover, rfl⟩ := exists_over_of_ends h
  exact ⟨root, entry, hroot, hentry, hover.accounts⟩

/-- The issues of a small repository in which a file is missing and another one is no module. -/
theorem accounts_sample :
    ∃ outcome, Sample.settings.Ends Sample.repository (.ok outcome) ∧
      ∃ root entry, Sample.settings.findRoot.run Sample.repository = .ok root ∧
        (Sample.settings.findEntry root).run Sample.repository = .ok entry ∧
          (ScanPlan.ofConfig Sample.settings root entry).Accounts Sample.repository outcome := by
  obtain ⟨outcome, h⟩ := Sample.exists_ends
  exact ⟨outcome, h, accounts_of_ends h⟩

end ImpactGraph
