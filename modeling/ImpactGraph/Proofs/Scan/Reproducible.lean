import ImpactGraph.Proofs.Scan.Finish
import ImpactGraph.Proofs.Scan.Issues
import Mathlib.Data.List.Sort

/-!
# What two scans have in common

The snapshot does not depend on the order in which the tasks take their steps, and neither does what
fails (`Agree`): two scans of one repository report the same imports that resolve to nothing, and
the same modules that cannot be loaded or parsed.

But a module is reported by the task that has claimed it, as the fault of the import which that
task is for.  Where several files import a module that fails, it depends on the order of the steps
which of them is blamed, and the list is sorted only afterwards (`issues_ne_of_race`).
-/

set_option autoImplicit false

namespace ImpactGraph

variable {plan : ScanPlan} {files : FileTree} {config : ScanConfig} {facts : Source.ModuleFacts}
  {outcome outcome' : ScanOutcome}

/-! ## The result under a schedule -/

/-- The result of a scan that is over after a schedule. -/
def ScanConfig.result? (config : ScanConfig) (files : FileTree) (ms : List Move) :
    Option (Except ScanFault ScanOutcome) :=
  match config.begin.run files with
  | .error fault => some (.error fault)
  | .ok (plan, facts) =>
    let s := (Scan.start config.maxConcurrency facts).play plan ms
    if s.isFinished then some (s.outcome plan) else none

/-- A scan has the results that it has under some schedule. -/
theorem ends_iff_exists_result? {result : Except ScanFault ScanOutcome} :
    config.Ends files result ↔
      ∃ ms, (∀ m ∈ ms, m.Over files) ∧ config.result? files ms = some result := by
  constructor
  · intro h
    cases h with
    | early hbegin => exact ⟨[], by simp, by rw [ScanConfig.result?, hbegin]⟩
    | late hbegin hs hfinished =>
      obtain ⟨ms, hms, rfl⟩ := Scan.reachable_iff_exists_play.1 hs
      refine ⟨ms, hms, ?_⟩
      rw [ScanConfig.result?, hbegin]
      exact if_pos hfinished
  · rintro ⟨ms, hms, h⟩
    rw [ScanConfig.result?] at h
    cases hbegin : config.begin.run files with
    | error fault =>
      rw [hbegin] at h
      cases h
      exact .early hbegin
    | ok started =>
      obtain ⟨plan, facts⟩ := started
      simp only [hbegin, Option.ite_none_right_eq_some, Option.some.injEq] at h
      obtain ⟨hfinished, rfl⟩ := h
      exact .late hbegin (Scan.reachable_iff_exists_play.2 ⟨ms, hms, rfl⟩) hfinished

/-! ## What is the same in all results -/

/-- What an issue says apart from who is blamed. -/
def Issue.verdict (issue : Issue) : IssueKind × Option Path × String :=
  (issue.kind, issue.target, issue.message)

/-- A module that fails, and how: a script of the graph that is not the entry, and that cannot be
loaded or parsed. -/
def ScanPlan.Fails (plan : ScanPlan) (files : FileTree) (t : Path) (fault : ModuleFault) : Prop :=
  plan.IsNode files t ∧ t.same plan.entry = false ∧ plan.isScript t = true ∧
    plan.factsOf files t = .error fault

/-- A file of the graph imports another one by this specifier. -/
def ScanPlan.ImportsBy (plan : ScanPlan) (files : FileTree) (owner : Path) (specifier : String)
    (t : Path) : Prop :=
  plan.IsNode files owner ∧ plan.FollowsFrom files owner specifier ∧
    plan.resolution files owner specifier = .file t

/-- No module that fails is imported twice. -/
def ScanPlan.FailOnce (plan : ScanPlan) (files : FileTree) : Prop :=
  ∀ t fault, plan.Fails files t fault → ∀ owner specifier owner' specifier',
    plan.ImportsBy files owner specifier t → plan.ImportsBy files owner' specifier' t →
      owner = owner' ∧ specifier = specifier'

/-- Every file of the graph is written in one way. -/
def ScanPlan.OneSpelling (plan : ScanPlan) (files : FileTree) : Prop :=
  ∀ p q, plan.IsNode files p → plan.IsNode files q → p.parts = q.parts → p = q

/-- Two outcomes have the same snapshot and report the same failures: the same imports that resolve
to nothing, in the same order, and the same modules, each with what is wrong with it.  The reports
are equal if none of these modules is imported twice. -/
structure ScanPlan.Agree (plan : ScanPlan) (files : FileTree) (o o' : ScanOutcome) : Prop where
  snapshot : o.snapshot = o'.snapshot
  resolution : o.issues.filter (·.kind = .resolution) = o'.issues.filter (·.kind = .resolution)
  module : ((o.issues.filter (·.kind ≠ .resolution)).map Issue.verdict).Perm
    ((o'.issues.filter (·.kind ≠ .resolution)).map Issue.verdict)
  issues : plan.FailOnce files → o.issues = o'.issues

/-- A tree that writes every file of a graph in one way has no spellings to tell apart. -/
theorem ScanPlan.OneSpelling.lawful (h : plan.OneSpelling files) :
    FileTree.Lawful files (plan.IsNode files) where
  metadata hp hq heq := by rw [h _ _ hp hq heq]
  contents hp hq heq := by rw [h _ _ hp hq heq]

namespace Scan.Over

variable {s s' : Scan} {maxConcurrency : Nat} {k o t : Path} {e : LedgerEntry}
  {fault : ModuleFault} {issue : Issue}

/-! ### The snapshot -/

theorem mem_keys_iff (h : Over plan files maxConcurrency facts s)
    (hspelling : plan.OneSpelling files) : k ∈ s.ledger.keys ↔ plan.IsNode files k := by
  refine ⟨h.isNode, fun hk ↦ ?_⟩
  obtain ⟨k', hk', hparts⟩ :=
    Ledger.contains_iff.1 (h.contains_of_isNode hspelling.lawful hk)
  rwa [hspelling k k' hk (h.isNode hk') hparts]

theorem mem_nodes_iff (h : Over plan files maxConcurrency facts s)
    (hspelling : plan.OneSpelling files) :
    k ∈ (s.taken plan).snapshot.nodes.keys ↔ plan.IsNode files k := by
  rw [taken, Ledger.keys_snapshot, h.mem_keys_iff hspelling]

theorem mem_dependents_iff (h : Over plan files maxConcurrency facts s)
    (hspelling : plan.OneSpelling files) (he : s.ledger.Has k e) :
    o ∈ e.dependents.toList ↔ plan.IsNode files o ∧ plan.Imports files o k := by
  constructor
  · intro ho
    obtain ⟨hmem, t, himports, ht⟩ := h.sound.ledger.edge k e he o ho
    have htk : t = k := hspelling t k (.imported (h.isNode hmem) himports) (h.isNode he.mem_keys) ht
    exact ⟨h.isNode hmem, htk ▸ himports⟩
  · rintro ⟨ho, himports⟩
    obtain ⟨k', e', he', hparts, hcontains⟩ :=
      h.exists_edge ((h.mem_keys_iff hspelling).2 ho) himports
    obtain ⟨rfl, rfl⟩ := he.eq_of_parts_eq he' hparts
    obtain ⟨o', ho', hoparts⟩ := PathSet.contains_iff.1 hcontains
    have hnode := h.isNode (h.sound.ledger.edge k e he o' ho').1
    rwa [hspelling o o' ho hnode hoparts]

/-- What the ledger says of a file is said by the graph alone. -/
theorem nodeOf_eq (h : Over plan files maxConcurrency facts s)
    (h' : Over plan files maxConcurrency facts s') (hspelling : plan.OneSpelling files)
    {e' : LedgerEntry} (he : s.ledger.Has k e) (he' : s'.ledger.Has k e') :
    Ledger.nodeOf e = Ledger.nodeOf e' := by
  have hdescriptor : e.descriptor.getD ∅ = e'.descriptor.getD ∅ :=
    (h.described.getD_descriptor h.tasks h.root he).trans
      (h'.described.getD_descriptor h'.tasks h'.root he').symm
  have hdependents : e.dependents.toList = e'.dependents.toList :=
    (SortedMap.pairwise_keys _).eq_of_mem_iff (SortedMap.pairwise_keys _) fun o ↦
      (h.mem_dependents_iff hspelling he).trans (h'.mem_dependents_iff hspelling he').symm
  rw [Ledger.nodeOf, Ledger.nodeOf, hdescriptor, hdependents]

theorem mem_entries (h : Over plan files maxConcurrency facts s)
    (h' : Over plan files maxConcurrency facts s') (hspelling : plan.OneSpelling files)
    {x : Path × GraphNode} (hx : x ∈ (s.taken plan).snapshot.nodes.entries) :
    x ∈ (s'.taken plan).snapshot.nodes.entries := by
  rw [taken, Ledger.entries_snapshot, List.mem_map] at hx ⊢
  obtain ⟨⟨k, e⟩, he, rfl⟩ := hx
  have hnode := h.isNode (Ledger.Has.mem_keys he)
  obtain ⟨e', he'⟩ := Ledger.mem_keys_iff.1 ((h'.mem_keys_iff hspelling).2 hnode)
  exact ⟨(k, e'), he', Prod.ext rfl (h.nodeOf_eq h' hspelling he he').symm⟩

theorem snapshot_eq (h : Over plan files maxConcurrency facts s)
    (h' : Over plan files maxConcurrency facts s') (hspelling : plan.OneSpelling files) :
    (s.taken plan).snapshot = (s'.taken plan).snapshot := by
  have : Std.OrientedCmp fun a b : Path × GraphNode ↦ a.1.compare b.1 :=
    ⟨Std.OrientedCmp.eq_swap⟩
  have hnodes : (s.taken plan).snapshot.nodes = (s'.taken plan).snapshot.nodes :=
    SortedMap.ext <| (SortedMap.sorted _).eq_of_mem_iff (SortedMap.sorted _) fun x ↦
      ⟨h.mem_entries h' hspelling, h'.mem_entries h hspelling⟩
  exact congrArg (Snapshot.mk plan.root plan.entry) hnodes

/-! ### The issues -/

theorem mem_resolution (h : Over plan files maxConcurrency facts s)
    (h' : Over plan files maxConcurrency facts s') (hspelling : plan.OneSpelling files)
    (hissue : issue ∈ (s.taken plan).issues) (hkind : issue.kind = .resolution) :
    issue ∈ (s'.taken plan).issues := by
  obtain ⟨o, ho, hrest⟩ := (h.accounts.resolution issue).1 ⟨hissue, hkind⟩
  have ho' := (h'.mem_nodes_iff hspelling).2 ((h.mem_nodes_iff hspelling).1 ho)
  exact ((h'.accounts.resolution issue).2 ⟨o, ho', hrest⟩).1

/-- Any other issue is that of a module that fails, for an import of it. -/
theorem exists_fails_of_mem (h : Over plan files maxConcurrency facts s)
    (hissue : issue ∈ (s.taken plan).issues) (hkind : issue.kind ≠ .resolution) :
    ∃ owner specifier t fault, plan.ImportsBy files owner specifier t ∧
      plan.Fails files t fault ∧ issue = .ofModule owner specifier t fault := by
  obtain ⟨owner, howner, specifier, hfrom, t, ht, fault, hresolution, hne, hscript, hfault,
    rfl⟩ := h.accounts.module issue hissue hkind
  exact ⟨owner, specifier, t, fault, ⟨h.isNode_of_mem_keys howner, hfrom, hresolution⟩,
    ⟨h.isNode_of_mem_keys ht, hne, hscript, hfault⟩, rfl⟩

theorem existsUnique_of_fails (h : Over plan files maxConcurrency facts s)
    (hspelling : plan.OneSpelling files) (hfails : plan.Fails files t fault) :
    ∃! issue, issue ∈ (s.taken plan).issues ∧ issue.kind ≠ .resolution ∧
      issue.target = some t := by
  obtain ⟨ht, hne, hscript, hfault⟩ := hfails
  exact h.accounts.failing t ((h.mem_nodes_iff hspelling).2 ht) hne hscript fault hfault

/-- A module that fails is reported for one of its imports. -/
theorem exists_mem_of_fails (h : Over plan files maxConcurrency facts s)
    (hspelling : plan.OneSpelling files) (hfails : plan.Fails files t fault) :
    ∃ owner specifier, plan.ImportsBy files owner specifier t ∧
      .ofModule owner specifier t fault ∈ (s.taken plan).issues := by
  obtain ⟨issue, ⟨hissue, hkind, htarget⟩, -⟩ := h.existsUnique_of_fails hspelling hfails
  obtain ⟨owner, specifier, t', fault', himports, hfails', rfl⟩ :=
    h.exists_fails_of_mem hissue hkind
  cases htarget
  cases hfails.2.2.2.symm.trans hfails'.2.2.2
  exact ⟨owner, specifier, himports, hissue⟩

/-- What is said of the modules that fail, apart from who is blamed. -/
theorem mem_verdicts_iff (h : Over plan files maxConcurrency facts s)
    (hspelling : plan.OneSpelling files) {verdict : IssueKind × Option Path × String} :
    verdict ∈ ((s.taken plan).issues.filter (·.kind ≠ .resolution)).map Issue.verdict ↔
      ∃ t fault, plan.Fails files t fault ∧ verdict = (Issue.ofModule t "" t fault).verdict := by
  simp only [List.mem_map, List.mem_filter, decide_eq_true_eq]
  constructor
  · rintro ⟨issue, ⟨hissue, hkind⟩, rfl⟩
    obtain ⟨owner, specifier, t, fault, -, hfails, rfl⟩ := h.exists_fails_of_mem hissue hkind
    exact ⟨t, fault, hfails, rfl⟩
  · rintro ⟨t, fault, hfails, rfl⟩
    obtain ⟨owner, specifier, -, hissue⟩ := h.exists_mem_of_fails hspelling hfails
    exact ⟨_, ⟨hissue, Issue.kind_ofModule_ne⟩, rfl⟩

/-- No two issues say the same of a module. -/
theorem nodup_verdicts (h : Over plan files maxConcurrency facts s)
    (hspelling : plan.OneSpelling files) :
    (((s.taken plan).issues.filter (·.kind ≠ .resolution)).map Issue.verdict).Nodup := by
  refine List.Nodup.map_on ?_ (h.accounts.increasing.nodup.filter _)
  intro a ha b hb hverdict
  simp only [List.mem_filter, decide_eq_true_eq] at ha hb
  obtain ⟨owner, specifier, t, fault, -, hfails, rfl⟩ := h.exists_fails_of_mem ha.1 ha.2
  have htarget : b.target = some t := (congrArg (·.2.1) hverdict).symm
  exact (h.existsUnique_of_fails hspelling hfails).unique ⟨ha.1, ha.2, rfl⟩ ⟨hb.1, hb.2, htarget⟩

theorem mem_of_failOnce (h : Over plan files maxConcurrency facts s)
    (h' : Over plan files maxConcurrency facts s') (hspelling : plan.OneSpelling files)
    (honce : plan.FailOnce files) (hissue : issue ∈ (s.taken plan).issues) :
    issue ∈ (s'.taken plan).issues := by
  by_cases hkind : issue.kind = .resolution
  · exact h.mem_resolution h' hspelling hissue hkind
  obtain ⟨owner, specifier, t, fault, himports, hfails, rfl⟩ := h.exists_fails_of_mem hissue hkind
  obtain ⟨owner', specifier', himports', hissue'⟩ := h'.exists_mem_of_fails hspelling hfails
  obtain ⟨rfl, rfl⟩ := honce t fault hfails _ _ _ _ himports himports'
  exact hissue'

theorem agree (h : Over plan files maxConcurrency facts s)
    (h' : Over plan files maxConcurrency facts s') (hspelling : plan.OneSpelling files) :
    plan.Agree files (s.taken plan) (s'.taken plan) where
  snapshot := h.snapshot_eq h' hspelling
  resolution := by
    refine (h.accounts.increasing.filter _).eq_of_mem_iff (h'.accounts.increasing.filter _)
      fun issue ↦ ?_
    simp only [List.mem_filter, decide_eq_true_eq]
    exact ⟨fun ⟨hissue, hkind⟩ ↦ ⟨h.mem_resolution h' hspelling hissue hkind, hkind⟩,
      fun ⟨hissue, hkind⟩ ↦ ⟨h'.mem_resolution h hspelling hissue hkind, hkind⟩⟩
  module := (List.perm_ext_iff_of_nodup (h.nodup_verdicts hspelling)
    (h'.nodup_verdicts hspelling)).2 fun _ ↦
    (h.mem_verdicts_iff hspelling).trans (h'.mem_verdicts_iff hspelling).symm
  issues honce := h.accounts.increasing.eq_of_mem_iff h'.accounts.increasing
    fun _ ↦ ⟨h.mem_of_failOnce h' hspelling honce, h'.mem_of_failOnce h hspelling honce⟩

end Scan.Over

/-- An outcome was taken in a state in which the scan of this plan was over. -/
theorem exists_over_of_begin (hbegin : config.begin.run files = .ok (plan, facts))
    (h : config.Ends files (.ok outcome)) :
    ∃ s, Scan.Over plan files config.maxConcurrency facts s ∧ outcome = s.taken plan := by
  have hwalked := (walked_of_begin hbegin).2
  obtain ⟨-, root, entry, hroot, hentry, rfl, -⟩ := begin_eq_ok_iff.1 hbegin
  obtain ⟨facts', s, hover, houtcome⟩ := exists_over_of_found hroot hentry h
  cases hwalked.symm.trans hover.walked
  exact ⟨s, hover, houtcome⟩

/-- Over a file tree that writes the files of the graph in one way, two scans have the same snapshot
and report the same failures, in whatever order their tasks take their steps. -/
theorem agree_of_ends (hbegin : config.begin.run files = .ok (plan, facts))
    (hspelling : plan.OneSpelling files) (h : config.Ends files (.ok outcome))
    (h' : config.Ends files (.ok outcome')) : plan.Agree files outcome outcome' := by
  obtain ⟨s, hover, rfl⟩ := exists_over_of_begin hbegin h
  obtain ⟨s', hover', rfl⟩ := exists_over_of_begin hbegin h'
  exact hover.agree hover' hspelling

/-! ## A race

The entry imports two modules, and both of them import a file that is no module. -/

/-- The files of the repository, each with its text. -/
def Race.texts : List (Path × String) :=
  [(.ofText "/r/main.js", "import './z.js'; import './a.js'"),
    (.ofText "/r/z.js", "import './bad.js'"), (.ofText "/r/a.js", "import './bad.js'"),
    (.ofText "/r/bad.js", "(")]

/-- The repository. -/
def Race.repository : FileTree := .ofTexts texts

/-- How the repository is scanned. -/
def Race.settings : ScanConfig :=
  { ScanConfig.default with
    root := .ofText "/r"
    entry := .ofText "main.js"
    maxConcurrency := 1 }

/-- A schedule in which the task at a place goes on until it has ended, before all others. -/
def Race.schedule (i : Nat) : List Move :=
  List.replicate 6 .root ++ List.replicate 20 (.task repository i) ++
    List.replicate 40 (.task repository 0) ++ [.root]

theorem Race.over_of_mem_schedule {i : Nat} {m : Move} (h : m ∈ schedule i) :
    m.Over repository := by
  simp only [schedule, List.mem_append, List.mem_replicate, List.mem_singleton] at h
  obtain ((⟨-, rfl⟩ | ⟨-, rfl⟩) | ⟨-, rfl⟩) | rfl := h
  · exact trivial
  · rfl
  · rfl
  · exact trivial

/-- The files that are blamed under a schedule. -/
def Race.blamed? (i : Nat) : Option (List Path) :=
  match settings.result? repository (schedule i) with
  | some (.ok outcome) => some (outcome.issues.map (·.importer))
  | _ => none

theorem Race.exists_ends {i : Nat} {importers : List Path} (h : blamed? i = some importers) :
    ∃ outcome, settings.Ends repository (.ok outcome) ∧
      outcome.issues.map (·.importer) = importers := by
  rw [blamed?] at h
  split at h
  · next outcome hresult =>
    refine ⟨outcome, ?_, Option.some.inj h⟩
    exact ends_iff_exists_result?.2 ⟨schedule i, fun _ ↦ over_of_mem_schedule, hresult⟩
  · cases h

theorem Race.blamed?_zero : blamed? 0 = some [.ofText "/r/z.js"] := by decide +kernel

theorem Race.blamed?_one : blamed? 1 = some [.ofText "/r/a.js"] := by decide +kernel

/-- Two scans of the repository end with different issues. -/
theorem issues_ne_of_race :
    ∃ o o', Race.settings.Ends Race.repository (.ok o) ∧
      Race.settings.Ends Race.repository (.ok o') ∧ o.issues ≠ o'.issues := by
  obtain ⟨o, h, ho⟩ := Race.exists_ends Race.blamed?_zero
  obtain ⟨o', h', ho'⟩ := Race.exists_ends Race.blamed?_one
  refine ⟨o, o', h, h', fun heq ↦ ?_⟩
  have hpaths : [Path.ofText "/r/z.js"] = [.ofText "/r/a.js"] := by rw [← ho, ← ho', heq]
  exact absurd hpaths (by decide)

theorem Race.exists_begin :
    ∃ plan facts, settings.begin.run repository = .ok (plan, facts) ∧
      plan.entry = .ofText "/r/main.js" := exists_begin_of_entry (by decide +kernel)

theorem Race.oneSpelling (hentry : plan.entry = .ofText "/r/main.js") :
    plan.OneSpelling repository := by
  have hall : ∀ p ∈ Path.ofText "/r/main.js" :: texts.map (·.1.clean),
      ∀ q ∈ Path.ofText "/r/main.js" :: texts.map (·.1.clean), p.parts = q.parts → p = q := by
    decide +kernel
  intro p q hp hq h
  have hp' := ScanPlan.mem_of_isNode_ofTexts hp
  have hq' := ScanPlan.mem_of_isNode_ofTexts hq
  rw [hentry] at hp' hq'
  exact hall p hp' q hq' h

/-- The two scans agree nevertheless on the graph, and on which module fails. -/
theorem agree_of_race :
    ∃ plan facts o o', Race.settings.begin.run Race.repository = .ok (plan, facts) ∧
      plan.OneSpelling Race.repository ∧ Race.settings.Ends Race.repository (.ok o) ∧
        Race.settings.Ends Race.repository (.ok o') ∧
          o.issues.map (·.importer) ≠ o'.issues.map (·.importer) ∧
            plan.Agree Race.repository o o' := by
  obtain ⟨plan, facts, hbegin, hentry⟩ := Race.exists_begin
  obtain ⟨o, h, ho⟩ := Race.exists_ends Race.blamed?_zero
  obtain ⟨o', h', ho'⟩ := Race.exists_ends Race.blamed?_one
  have hspelling := Race.oneSpelling hentry
  have hne : o.issues.map (·.importer) ≠ o'.issues.map (·.importer) := by
    rw [ho, ho']
    decide
  exact ⟨plan, facts, o, o', hbegin, hspelling, h, h', hne,
    agree_of_ends hbegin hspelling h h'⟩

end ImpactGraph
