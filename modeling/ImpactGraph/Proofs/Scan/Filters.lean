import ImpactGraph.Proofs.Scan.Depicted
import ImpactGraph.Proofs.Scan.Reproducible

/-!
# Filters

Three settings keep a scan from following imports: the list of external packages, and the switches
for calls of `import` and for exports from other modules.  Of two scans of one repository that
differ in these alone, the one that follows more finds all that the other one finds
(`ScanPlan.Enlarges`): filters take files, imports and failures away, but they do not add any, and
they do not change a descriptor.

That rests on `Narrower.imports`: what is imported under the narrower filters is imported under the
wider ones.  A specifier that a module has twice, once in a form that is followed and once in a form
that is not, is followed whichever of the two comes first (`mem_followed_iff`).
-/

set_option autoImplicit false

namespace ImpactGraph

/-- The filters of a configuration let no more imports through than those of another one, and there
is no other difference between the two. -/
structure ScanConfig.Narrower (config config' : ScanConfig) : Prop where
  rest : config' = { config with
    external := config'.external
    followDynamic := config'.followDynamic
    followReExports := config'.followReExports }
  external : config'.external ⊆ config.external
  followDynamic : config.followDynamic = true → config'.followDynamic = true
  followReExports : config.followReExports = true → config'.followReExports = true

/-- The same of two plans. -/
structure ScanPlan.Narrower (plan plan' : ScanPlan) : Prop where
  root : plan.root = plan'.root
  entry : plan.entry = plan'.entry
  aliases : plan.resolver.aliases = plan'.resolver.aliases
  extensions : plan.resolver.extensions = plan'.resolver.extensions
  scriptExtensions : plan.scriptExtensions = plan'.scriptExtensions
  marker : plan.marker = plan'.marker
  external : plan'.resolver.external ⊆ plan.resolver.external
  follows : ∀ kind, plan.follows kind = true → plan'.follows kind = true

/-- One outcome has all that another one has: its files with their descriptors and with the files
that import them, and what fails.  An import that resolves to nothing is reported in both for the
same file, and in the same words if all files are written in one way. -/
structure ScanPlan.Enlarges (plan : ScanPlan) (files : FileTree) (o o' : ScanOutcome) : Prop where
  node : ∀ p node, o.snapshot.get? p = some node →
    ∃ node', o'.snapshot.get? p = some node' ∧ node'.descriptor = node.descriptor ∧
      ∀ d ∈ node.dependents, ∃ d' ∈ node'.dependents, d'.same d = true
  resolution : ∀ issue ∈ o.issues, issue.kind = .resolution →
    ∃ fault importer, issue = .ofResolution fault ∧ importer.same fault.importer = true ∧
      .ofResolution { fault with importer } ∈ o'.issues
  resolution_mem : plan.OneSpelling files →
    ∀ issue ∈ o.issues, issue.kind = .resolution → issue ∈ o'.issues
  module : ∀ issue ∈ o.issues, issue.kind ≠ .resolution →
    ∃ t, issue.target = some t ∧ ∃ issue' ∈ o'.issues, issue'.kind ≠ .resolution ∧
      ∃ t', issue'.target = some t' ∧ t'.same t = true

variable {plan plan' : ScanPlan} {files : FileTree} {config config' : ScanConfig}
  {facts facts' : Source.ModuleFacts} {owner t p : Path} {specifier : String}
  {outcome outcome' : ScanOutcome}

/-! ## What is followed -/

namespace ScanPlan.Narrower

theorem facts_eq (h : plan.Narrower plan') (p : Path) : plan.facts p = plan'.facts p := by
  rw [facts, facts, h.marker]

theorem isScript_eq (h : plan.Narrower plan') (p : Path) : plan.isScript p = plan'.isScript p := by
  rw [isScript, isScript, h.scriptExtensions]

theorem walked?_eq (h : plan.Narrower plan') (p : Path) :
    plan.walked? files p = plan'.walked? files p := by
  rw [walked?, walked?, factsOf, factsOf, h.entry, h.isScript_eq, h.facts_eq]

theorem descriptorOf_eq (h : plan.Narrower plan') (p : Path) :
    plan.descriptorOf files p = plan'.descriptorOf files p := by
  rw [descriptorOf, descriptorOf, h.walked?_eq]

theorem followsFrom (h : plan.Narrower plan') (hfrom : plan.FollowsFrom files p specifier) :
    plan'.FollowsFrom files p specifier := by
  obtain ⟨facts, hwalked, site, hsite, hfollows, rfl⟩ := hfrom
  exact ⟨facts, h.walked?_eq p ▸ hwalked, site, hsite, h.follows _ hfollows, rfl⟩

/-! ## Where it leads -/

theorem isExternal_eq_false (h : plan.Narrower plan')
    (hexternal : plan.resolver.isExternal specifier = false) :
    plan'.resolver.isExternal specifier = false := by
  rw [Resolver.isExternal, List.any_eq_false] at hexternal ⊢
  intro name hname hlisted
  have hmem : name ∈ plan'.resolver.external := List.contains_iff_mem.1 hlisted
  exact hexternal name hname (List.contains_iff_mem.2 (h.external hmem))

theorem probes_eq (h : plan.Narrower plan') (owner : Path) (specifier : String) :
    plan.resolver.probes owner specifier = plan'.resolver.probes owner specifier := by
  rw [Resolver.probes, Resolver.probes, Resolver.base, Resolver.base, h.aliases, h.extensions]

theorem resolution_eq_file (h : plan.Narrower plan')
    (hresolution : plan.resolution files owner specifier = .file t) :
    plan'.resolution files owner specifier = .file t := by
  rw [resolution, Resolver.run_resolve] at hresolution ⊢
  cases hexternal : plan.resolver.isExternal specifier with
  | true =>
    rw [hexternal, if_pos rfl] at hresolution
    cases hresolution
  | false =>
    rw [hexternal, if_neg Bool.false_ne_true, h.probes_eq] at hresolution
    rw [h.isExternal_eq_false hexternal, if_neg Bool.false_ne_true]
    exact hresolution

theorem imports (h : plan.Narrower plan') (himports : plan.Imports files owner t) :
    plan'.Imports files owner t := by
  obtain ⟨specifier, hfrom, hresolution⟩ := himports
  exact ⟨specifier, h.followsFrom hfrom, h.resolution_eq_file hresolution⟩

theorem isNode (h : plan.Narrower plan') (ht : plan.IsNode files t) : plan'.IsNode files t := by
  induction ht with
  | entry =>
    rw [h.entry]
    exact .entry
  | imported _ himports ih => exact .imported ih (h.imports himports)

theorem lawful (h : plan.Narrower plan') (hfiles : FileTree.Lawful files (plan'.IsNode files)) :
    FileTree.Lawful files (plan.IsNode files) where
  metadata hp hq := hfiles.metadata (h.isNode hp) (h.isNode hq)
  contents hp hq := hfiles.contents (h.isNode hp) (h.isNode hq)

end ScanPlan.Narrower

/-! ## What is found -/

/-- A file of the one graph is shown in the other one, and nothing of it is lost. -/
theorem ScanPlan.Depicts.exists_node_of_narrower {g g' : Snapshot} {node : GraphNode}
    (h : plan.Depicts files g) (h' : plan'.Depicts files g') (hplan : plan.Narrower plan')
    (hnode : g.get? p = some node) :
    ∃ node', g'.get? p = some node' ∧ node'.descriptor = node.descriptor ∧
      ∀ d ∈ node.dependents, ∃ d' ∈ node'.dependents, d'.same d = true := by
  obtain ⟨q, hq, hparts⟩ := h.exists_isNode (SortedMap.contains_of_get?_eq_some hnode)
  obtain ⟨node', hnode', hdescriptor'⟩ := h'.exists_get? (hplan.isNode hq) hparts
  have hdescriptor : node.descriptor = plan.descriptorOf files q :=
    h.descriptor p node hnode q hq (Path.same_iff.2 hparts)
  refine ⟨node', hnode', ?_, fun d hd ↦ ?_⟩
  · rw [hdescriptor', hdescriptor, hplan.descriptorOf_eq]
  · obtain ⟨o, t, ho, himports, hsame, ht⟩ :=
      (h.dependents p node hnode d).1 ⟨d, hd, Path.same_iff.2 rfl⟩
    exact (h'.dependents p node' hnode' d).2
      ⟨o, t, hplan.isNode ho, hplan.imports himports, hsame, ht⟩

namespace Scan.Over

variable {s s' : Scan} {maxConcurrency maxConcurrency' : Nat} {issue : Issue}

/-- An import that resolves to nothing under the narrower filters does so under the wider ones. -/
theorem exists_resolution_of_narrower (h : Over plan files maxConcurrency facts s)
    (h' : Over plan' files maxConcurrency' facts' s') (hplan : plan.Narrower plan')
    (hfiles : FileTree.Lawful files (plan'.IsNode files))
    (hissue : issue ∈ (s.taken plan).issues) (hkind : issue.kind = .resolution) :
    ∃ fault importer, issue = .ofResolution fault ∧ plan'.IsNode files fault.importer ∧
      plan'.IsNode files importer ∧ importer.parts = fault.importer.parts ∧
        .ofResolution { fault with importer } ∈ (s'.taken plan').issues := by
  obtain ⟨o, ho, specifier, hfrom, hexternal, hprobes, rfl⟩ :=
    (h.accounts.resolution issue).1 ⟨hissue, hkind⟩
  have ho' := hplan.isNode (h.isNode_of_mem_keys ho)
  obtain ⟨k, hk, hknode, hparts⟩ := h'.exists_mem_keys hfiles ho'
  have hfrom' : plan'.FollowsFrom files k specifier := by
    rw [ScanPlan.FollowsFrom, ScanPlan.walked?_congr hfiles hknode ho' hparts]
    exact hplan.followsFrom hfrom
  have hprobes' : plan.resolver.probes o specifier = plan'.resolver.probes k specifier :=
    (hplan.probes_eq o specifier).trans (Resolver.probes_congr hparts.symm)
  refine ⟨_, k, rfl, ho', hknode, hparts, ?_⟩
  rw [hprobes'] at hprobes ⊢
  exact ((h'.accounts.resolution _).2 ⟨k, hk, specifier, hfrom',
    hplan.isExternal_eq_false hexternal, hprobes, rfl⟩).1

/-- A module that fails under the narrower filters fails under the wider ones. -/
theorem exists_module_of_narrower (h : Over plan files maxConcurrency facts s)
    (h' : Over plan' files maxConcurrency' facts' s') (hplan : plan.Narrower plan')
    (hfiles : FileTree.Lawful files (plan'.IsNode files))
    (hissue : issue ∈ (s.taken plan).issues) (hkind : issue.kind ≠ .resolution) :
    ∃ t, issue.target = some t ∧ ∃ issue' ∈ (s'.taken plan').issues, issue'.kind ≠ .resolution ∧
      ∃ t', issue'.target = some t' ∧ t'.parts = t.parts := by
  obtain ⟨_, -, _, -, t, ht, fault, -, hne, hscript, hfault, rfl⟩ :=
    h.accounts.module issue hissue hkind
  have ht' := hplan.isNode (h.isNode_of_mem_keys ht)
  obtain ⟨k, hk, hknode, hparts⟩ := h'.exists_mem_keys hfiles ht'
  have hne' : k.same plan'.entry = false := by
    rwa [Path.same, hparts, ← hplan.entry]
  have hscript' : plan'.isScript k = true := by
    rwa [ScanPlan.isScript_congr hparts, ← hplan.isScript_eq]
  rw [ScanPlan.factsOf, hplan.facts_eq, ← ScanPlan.factsOf] at hfault
  obtain ⟨fault', hfault'⟩ :=
    ScanPlan.exists_factsOf_eq_error hfiles ht' hknode hparts.symm hfault
  obtain ⟨issue', ⟨hissue', hkind', htarget'⟩, -⟩ :=
    h'.accounts.failing k hk hne' hscript' fault' hfault'
  exact ⟨t, rfl, issue', hissue', hkind', k, htarget', hparts⟩

theorem enlarges (h : Over plan files maxConcurrency facts s)
    (h' : Over plan' files maxConcurrency' facts' s') (hplan : plan.Narrower plan')
    (hfiles : FileTree.Lawful files (plan'.IsNode files)) :
    plan'.Enlarges files (s.taken plan) (s'.taken plan') where
  node p node hnode :=
    (h.depicts (hplan.lawful hfiles)).exists_node_of_narrower (h'.depicts hfiles) hplan hnode
  resolution issue hissue hkind := by
    obtain ⟨fault, importer, rfl, -, -, hparts, hmem⟩ :=
      h.exists_resolution_of_narrower h' hplan hfiles hissue hkind
    exact ⟨fault, importer, rfl, Path.same_iff.2 hparts, hmem⟩
  resolution_mem hspelling issue hissue hkind := by
    obtain ⟨fault, importer, rfl, hfault, himporter, hparts, hmem⟩ :=
      h.exists_resolution_of_narrower h' hplan hfiles hissue hkind
    rwa [hspelling importer fault.importer himporter hfault hparts] at hmem
  module issue hissue hkind := by
    obtain ⟨t, htarget, issue', hissue', hkind', t', htarget', hparts⟩ :=
      h.exists_module_of_narrower h' hplan hfiles hissue hkind
    exact ⟨t, htarget, issue', hissue', hkind', t', htarget', Path.same_iff.2 hparts⟩

end Scan.Over

/-! ## Two configurations -/

namespace ScanConfig.Narrower

theorem ofConfig (h : config.Narrower config') (root entry : Path) :
    (ScanPlan.ofConfig config root entry).Narrower (.ofConfig config' root entry) where
  root := rfl
  entry := rfl
  aliases := by
    rw [h.rest]
    rfl
  extensions := by
    rw [h.rest]
    rfl
  scriptExtensions := by
    rw [h.rest]
    rfl
  marker := by
    rw [h.rest]
    rfl
  external := h.external
  follows kind := by
    cases kind with
    | static => exact id
    | dynamic => exact h.followDynamic
    | reExport => exact h.followReExports

theorem findRoot_eq (h : config.Narrower config') : config.findRoot = config'.findRoot := by
  rw [h.rest]
  rfl

theorem findEntry_eq (h : config.Narrower config') : config.findEntry = config'.findEntry := by
  rw [h.rest]
  rfl

/-- Both scans have the same root and the same entry. -/
theorem exists_over (h : config.Narrower config')
    (hbegin' : config'.begin.run files = .ok (plan', facts'))
    (hends : config.Ends files (.ok outcome)) :
    ∃ plan facts s, plan.Narrower plan' ∧ Scan.Over plan files config.maxConcurrency facts s ∧
      outcome = s.taken plan := by
  obtain ⟨-, root, entry, hroot, hentry, rfl, -⟩ := begin_eq_ok_iff.1 hbegin'
  rw [← h.findRoot_eq] at hroot
  rw [← h.findEntry_eq] at hentry
  obtain ⟨facts, s, hover, houtcome⟩ := exists_over_of_found hroot hentry hends
  exact ⟨_, facts, s, h.ofConfig root entry, hover, houtcome⟩

end ScanConfig.Narrower

/-- Whatever the file tree and in whatever order the tasks take their steps, a scan with wider
filters finds all that a scan with narrower ones finds. -/
theorem enlarges_of_ends (hfilters : config.Narrower config')
    (hbegin' : config'.begin.run files = .ok (plan', facts'))
    (hfiles : FileTree.Lawful files (plan'.IsNode files))
    (h : config.Ends files (.ok outcome)) (h' : config'.Ends files (.ok outcome')) :
    plan'.Enlarges files outcome outcome' := by
  obtain ⟨plan, facts, s, hplan, hover, rfl⟩ := hfilters.exists_over hbegin' h
  obtain ⟨s', hover', rfl⟩ := exists_over_of_begin hbegin' h'
  exact hover.enlarges hover' hplan hfiles

/-! ## A filtered repository

A module is imported in two forms, one of which is filtered, and has itself an import for every
filter.  The entry also imports a file that is missing and one that is no module. -/

/-- The files of the repository. -/
def Filtered.repository : FileTree := .ofTexts
  [(.ofText "/r/main.js", "import('./both'); import './both'; import './gone'; import './bad'"),
    (.ofText "/r/both.js", "import('./late'); export * from './passed'; import 'package'"),
    (.ofText "/r/late.js", ""), (.ofText "/r/passed.js", ""), (.ofText "/r/package.js", ""),
    (.ofText "/r/bad.js", "(")]

/-- How the repository is scanned if nothing is filtered. -/
def Filtered.wide : ScanConfig :=
  { Sample.settings with followReExports := true }

/-- How it is scanned with all filters. -/
def Filtered.narrow : ScanConfig :=
  { wide with
    external := ["package"]
    followDynamic := false
    followReExports := false }

theorem Filtered.narrower : narrow.Narrower wide where
  rest := rfl
  external := List.nil_subset _
  followDynamic _ := rfl
  followReExports _ := rfl

/-- Without the filters all is found that is found with them. -/
theorem enlarges_filtered :
    ∃ plan facts o o', Filtered.wide.begin.run Filtered.repository = .ok (plan, facts) ∧
      Filtered.narrow.Ends Filtered.repository (.ok o) ∧
        Filtered.wide.Ends Filtered.repository (.ok o') ∧
          plan.Enlarges Filtered.repository o o' := by
  obtain ⟨o, h⟩ : ∃ o, Filtered.narrow.Ends Filtered.repository (.ok o) :=
    exists_ends_of_isSome (by decide +kernel)
  obtain ⟨o', h'⟩ : ∃ o', Filtered.wide.Ends Filtered.repository (.ok o') :=
    exists_ends_of_isSome (by decide +kernel)
  obtain ⟨plan, facts, hbegin⟩ := exists_begin_of_ends h'
  exact ⟨plan, facts, o, o', hbegin, h, h',
    enlarges_of_ends Filtered.narrower hbegin (FileTree.lawful_ofTexts _ _) h h'⟩

end ImpactGraph
