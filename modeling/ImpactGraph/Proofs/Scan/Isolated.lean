import ImpactGraph.Proofs.Scan.Depicted
import ImpactGraph.Proofs.Scan.Reproducible

/-!
# A file that goes bad

Two file trees agree except for one file (`FileTree.AgreeExcept`) if they differ in nothing but its
bytes and the size that is given for it: it may be a module in one of them, and in the other one it
may be no module, too large, or impossible to read.  A scan of the second tree finds the same graph
around the file as a scan of the first one (`ScanPlan.Isolates`).  Only what lies behind the file
depends on it: the files that all chains of imports lead to through this one.

The two graphs are compared along the chains that do not lead through the file.  None of the files
on them that import anything is the file itself, so all of these chains are found in both trees
(`AgreeExcept.around_iff`).
-/

set_option autoImplicit false

namespace ImpactGraph

/-- What is known of a file apart from its size. -/
def Metadata.unsized (found : Metadata) : Metadata := { found with size := 0 }

/-- Two file trees that differ at most in the bytes of one file, however it is written, and in the
size that is given for it. -/
structure FileTree.AgreeExcept (f : Path) (files files' : FileTree) : Prop where
  workingDirectory : files .workingDirectory = files' .workingDirectory
  canonical : ∀ p, files (.canonical p) = files' (.canonical p)
  unsized : ∀ p, (files (.metadata p)).map Metadata.unsized =
    (files' (.metadata p)).map Metadata.unsized
  metadata : ∀ p, p.same f = false → files (.metadata p) = files' (.metadata p)
  contents : ∀ p, p.same f = false → files (.contents p) = files' (.contents p)

namespace ScanPlan

/-- The files of the graph around a file: those that a chain of imports leads to from the entry, on
which no file but the last one may be this file. -/
inductive Around (plan : ScanPlan) (files : FileTree) (f : Path) : Path → Prop
  | entry : Around plan files f plan.entry
  | imported {owner target : Path} : Around plan files f owner → owner.same f = false →
      plan.Imports files owner target → Around plan files f target

/-- A file of the graph that cannot be loaded or parsed is a file of the snapshot all the same, with
an empty descriptor, and with all that import it as its dependents. -/
def ShowsFailing (plan : ScanPlan) (files : FileTree) (f : Path) (g : Snapshot) : Prop :=
  ∀ t fault, plan.IsNode files t → t.same f = true → plan.factsOf files t = .error fault →
    ∃ node, g.get? t = some node ∧ node.descriptor = ∅ ∧
      ∀ d, (∃ o ∈ node.dependents, o.same d = true) ↔
        ∃ o t', plan.IsNode files o ∧ plan.Imports files o t' ∧ o.same d = true ∧
          t'.same t = true

/-- Two snapshots, each over a tree of its own, do not differ around a file: both have all the files
there, with the same descriptors apart from that of the file itself, and these files are dependents
of the same files.  Where the file fails, it is shown as a file that does. -/
structure Isolates (plan : ScanPlan) (f : Path) (files files' : FileTree) (g g' : Snapshot) :
    Prop where
  around_iff : ∀ p, plan.Around files f p ↔ plan.Around files' f p
  contains : ∀ p, plan.Around files f p → g.contains p = true ∧ g'.contains p = true
  descriptor : ∀ p, plan.Around files f p → p.same f = false →
    ∀ node node', g.get? p = some node → g'.get? p = some node' →
      node.descriptor = node'.descriptor
  dependents : ∀ a b, plan.Around files f a → a.same f = false →
    (g.IsImportedBy b a ↔ g'.IsImportedBy b a)
  failing : plan.ShowsFailing files f g
  failing' : plan.ShowsFailing files' f g'

end ScanPlan

variable {plan : ScanPlan} {files files' : FileTree} {config : ScanConfig}
  {facts : Source.ModuleFacts} {f p t : Path} {g g' : Snapshot} {outcome outcome' : ScanOutcome}

theorem ScanPlan.Around.isNode (h : plan.Around files f p) : plan.IsNode files p := by
  induction h with
  | entry => exact .entry
  | imported _ _ himports ih => exact .imported ih himports

/-! ## What the trees agree on -/

namespace FileTree.AgreeExcept

theorem symm (h : AgreeExcept f files files') : AgreeExcept f files' files where
  workingDirectory := h.workingDirectory.symm
  canonical p := (h.canonical p).symm
  unsized p := (h.unsized p).symm
  metadata p hp := (h.metadata p hp).symm
  contents p hp := (h.contents p hp).symm

/-- Both trees have a path, or neither of them has it, and they agree on what it leads to. -/
theorem metadata_cases (h : AgreeExcept f files files') (p : Path) :
    (∃ fault, files (.metadata p) = .error fault ∧ files' (.metadata p) = .error fault) ∨
      ∃ found found', files (.metadata p) = .ok found ∧ files' (.metadata p) = .ok found' ∧
        found.isFile = found'.isFile := by
  have hunsized := h.unsized p
  cases hfound : files (.metadata p) with
  | error fault =>
    cases hfound' : files' (.metadata p) with
    | error fault' =>
      rw [hfound, hfound'] at hunsized
      cases hunsized
      exact .inl ⟨fault, rfl, rfl⟩
    | ok found' =>
      rw [hfound, hfound'] at hunsized
      cases hunsized
  | ok found =>
    cases hfound' : files' (.metadata p) with
    | error fault' =>
      rw [hfound, hfound'] at hunsized
      cases hunsized
    | ok found' =>
      rw [hfound, hfound'] at hunsized
      have hfounds : found.unsized = found'.unsized := by injection hunsized
      have hisFile : found.unsized.isFile = found'.unsized.isFile := by rw [hfounds]
      exact .inr ⟨found, found', rfl, rfl, hisFile⟩

theorem isFile_eq (h : AgreeExcept f files files') (p : Path) :
    FileTree.isFile files p = FileTree.isFile files' p := by
  rw [FileTree.isFile, FileTree.isFile, Files.isFile, Dialogue.run_bind, Dialogue.run_bind,
    Files.run_metadata, Files.run_metadata]
  obtain ⟨fault, hfault, hfault'⟩ | ⟨found, found', hfound, hfound', hisFile⟩ := h.metadata_cases p
  · rw [hfault, hfault']
    rfl
  · rw [hfound, hfound']
    exact hisFile

theorem findRoot_eq (h : AgreeExcept f files files') :
    config.findRoot.run files = config.findRoot.run files' := by
  rw [ScanConfig.findRoot]
  split
  · simp only [Dialogue.run_bind, Dialogue.run_pure, Files.run_canonical, h.canonical]
    cases files' (.canonical config.root) <;> rfl
  · have hdirectory : Files.workingDirectory.run files = Files.workingDirectory.run files' :=
      h.workingDirectory
    simp only [Dialogue.run_bind, hdirectory]
    cases Files.workingDirectory.run files' with
    | error fault => rfl
    | ok directory =>
      simp only [Dialogue.run_bind, Dialogue.run_pure, Files.run_canonical, h.canonical]
      cases files' (.canonical (directory.join config.root)) <;> rfl

theorem findEntry_eq (h : AgreeExcept f files files') (root : Path) :
    (config.findEntry root).run files = (config.findEntry root).run files' := by
  rw [ScanConfig.findEntry, Dialogue.run_bind, Dialogue.run_bind, Files.run_metadata,
    Files.run_metadata]
  obtain ⟨fault, hfault, hfault'⟩ | ⟨found, found', hfound, hfound', -⟩ :=
    h.metadata_cases (root.join config.entry).clean
  · rw [hfault, hfault']
    rfl
  · rw [hfound, hfound']
    simp only [Dialogue.run_bind, Files.run_canonical, h.canonical]
    cases files' (.canonical (root.join config.entry).clean) <;> rfl

/-- What a specifier stands for does not depend on what any file contains. -/
theorem resolution_eq (h : AgreeExcept f files files') (owner : Path) (specifier : String) :
    plan.resolution files owner specifier = plan.resolution files' owner specifier := by
  have hisFile : FileTree.isFile files = FileTree.isFile files' := funext h.isFile_eq
  have hcanonical : Resolver.canonicalIn files = Resolver.canonicalIn files' := by
    funext p
    rw [Resolver.canonicalIn, Resolver.canonicalIn, h.canonical]
  rw [ScanPlan.resolution, ScanPlan.resolution, Resolver.run_resolve, Resolver.run_resolve, hisFile,
    hcanonical]

theorem walked?_eq (h : AgreeExcept f files files') (hp : p.same f = false) :
    plan.walked? files p = plan.walked? files' p := by
  rw [ScanPlan.walked?, ScanPlan.walked?, ScanPlan.factsOf, ScanPlan.factsOf, toOption_run_facts,
    toOption_run_facts, toOption_run_load, toOption_run_load, toOption_run_readText,
    toOption_run_readText, h.metadata p hp, h.contents p hp]

theorem descriptorOf_eq (h : AgreeExcept f files files') (hp : p.same f = false) :
    plan.descriptorOf files p = plan.descriptorOf files' p := by
  rw [ScanPlan.descriptorOf, h.walked?_eq hp, ← ScanPlan.descriptorOf]

theorem imports_iff (h : AgreeExcept f files files') (hp : p.same f = false) :
    plan.Imports files p t ↔ plan.Imports files' p t := by
  have hwalked : plan.walked? files p = plan.walked? files' p := h.walked?_eq hp
  simp only [ScanPlan.Imports, ScanPlan.FollowsFrom, hwalked, h.resolution_eq]

theorem around (h : AgreeExcept f files files') (hp : plan.Around files f p) :
    plan.Around files' f p := by
  induction hp with
  | entry => exact .entry
  | imported _ hne himports ih => exact .imported ih hne ((h.imports_iff hne).1 himports)

theorem around_iff (h : AgreeExcept f files files') :
    plan.Around files f p ↔ plan.Around files' f p := ⟨h.around, h.symm.around⟩

/-- A scan of the one tree has the same root and the same entry as a scan of the other one. -/
theorem exists_over (h : AgreeExcept f files files')
    (hbegin : config.begin.run files = .ok (plan, facts)) (h' : config.Ends files' (.ok outcome')) :
    ∃ facts' s', Scan.Over plan files' config.maxConcurrency facts' s' ∧
      outcome' = s'.taken plan := by
  obtain ⟨-, root, entry, hroot, hentry, rfl, -⟩ := begin_eq_ok_iff.1 hbegin
  rw [h.findRoot_eq] at hroot
  rw [h.findEntry_eq] at hentry
  exact exists_over_of_found hroot hentry h'

end FileTree.AgreeExcept

/-! ## What the snapshots have in common -/

namespace ScanPlan.Depicts

theorem showsFailing (h : plan.Depicts files g) : plan.ShowsFailing files f g := by
  intro t fault ht _ hfault
  obtain ⟨node, hnode, hdescriptor⟩ := h.exists_get? ht rfl
  rw [descriptorOf, walked?_eq_none_of_error hfault] at hdescriptor
  exact ⟨node, hnode, hdescriptor, h.dependents t node hnode⟩

theorem isolates (h : plan.Depicts files g) (h' : plan.Depicts files' g')
    (hfiles : FileTree.Lawful files (plan.IsNode files))
    (hfiles' : FileTree.Lawful files' (plan.IsNode files'))
    (hagree : FileTree.AgreeExcept f files files') : plan.Isolates f files files' g g' where
  around_iff _ := hagree.around_iff
  contains _ hp := ⟨h.contains hp.isNode rfl, h'.contains (hagree.around hp).isNode rfl⟩
  descriptor p hp hne node node' hnode hnode' := by
    have hsame : p.same p = true := Path.same_iff.2 rfl
    calc node.descriptor
      _ = plan.descriptorOf files p := h.descriptor p node hnode p hp.isNode hsame
      _ = plan.descriptorOf files' p := hagree.descriptorOf_eq hne
      _ = node'.descriptor :=
        (h'.descriptor p node' hnode' p (hagree.around hp).isNode hsame).symm
  dependents a b ha hne := by
    rw [h.isImportedBy_iff hfiles ha.isNode, h'.isImportedBy_iff hfiles' (hagree.around ha).isNode]
    simp only [hagree.imports_iff hne]
  failing := h.showsFailing
  failing' := h'.showsFailing

end ScanPlan.Depicts

/-- Two scans of trees that agree except for one file, each with its tasks in any order, find the
same graph around that file. -/
theorem isolates_of_ends (hagree : FileTree.AgreeExcept f files files')
    (hbegin : config.begin.run files = .ok (plan, facts))
    (hfiles : FileTree.Lawful files (plan.IsNode files))
    (hfiles' : FileTree.Lawful files' (plan.IsNode files'))
    (h : config.Ends files (.ok outcome)) (h' : config.Ends files' (.ok outcome')) :
    plan.Isolates f files files' outcome.snapshot outcome'.snapshot := by
  obtain ⟨s, hover, rfl⟩ := exists_over_of_begin hbegin h
  obtain ⟨facts', s', hover', rfl⟩ := hagree.exists_over hbegin h'
  exact (hover.depicts hfiles).isolates (hover'.depicts hfiles') hfiles hfiles' hagree

/-! ## A module that breaks

Two files import a module.  As long as it is one, it leads to a file that nothing else leads to. -/

theorem FileTree.agreeExcept_ofTexts (before after : List (Path × String)) (text text' : String) :
    AgreeExcept f (.ofTexts (before ++ (f, text) :: after))
      (.ofTexts (before ++ (f, text') :: after)) := by
  have hfind (p : Path) (hp : p.same f = false) :
      (before ++ (f, text) :: after).find? (·.1.same p) =
        (before ++ (f, text') :: after).find? (·.1.same p) := by
    have hne : f.same p = false := by
      rw [Path.same, decide_eq_false_iff_not] at hp ⊢
      exact fun h ↦ hp h.symm
    simp [List.find?_append, hne]
  refine ⟨rfl, fun _ ↦ rfl, fun p ↦ ?_, fun p hp ↦ ?_, fun p hp ↦ ?_⟩
  · by_cases hp : p.same f = true
    · have hsame : f.same p = true := Path.same_iff.2 (Path.same_iff.1 hp).symm
      simp only [ofTexts, List.find?_append, List.find?_cons, hsame]
      cases before.find? (·.1.same p) <;> rfl
    · simp only [ofTexts, hfind p (by simpa using hp)]
  · simp only [ofTexts, hfind p hp]
  · simp only [ofTexts, hfind p hp]

/-- The files of the repository, with this text for the module. -/
def Breaking.repository (text : String) : FileTree := .ofTexts
  ([(.ofText "/r/main.js", "import './a'; import './bad'"),
      (.ofText "/r/a.js", "import './main'; import './bad'")] ++
    (.ofText "/r/bad.js", text) :: [(.ofText "/r/behind.js", "")])

/-- The graph around the module is the same before and after it breaks. -/
theorem isolates_breaking :
    ∃ plan facts o o', Sample.settings.begin.run (Breaking.repository "import './behind'") =
        .ok (plan, facts) ∧
      Sample.settings.Ends (Breaking.repository "import './behind'") (.ok o) ∧
      Sample.settings.Ends (Breaking.repository "(") (.ok o') ∧
        plan.Isolates (.ofText "/r/bad.js") (Breaking.repository "import './behind'")
          (Breaking.repository "(") o.snapshot o'.snapshot := by
  obtain ⟨o, h⟩ : ∃ o, Sample.settings.Ends (Breaking.repository "import './behind'") (.ok o) :=
    exists_ends_of_isSome (by decide +kernel)
  obtain ⟨o', h'⟩ : ∃ o', Sample.settings.Ends (Breaking.repository "(") (.ok o') :=
    exists_ends_of_isSome (by decide +kernel)
  obtain ⟨plan, facts, hbegin⟩ := exists_begin_of_ends h
  exact ⟨plan, facts, o, o', hbegin, h, h',
    isolates_of_ends (FileTree.agreeExcept_ofTexts _ _ _ _) hbegin
      (FileTree.lawful_ofTexts _ _) (FileTree.lawful_ofTexts _ _) h h'⟩

end ImpactGraph
