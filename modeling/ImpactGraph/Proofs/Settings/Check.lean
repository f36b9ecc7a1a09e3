import ImpactGraph.Proofs.Files.Disk
import ImpactGraph.Proofs.Scan.Run
import ImpactGraph.Settings.Check

/-!
# Settings that pass their check

`Settings.check` looks whether a scan can be run with the settings, and `ScanConfig.begin` looks
again.  The first follows the path of the entry through links; the second takes it from the
canonical path of the root and cleans it without looking.  Where no `..` of the entry takes back a
link, and no path gets too long for the disk, both find the same file (`starts_of_check`); where one
does, the scan may find no entry (`entryNotFound_of_astray`).
-/

set_option autoImplicit false

namespace ImpactGraph

section

variable {settings : Settings} {config : ScanConfig} {tree : StoredTree} {cwd place : Place}
  {root entry p : Path}

/-! ## What the check looks at -/

namespace StoredTree

theorem run_metadata_diskAnswer :
    (Disk.metadata p).run (tree.diskAnswer cwd) = (tree.entryAt cwd p).map metadataOf := by
  show tree.diskAnswer cwd (.metadata p) = _
  rw [diskAnswer]
  cases tree.entryAt cwd p <;> rfl

theorem isDirectory_diskAnswer :
    (Disk.isDirectory p).run (tree.diskAnswer cwd) = true ↔
      tree.entryAt cwd p = .ok .directory := by
  rw [Disk.isDirectory, Dialogue.run_bind, run_metadata_diskAnswer]
  cases tree.entryAt cwd p with
  | error e => simp [Except.map]
  | ok entry => cases entry <;> simp [Except.map, metadataOf]

theorem isFile_diskAnswer :
    (Disk.isFile p).run (tree.diskAnswer cwd) = true ↔
      ∃ bytes, tree.entryAt cwd p = .ok (.file bytes) := by
  rw [Disk.isFile, Dialogue.run_bind, run_metadata_diskAnswer]
  cases tree.entryAt cwd p with
  | error e => simp [Except.map]
  | ok entry => cases entry <;> simp [Except.map, metadataOf]

theorem exists_reach {found : TreeEntry} (h : tree.entryAt cwd p = .ok found) :
    ∃ place, tree.reach cwd p = .ok place := by
  rw [entryAt] at h
  cases hreach : tree.reach cwd p with
  | ok place => exact ⟨place, rfl⟩
  | error e =>
    rw [hreach] at h
    cases h

/-- Paths that lead to one place find the same there. -/
theorem entryAt_congr {q : Path} (h : tree.reach cwd p = tree.reach cwd q) :
    tree.entryAt cwd p = tree.entryAt cwd q := by rw [entryAt, entryAt, h]

end StoredTree

theorem Settings.run_check_eq_ok_iff {answers : (q : DiskQuestion) → q.Answer} :
    (settings.check root).run answers = .ok () ↔
      settings.fault? = none ∧ (Disk.isDirectory root).run answers = true ∧
        ∀ entry, settings.entry = some entry →
          (Disk.isFile (root.join entry)).run answers = true := by
  rw [check]
  cases settings.fault? with
  | some fault => simp
  | none =>
    simp only [Dialogue.run_bind, true_and]
    cases (Disk.isDirectory root).run answers with
    | false => simp
    | true =>
      cases settings.entry with
      | none => simp
      | some entry =>
        simp
        cases (Disk.isFile (root.join entry)).run answers <;> simp

/-- Settings pass their check on disk if they have no fault, and lead to a root and an entry. -/
theorem Settings.run_check_diskAnswer_iff :
    (settings.check root).run (tree.diskAnswer cwd) = .ok () ↔
      settings.fault? = none ∧ tree.entryAt cwd root = .ok .directory ∧
        ∀ entry, settings.entry = some entry →
          ∃ bytes, tree.entryAt cwd (root.join entry) = .ok (.file bytes) := by
  simp only [run_check_eq_ok_iff, StoredTree.isDirectory_diskAnswer, StoredTree.isFile_diskAnswer]

/-! ## Values that a scan cannot start with -/

theorem ScanConfig.fault?_eq_none_iff :
    config.fault? = none ↔
      config.entry.text.isEmpty = false ∧ config.maxConcurrency ≠ 0 ∧
        config.marker.isEmpty = false ∧
          ∀ e ∈ config.extensions ++ config.scriptExtensions, badExtension e = false := by
  rw [fault?]
  cases config.entry.text.isEmpty with
  | true => simp
  | false =>
    by_cases hzero : config.maxConcurrency = 0
    · simp [hzero]
    · cases config.marker.isEmpty <;> simp [hzero, or_imp, forall_and]

theorem Settings.fault?_eq_none_iff :
    settings.fault? = none ↔
      settings.entry.all (·.text.isEmpty) = false ∧ settings.maxConcurrency ≠ 0 ∧
        isBlank settings.marker = false ∧ settings.external.any isBlank = false ∧
          settings.aliases.keys.any badAlias = false ∧
            ∀ e ∈ settings.extensions ++ settings.scriptExtensions,
              ScanConfig.badExtension e = false := by
  rw [fault?]
  cases settings.entry.all (·.text.isEmpty) with
  | true => simp
  | false =>
    by_cases hzero : settings.maxConcurrency = 0
    · simp [hzero]
    · cases isBlank settings.marker with
      | true => simp [hzero]
      | false =>
        cases settings.external.any isBlank with
        | true => simp [hzero]
        | false =>
          cases settings.aliases.keys.any badAlias <;>
            simp [hzero, extensionFault?, or_imp, forall_and]

/-- Settings without a fault make a configuration that a scan can start with. -/
theorem Settings.exists_config (h : settings.fault? = none) (root : Path) :
    ∃ entry config, settings.entry = some entry ∧ entry.text ≠ "" ∧
      settings.toScanConfig? root = some config ∧ config.root = root ∧ config.entry = entry ∧
        config.fault? = none := by
  obtain ⟨hentry, hconcurrency, hmarker, -, -, hextensions⟩ := fault?_eq_none_iff.1 h
  cases hsome : settings.entry with
  | none => simp [hsome] at hentry
  | some entry =>
    have hne : entry.text.isEmpty = false := by simpa [hsome] using hentry
    have hmarker' : settings.marker.isEmpty = false := by
      -- an empty marker is blank
      rw [Bool.eq_false_iff]
      intro hempty
      rw [String.isEmpty_iff.1 hempty] at hmarker
      cases hmarker
    refine ⟨entry, _, rfl, by simpa using hne, congrArg (Option.map _) hsome, rfl, rfl, ?_⟩
    exact ScanConfig.fault?_eq_none_iff.2 ⟨hne, hconcurrency, hmarker', hextensions⟩

/-! ## Where a scan starts -/

/-- The faults of a scan that has found its root and its entry. -/
def ScanFault.isLate : ScanFault → Bool
  | .entryLoad _ | .entryParse _ | .cancelled => true
  | _ => false

/-- A scan starts at a path: it finds its root, and this path for its entry, and all that it comes
to is about this entry. -/
structure ScanConfig.StartsAt (config : ScanConfig) (files : FileTree) (path : Path) : Prop where
  valid : config.fault? = none
  found : ∃ root, config.findRoot.run files = .ok root ∧
    (config.findEntry root).run files = .ok path
  error : ∀ fault, config.Ends files (.error fault) → fault.isLate = true
  ok : ∀ outcome, config.Ends files (.ok outcome) → outcome.snapshot.entry = path

theorem startsAt_of_found {files : FileTree} (hvalid : config.fault? = none)
    (hroot : config.findRoot.run files = .ok root)
    (hentry : (config.findEntry root).run files = .ok p) : config.StartsAt files p := by
  refine ⟨hvalid, ⟨root, hroot, hentry⟩, fun fault hends ↦ ?_, fun outcome hends ↦ ?_⟩
  · generalize hresult : Except.error fault = result at hends
    cases hends with
    | early hbegin =>
      cases hresult
      rw [ScanConfig.begin, hvalid] at hbegin
      simp only [Dialogue.run_bind, hroot, hentry] at hbegin
      cases hfacts : ((ScanPlan.ofConfig config root p).facts p).run files with
      | ok facts => simp [hfacts] at hbegin
      | error fault' =>
        cases fault' <;>
        · simp only [hfacts, Dialogue.run_pure, Except.error.injEq] at hbegin
          rw [← hbegin]
          rfl
    | late =>
      rw [Scan.outcome] at hresult
      split at hresult <;> cases hresult
      rfl
  · generalize hresult : Except.ok outcome = result at hends
    cases hends with
    | early => cases hresult
    | late hbegin =>
      rw [Scan.outcome] at hresult
      split at hresult
      · cases hresult
      · cases hresult
        obtain ⟨-, root', entry', hroot', hentry', rfl, -⟩ := begin_eq_ok_iff.1 hbegin
        rw [hroot] at hroot'
        cases hroot'
        exact Except.ok.inj (hentry'.symm.trans hentry)

namespace StoredTree

theorem onDisk_canonical (h : tree.reach cwd p = .ok place) :
    tree.onDisk cwd (.canonical p) = .ok (pathOf place) := by
  rw [onDisk, h]

theorem onDisk_metadata {found : TreeEntry} (h : tree.entryAt cwd p = .ok found) :
    tree.onDisk cwd (.metadata p) = .ok (metadataOf found) := by
  rw [onDisk, h]

/-- A scan finds the root where the check has found it. -/
theorem Grounded.findRoot (h : tree.Grounded cwd) (hroot : tree.reach cwd config.root = .ok place)
    (hlength : ((pathOf cwd).join config.root).text.utf8ByteSize ≤ maxPath) :
    config.findRoot.run (tree.onDisk cwd) = .ok (pathOf place) := by
  rw [ScanConfig.findRoot]
  cases habsolute : config.root.isAbsolute with
  | true => simp [onDisk_canonical hroot]
  | false =>
    have hcwd : Files.workingDirectory.run (tree.onDisk cwd) = .ok (pathOf cwd) := rfl
    simp [hcwd, onDisk_canonical (h.reach_join_cwd hroot habsolute hlength)]

end StoredTree

/-- Settings that pass their check make a valid configuration.  The scan then finds the root; and
it starts at the canonical path of the entry, if no `..` of the entry takes back a link.  Paths must
not get too long for the disk on the way. -/
theorem starts_of_check (h : tree.Grounded cwd)
    (hcheck : (settings.check root).run (tree.diskAnswer cwd) = .ok ()) :
    ∃ entry config bytes canonical, settings.entry = some entry ∧
      settings.toScanConfig? root = some config ∧ config.fault? = none ∧
        tree.entryAt cwd (root.join entry) = .ok (.file bytes) ∧
          tree.onDisk cwd (.canonical (root.join entry)) = .ok canonical ∧
      (((StoredTree.pathOf cwd).join root).text.utf8ByteSize ≤ StoredTree.maxPath →
        ∃ directory, config.findRoot.run (tree.onDisk cwd) = .ok directory ∧
          ((directory.join entry).clean.text.utf8ByteSize ≤ StoredTree.maxPath →
            tree.TakesBack cwd root entry → config.StartsAt (tree.onDisk cwd) canonical)) := by
  obtain ⟨hfault, hdirectory, hfile⟩ := Settings.run_check_diskAnswer_iff.1 hcheck
  obtain ⟨entry, config, hentry, hne, hconfig, rfl, rfl, hvalid⟩ :=
    Settings.exists_config hfault root
  obtain ⟨bytes, hbytes⟩ := hfile _ hentry
  obtain ⟨directory, hreach⟩ := StoredTree.exists_reach hdirectory
  obtain ⟨place, hplace⟩ := StoredTree.exists_reach hbytes
  refine ⟨_, config, bytes, _, hentry, hconfig, hvalid, hbytes,
    StoredTree.onDisk_canonical hplace, fun hlength ↦ ?_⟩
  have hroot := h.findRoot hreach hlength
  refine ⟨_, hroot, fun hlength' hnames ↦ startsAt_of_found hvalid hroot ?_⟩
  have hclean := h.reach_clean hne hreach hplace hnames hlength'
  rw [ScanConfig.findEntry, Dialogue.run_bind, Files.run_metadata,
    StoredTree.onDisk_metadata ((StoredTree.entryAt_congr (hclean.trans hplace.symm)).trans hbytes)]
  simp [StoredTree.onDisk_canonical hclean]

/-! ## Entries with `..` -/

namespace StoredTree

/-- An entry may take back any name that no link has. -/
theorem takesBack_of_names (h : ∀ place name target, .name name ∈ Step.spelled entry.text →
    (place ++ [name], TreeEntry.link target) ∉ tree.entries.entries) :
    tree.TakesBack cwd root entry := by
  intro place links _ before text between after reached rest hspelled _ _ target hlink
  rcases mem_entries hlink with hempty | hmem
  · exact absurd hempty (by simp)
  · exact h reached text target (by rw [hspelled]; simp) hmem

end StoredTree

end

/-! ## Two repositories with links -/

/-- Where a link leads. -/
def TreeEntry.link? : TreeEntry → Option Path
  | link target => some target
  | _ => none

/-- A repository that is reached through a link. -/
def Behind.tree : StoredTree := .ofList
  [(["x", "a.js"], .file "import './a'".toUTF8), (["x", "s"], .directory),
    (["r"], .link (.ofText "x"))]

/-- Settings with an entry that takes back the name of a directory. -/
def Behind.settings : Settings := { Settings.default with entry := some (.ofText "s/../a.js") }

theorem Behind.grounded : tree.Grounded [] :=
  StoredTree.grounded_nil (by decide)

/-- The steps of the paths that are followed. -/
theorem Behind.steps : Step.ofText "r" = [.name "r"] ∧ Step.ofText "x" = [.name "x"] ∧
    Step.ofText ((Path.ofText "r").join (.ofText "s/../a.js")).text =
      [.name "r", .name "s", .up, .name "a.js"] := by decide +kernel

/-- The link is followed from the directory that holds it. -/
theorem Behind.walks_link :
    StoredTree.Walks tree (fun p ↦ Step.ofText p.text) true StoredTree.maxLinks []
      [.name "r"] ["x"] 39 := by
  have hrelative : (Path.ofText "x").isAbsolute = false := by decide
  have hlink : tree.entry? ["r"] = some (.link (.ofText "x")) := rfl
  refine .link rfl (by decide) hlink ?_
  rw [hrelative, Path.text_ofText, steps.2.1]
  exact .name rfl (by decide) rfl nofun .done

theorem Behind.reach_root : tree.reach [] (.ofText "r") = .ok ["x"] :=
  StoredTree.reach_of_steps [] _ (by decide) rfl steps.1 walks_link.walkFrom

theorem Behind.reach_entry :
    tree.reach [] ((Path.ofText "r").join (.ofText "s/../a.js")) = .ok ["x", "a.js"] := by
  have hwalks : StoredTree.Walks tree (fun p ↦ Step.ofText p.text) true 39 ["x"]
      [.name "s", .up, .name "a.js"] ["x", "a.js"] 39 :=
    .name rfl (by decide) rfl nofun (.up (fun _ ↦ rfl) (.name rfl (by decide) rfl nofun .done))
  exact StoredTree.reach_of_steps [] _ (by decide) (by decide) steps.2.2
    (walks_link.append hwalks).walkFrom

theorem Behind.check : (settings.check (.ofText "r")).run (tree.diskAnswer []) = .ok () := by
  refine Settings.run_check_diskAnswer_iff.2 ⟨by decide +kernel, ?_, ?_⟩
  · rw [StoredTree.entryAt, reach_root]
    rfl
  · rintro entry hentry
    cases hentry
    rw [StoredTree.entryAt, reach_entry]
    exact ⟨"import './a'".toUTF8, rfl⟩

/-- The scan starts where the link leads. -/
theorem startsAt_behind :
    Behind.tree.Grounded [] ∧
      (Behind.settings.check (.ofText "r")).run (Behind.tree.diskAnswer []) = .ok () ∧
        ∃ config, Behind.settings.toScanConfig? (.ofText "r") = some config ∧
          config.StartsAt (Behind.tree.onDisk []) (.ofText "/x/a.js") := by
  refine ⟨Behind.grounded, Behind.check, ?_⟩
  obtain ⟨entry, config, bytes, canonical, hentry, hconfig, -, -, hcanonical, hstarts⟩ :=
    starts_of_check Behind.grounded Behind.check
  cases hentry
  have hplace : canonical = .ofText "/x/a.js" := by
    rw [StoredTree.onDisk_canonical Behind.reach_entry] at hcanonical
    exact (Except.ok.inj hcanonical).symm.trans (by decide)
  have hroot : config.root = .ofText "r" := by
    cases hconfig
    rfl
  have hdirectory : config.findRoot.run (Behind.tree.onDisk []) =
      .ok (StoredTree.pathOf ["x"]) := by
    refine Behind.grounded.findRoot ?_ ?_
    · rw [hroot]
      exact Behind.reach_root
    · rw [hroot]
      decide
  obtain ⟨directory, hfound, hstarts⟩ := hstarts (by decide)
  obtain rfl : StoredTree.pathOf ["x"] = directory := Except.ok.inj (hdirectory.symm.trans hfound)
  refine ⟨config, hconfig, hplace ▸ hstarts (by decide) ?_⟩
  refine StoredTree.takesBack_of_names fun place name target hname hmem ↦ ?_
  have hlinks : ∀ e ∈ Behind.tree.entries.entries, e.2.link?.isSome = true → e.1 = ["r"] := by
    decide
  have hlast := congrArg List.getLast? (hlinks _ hmem rfl)
  rw [List.getLast?_concat, List.getLast?_singleton, Option.some_inj] at hlast
  rw [hlast] at hname
  exact absurd hname (by decide)

/-- A repository with a link to a directory elsewhere, and a file above that directory. -/
def Astray.tree : StoredTree := .ofList
  [(["r", "l"], .link (.ofText "/x/y")), (["x", "y"], .directory),
    (["x", "a.js"], .file "".toUTF8)]

/-- Settings with an entry that takes back the name of the link. -/
def Astray.settings : Settings := { Settings.default with entry := some (.ofText "l/../a.js") }

theorem Astray.grounded : tree.Grounded [] :=
  StoredTree.grounded_nil (by decide)

/-- The steps of the paths that are followed. -/
theorem Astray.steps : Step.ofText "/r" = [.name "r"] ∧
    Step.ofText "/x/y" = [.name "x", .name "y"] ∧
    Step.ofText ((Path.ofText "/r").join (.ofText "l/../a.js")).text =
      [.name "r", .name "l", .up, .name "a.js"] ∧
    Step.ofText "/r/a.js" = [.name "r", .name "a.js"] := by decide +kernel

theorem Astray.walks_directory :
    StoredTree.Walks tree (fun p ↦ Step.ofText p.text) true StoredTree.maxLinks []
      [.name "r"] ["r"] StoredTree.maxLinks :=
  .name rfl (by decide) rfl nofun .done

theorem Astray.reach_root : tree.reach [] (.ofText "/r") = .ok ["r"] :=
  StoredTree.reach_of_steps [] _ (by decide) rfl steps.1 walks_directory.walkFrom

/-- The link is followed from the root. -/
theorem Astray.reach_entry :
    tree.reach [] ((Path.ofText "/r").join (.ofText "l/../a.js")) = .ok ["x", "a.js"] := by
  have habsolute : (Path.ofText "/x/y").isAbsolute = true := by decide
  have hlink : tree.entry? ["r", "l"] = some (.link (.ofText "/x/y")) := rfl
  have hwalks : StoredTree.Walks tree (fun p ↦ Step.ofText p.text) true StoredTree.maxLinks ["r"]
      [.name "l", .up, .name "a.js"] ["x", "a.js"] 39 := by
    refine .link rfl (by decide) hlink ?_
    rw [habsolute, Path.text_ofText, steps.2.1]
    exact .name rfl (by decide) rfl nofun (.name rfl (by decide) rfl nofun
      (.up (fun _ ↦ rfl) (.name rfl (by decide) rfl nofun .done)))
  exact StoredTree.reach_of_steps [] _ (by decide) (by decide) steps.2.2.1
    (walks_directory.append hwalks).walkFrom

theorem Astray.reach_clean : tree.reach [] (.ofText "/r/a.js") = .error .noEntry := by
  have hwalk : tree.walkFrom (fun p ↦ Step.ofText p.text) true StoredTree.maxLinks []
      [.name "r", .name "a.js"] = .error .missing :=
    (walks_directory.walkFrom_append [.name "a.js"]).trans
      (StoredTree.walkFrom_missing rfl (by decide) rfl)
  exact StoredTree.reach_of_steps [] _ (by decide) (by decide) steps.2.2.2 hwalk

theorem Astray.check : (settings.check (.ofText "/r")).run (tree.diskAnswer []) = .ok () := by
  refine Settings.run_check_diskAnswer_iff.2 ⟨by decide +kernel, ?_, ?_⟩
  · rw [StoredTree.entryAt, reach_root]
    rfl
  · rintro entry hentry
    cases hentry
    rw [StoredTree.entryAt, reach_entry]
    exact ⟨"".toUTF8, rfl⟩

/-- Here the check finds the entry, and no scan does. -/
theorem entryNotFound_of_astray :
    (Astray.settings.check (.ofText "/r")).run (Astray.tree.diskAnswer []) = .ok () ∧
      ∃ config, Astray.settings.toScanConfig? (.ofText "/r") = some config ∧
        ∀ result, config.Ends (Astray.tree.onDisk []) result →
          result = .error (.entryNotFound (.ofText "/r/a.js")) := by
  obtain ⟨entry, config, hentry, -, hconfig, hroot, hconfigEntry, hvalid⟩ :=
    Settings.exists_config (Settings.run_check_diskAnswer_iff.1 Astray.check).1 (.ofText "/r")
  cases hentry
  have hfound : config.findRoot.run (Astray.tree.onDisk []) = .ok (StoredTree.pathOf ["r"]) := by
    refine Astray.grounded.findRoot ?_ ?_
    · rw [hroot]
      exact Astray.reach_root
    · rw [hroot]
      decide
  have hclean : ((StoredTree.pathOf ["r"]).join (.ofText "l/../a.js")).clean =
      .ofText "/r/a.js" := by decide
  have hlost : (config.findEntry (StoredTree.pathOf ["r"])).run (Astray.tree.onDisk []) =
      .error (.entryNotFound (.ofText "/r/a.js")) := by
    rw [ScanConfig.findEntry, hconfigEntry, hclean, Dialogue.run_bind, Files.run_metadata,
      StoredTree.onDisk, StoredTree.entryAt, Astray.reach_clean]
    rfl
  have hbegin : config.begin.run (Astray.tree.onDisk []) =
      .error (.entryNotFound (.ofText "/r/a.js")) := by
    rw [ScanConfig.begin, hvalid]
    simp only [Dialogue.run_bind, hfound, hlost, Dialogue.run_pure]
  refine ⟨Astray.check, config, hconfig, fun result hends ↦ ?_⟩
  cases hends with
  | early hearly => exact congrArg _ (Except.error.inj (hearly.symm.trans hbegin))
  | late hlate =>
    rw [hbegin] at hlate
    cases hlate

end ImpactGraph
