import ImpactGraph.Proofs.Files.Canonical
import ImpactGraph.Proofs.Scan.Finish
import ImpactGraph.Proofs.Scan.Once
import ImpactGraph.Proofs.Scan.Outcome

/-!
# One node for each file

Where every file has one canonical path, there is no second way to enter a file in the ledger:
`exists_of_resolution` says that a specifier resolves to the canonical path of the file that it
leads to, and `isCanonical_entry` that the entry is canonical too.  Importers are nodes themselves,
so they are noted by their canonical paths.

That a file is loaded at all needs `Loaded`: a script that was new for a task has been loaded, or
the task is about to load it.
-/

set_option autoImplicit false

namespace ImpactGraph

open Source

variable {ι : Type} {plan : ScanPlan} {files : FileTree} {file : Path → Option ι}
  {config : ScanConfig} {facts : ModuleFacts} {p q t k owner : Path} {specifier : String} {i : ι}

/-! ## What specifiers lead to -/

/-- A specifier leads to a file: it is no external one, and the first of its probes that is a
regular file is this one. -/
def ScanPlan.LeadsTo (plan : ScanPlan) (files : FileTree) (file : Path → Option ι) (owner : Path)
    (specifier : String) (i : ι) : Prop :=
  plan.resolver.isExternal specifier = false ∧
    ∃ probe, (plan.resolver.probes owner specifier).find? (FileTree.isFile files) = some probe ∧
      file probe = some i

namespace FileTree.Canonicalizes

/-- What a specifier resolves to is the canonical path of the file that it leads to. -/
theorem exists_of_resolution (h : files.Canonicalizes file)
    (ht : plan.resolution files owner specifier = .file t) :
    files.IsCanonical t ∧ ∃ i, plan.LeadsTo files file owner specifier i ∧ file t = some i := by
  rw [ScanPlan.resolution, Resolver.run_resolve] at ht
  split at ht
  · cases ht
  · next hexternal =>
    cases hfind : (plan.resolver.probes owner specifier).find? (FileTree.isFile files) with
    | none =>
      rw [hfind] at ht
      cases ht
    | some probe =>
      rw [hfind] at ht
      have hprobe := List.find?_some hfind
      obtain ⟨i, hi⟩ := (h.isFile_iff probe).1 hprobe
      obtain ⟨c, hc⟩ := h.exists_canonical probe hprobe
      obtain rfl : c = t := by
        simpa [Resolver.canonicalIn, hc] using ht
      obtain ⟨hcanonical, hfile⟩ := h.isCanonical hi hc
      exact ⟨hcanonical, i, ⟨by simpa using hexternal, probe, hfind, hi⟩, hfile⟩

theorem exists_resolution (h : files.Canonicalizes file)
    (hleads : plan.LeadsTo files file owner specifier i) :
    ∃ t, plan.resolution files owner specifier = .file t ∧ files.IsCanonical t ∧
      file t = some i := by
  obtain ⟨hexternal, probe, hfind, hi⟩ := hleads
  obtain ⟨c, hc⟩ := h.exists_canonical probe (List.find?_some hfind)
  refine ⟨c, ?_, h.isCanonical hi hc⟩
  rw [ScanPlan.resolution, Resolver.run_resolve, hfind]
  simp [hexternal, Resolver.canonicalIn, hc]

end FileTree.Canonicalizes

/-! ## The entry and the nodes -/

/-- What is loaded has been read. -/
theorem exists_contents_of_facts (h : plan.factsOf files p = .ok facts) :
    ∃ bytes, files (.contents p) = .ok bytes := by
  have hfacts : ((plan.facts p).run files).toOption = some facts := by
    rw [← ScanPlan.factsOf, h]
    rfl
  rw [toOption_run_facts, toOption_run_load, toOption_run_readText] at hfacts
  split at hfacts
  · cases hfacts
  · cases hcontents : files (.contents p) with
    | error fault =>
      rw [hcontents] at hfacts
      cases hfacts
    | ok bytes => exact ⟨bytes, rfl⟩

/-- The entry of a scan that starts is the canonical path of a regular file. -/
theorem isCanonical_entry (h : files.Canonicalizes file)
    (hbegin : config.begin.run files = .ok (plan, facts)) :
    files.IsCanonical plan.entry := by
  obtain ⟨-, root, entry, -, hentry, rfl, hfacts⟩ := begin_eq_ok_iff.1 hbegin
  obtain ⟨bytes, hbytes⟩ := exists_contents_of_facts hfacts
  have hfile := h.isFile_of_contents entry bytes hbytes
  rw [ScanConfig.findEntry, Dialogue.run_bind] at hentry
  generalize (root.join config.entry).clean = path at hentry
  cases hmetadata : (Files.metadata path).run files with
  | error fault =>
    rw [hmetadata] at hentry
    cases hentry
  | ok found =>
    rw [hmetadata, Dialogue.run_bind, Files.run_canonical] at hentry
    cases hcanonical : files (.canonical path) with
    | ok c =>
      rw [hcanonical] at hentry
      obtain rfl : c = entry := Except.ok.inj hentry
      exact ⟨hfile, h.idempotent path c hcanonical⟩
    | error fault =>
      -- then the entry is the path itself, which leads to a regular file after all
      rw [hcanonical] at hentry
      obtain rfl : path = entry := Except.ok.inj hentry
      obtain ⟨c, hc⟩ := h.exists_canonical path hfile
      rw [hcanonical] at hc
      cases hc

theorem Traced.isCanonical {ks : List Path} (h : files.Canonicalizes file)
    (hentry : files.IsCanonical plan.entry) (ht : Traced plan files ks t) :
    files.IsCanonical t := by
  cases ht with
  | entry => exact hentry
  | imported _ _ himports =>
    obtain ⟨specifier, -, hresolution⟩ := himports
    exact (h.exists_of_resolution hresolution).1

/-- A file that was new is kept under the spelling under which it was claimed. -/
theorem Orderly.mem_keys_of_won {log : List Event} {doer : Option (Path × String)}
    (h : Orderly plan log) (ht : Won log t doer) : t ∈ (Scan.replay ∅ log).keys := by
  induction h with
  | nil => exact absurd ht List.not_mem_nil
  | @cons event log hevent _ ih =>
    rcases List.mem_cons.1 ht with rfl | ht
    · have hnew := hevent.of_won? (t := t) rfl
      exact (Ledger.mem_keys_claim hnew).2 (.inl rfl)
    · exact Deed.extends_perform.mem_keys (ih ht)

theorem Orderly.mem_keys_of_mem_loads {log : List Event} (h : Orderly plan log)
    (ht : t ∈ loads log) : t ∈ (Scan.replay ∅ log).keys := by
  obtain ⟨event, hmem, hloaded⟩ := mem_loads.1 ht
  obtain ⟨earlier, hearlier, hallowed⟩ := h.exists_allowed hmem
  exact h.mem_keys_of_won (hearlier.subset (hallowed.of_loaded? hloaded).1)

/-! ## Scripts that are claimed are loaded -/

namespace Scan

variable {s u : Scan} {log : List Event}

/-- A task has claimed a script and is about to load it. -/
def Task.AboutToLoad (t : Path) (task : Task) : Prop :=
  task.phase = .queueing t ∨ task.phase = .loading t

/-- Every script that was new for a task has been loaded, or is about to be. -/
def Loaded (plan : ScanPlan) (log : List Event) (s : Scan) : Prop :=
  ∀ t edge, Won log t (some edge) → plan.isScript t = true →
    t ∈ loads log ∨ ∃ task ∈ s.tasks, Task.AboutToLoad t task

/-- A move keeps this, if a script is new with it only for a task that is about to load it, and if
no other task gives up what it was about to load. -/
theorem Loaded.move {events : List Event} (h : Loaded plan log s)
    (hnew : ∀ t edge, Won (events ++ log) t (some edge) → plan.isScript t = true →
      Won log t (some edge) ∨ ∃ task ∈ u.tasks, Task.AboutToLoad t task)
    (htasks : ∀ t, ∀ task ∈ s.tasks, Task.AboutToLoad t task →
      t ∈ loads events ∨ ∃ task ∈ u.tasks, Task.AboutToLoad t task) :
    Loaded plan (events ++ log) u := by
  intro t edge hwon hscript
  rw [loads, List.filterMap_append, List.mem_append]
  rcases hnew t edge hwon hscript with hwon | hnew
  · rcases h t edge hwon hscript with hloads | ⟨task, htask, habout⟩
    · exact .inl (.inr hloads)
    · exact (htasks t task htask habout).imp_left .inl
  · exact .inr hnew

theorem loaded_acts {ts : List Task} {phase : Phase} (h : Loaded plan log s)
    (htasks : s.tasks = ⟨owner, specifier, phase⟩ :: ts)
    (hu : Acts plan files s ts owner specifier phase u) :
    Loaded plan ((Task.event? plan files s.ledger ⟨owner, specifier, phase⟩).toList ++ log) u := by
  -- the other tasks stay, so only the one that acts is looked at
  have hrest {events : List Event} (hts : ts ⊆ u.tasks)
      (hhead : ∀ t, Task.AboutToLoad t ⟨owner, specifier, phase⟩ →
        t ∈ loads events ∨ ∃ task ∈ u.tasks, Task.AboutToLoad t task) :
      ∀ t, ∀ task ∈ s.tasks, Task.AboutToLoad t task →
        t ∈ loads events ∨ ∃ task ∈ u.tasks, Task.AboutToLoad t task := by
    intro t task htask habout
    rw [htasks] at htask
    rcases List.mem_cons.1 htask with rfl | htask
    · exact hhead t habout
    · exact .inr ⟨task, hts htask, habout⟩
  cases hu with
  | claimOld hold =>
    refine h.move (fun t edge hwon _ ↦ .inl ?_) (hrest (by simp) (by simp [Task.AboutToLoad]))
    simpa [Won, Task.event?, Task.deed?, Ledger.claim_fst, hold] using hwon
  | claimScript hnew hscript =>
    refine h.move (fun t edge hwon _ ↦ ?_) (hrest (by simp) (by simp [Task.AboutToLoad]))
    simp only [Won, Task.event?, Task.deed?, Ledger.claim_fst, hnew, Option.map_some,
      Option.toList_some, List.singleton_append, List.mem_cons] at hwon
    rcases hwon with hwon | hwon
    · cases hwon
      exact .inr ⟨_, List.mem_cons_self, .inl rfl⟩
    · exact .inl hwon
  | claimLeaf hnew hleaf =>
    refine h.move (fun t edge hwon hscript ↦ ?_) (hrest (by simp) (by simp [Task.AboutToLoad]))
    simp only [Won, Task.event?, Task.deed?, Ledger.claim_fst, hnew, Option.map_some,
      Option.toList_some, List.singleton_append, List.mem_cons] at hwon
    rcases hwon with hwon | hwon
    · cases hwon
      rw [hleaf] at hscript
      cases hscript
    · exact .inl hwon
  | wait | queue =>
    refine h.move (fun _ _ hwon _ ↦ .inl hwon) (hrest (by simp) fun t habout ↦ .inr ?_)
    obtain rfl : _ = t := by simpa [Task.AboutToLoad] using habout
    exact ⟨_, List.mem_cons_self, by simp [Task.AboutToLoad]⟩
  | load | loadFault =>
    refine h.move (fun t edge hwon _ ↦ .inl ?_) (hrest (by simp) fun t habout ↦ .inl ?_)
    · simpa [Won, Task.event?, Task.deed?] using hwon
    · obtain rfl : _ = t := by simpa [Task.AboutToLoad] using habout
      simp [loads, Task.event?, Task.deed?, Deed.loaded?]
  | _ =>
    refine h.move (fun t edge hwon _ ↦ .inl ?_) (hrest (by simp) (by simp [Task.AboutToLoad]))
    simpa [Won, Task.event?, Task.deed?] using hwon

theorem loaded_rootActs (h : Loaded plan log s) (hu : RootActs plan s s.root u) :
    Loaded plan ((s.root.event? plan s.ledger).toList ++ log) u := by
  generalize s.root = phase at hu
  have htasks : s.tasks ⊆ u.tasks := by cases hu <;> simp
  refine h.move (fun t edge hwon _ ↦ .inl ?_) fun t task htask habout ↦
    .inr ⟨task, htasks htask, habout⟩
  cases hu <;> simpa [Won, RootPhase.event?, RootPhase.deed?] using hwon

theorem recorded_loaded (plan : ScanPlan) (files : FileTree) :
    Recorded plan (Move.Over files) (Loaded plan) where
  alike hst h t edge hwon hscript := by
    rcases h t edge hwon hscript with hloads | ⟨task, htask, habout⟩
    · exact .inl hloads
    · exact .inr ⟨task, hst.tasks.mem_iff.1 htask, habout⟩
  acts _ htasks h hu := loaded_acts h htasks hu
  root h hu := loaded_rootActs h hu
  cancel h := h
  breakOff hm := hm.elim

end Scan

/-- A file is kept in the ledger under one spelling. -/
theorem Ledger.eq_of_mem_keys {l : Ledger} (hp : p ∈ l.keys) (hq : q ∈ l.keys)
    (h : p.parts = q.parts) : p = q := by
  obtain ⟨e, he⟩ := mem_keys_iff.1 hp
  obtain ⟨e', he'⟩ := mem_keys_iff.1 hq
  exact (he.eq_of_parts_eq he' h).1

/-! ## All that is to be said of the files of a scan -/

/-- What is true of the files of a scan under a schedule, where every file has one canonical
path. -/
structure ScanConfig.OnePerFile (config : ScanConfig) (files : FileTree) (file : Path → Option ι)
    (plan : ScanPlan) (s : Scan) (ms : List Move) : Prop where
  /-- Nodes are entered by the canonical paths of files. -/
  node : ∀ k ∈ (s.play plan ms).ledger.keys, files.IsCanonical k
  /-- Importers are noted by theirs, and are nodes. -/
  dependent : ∀ k e, (s.play plan ms).ledger.Has k e → ∀ o ∈ e.dependents.toList,
    files.IsCanonical o ∧ o ∈ (s.play plan ms).ledger.keys
  /-- No two nodes are the same file. -/
  unique : ∀ k ∈ (s.play plan ms).ledger.keys, ∀ k' ∈ (s.play plan ms).ledger.keys,
    file k = file k' → k = k'
  /-- A node that is the same file as the entry is the entry. -/
  entry : ∀ k ∈ (s.play plan ms).ledger.keys, file k = file plan.entry → k = plan.entry
  /-- However a specifier is written, it resolves to the node of the file that it leads to. -/
  target : ∀ owner specifier i, plan.LeadsTo files file owner specifier i →
    ∃ t, plan.resolution files owner specifier = .file t ∧ file t = some i ∧
      ∀ k ∈ (s.play plan ms).ledger.keys, file k = some i → t.same k = true
  /-- No file is loaded twice, and the entry not again. -/
  load : ((plan.entry :: loads (s.log plan ms)).map file).Nodup
  /-- No file is read twice, the start of the scan included. -/
  read : ((reads (config.begin.asked files ++ (s.asked plan ms).reverse)).map file).Nodup
  /-- When the scan is over, unless it was cancelled, the file that a followed specifier leads to
  has a node, among whose importers are all files with such a specifier; and a script has been
  loaded. -/
  finished : (s.play plan ms).isFinished = true → (s.play plan ms).cancelled = false →
    ∀ i, (∃ owner ∈ (s.play plan ms).ledger.keys, ∃ specifier,
      plan.FollowsFrom files owner specifier ∧ plan.LeadsTo files file owner specifier i) →
    ∃ k e, (s.play plan ms).ledger.Has k e ∧
      (∀ t, files.IsCanonical t → file t = some i → t.same k = true) ∧
      (∀ owner ∈ (s.play plan ms).ledger.keys, ∀ specifier,
        plan.FollowsFrom files owner specifier → plan.LeadsTo files file owner specifier i →
          owner ∈ e.dependents.toList) ∧
      (plan.isScript k = true → k ∈ plan.entry :: loads (s.log plan ms))

namespace Scan

variable {s : Scan} {log : List Event}

theorem Sound.isCanonical (h : s.Sound plan files) (hfiles : files.Canonicalizes file)
    (hentry : files.IsCanonical plan.entry) (hk : k ∈ s.ledger.keys) : files.IsCanonical k :=
  (h.ledger.traced k hk).isCanonical hfiles hentry

/-- No two nodes are the same file. -/
theorem Sound.eq_of_file_eq (h : s.Sound plan files) (hfiles : files.Canonicalizes file)
    (hentry : files.IsCanonical plan.entry) (hp : p ∈ s.ledger.keys) (hq : q ∈ s.ledger.keys)
    (heq : file p = file q) : p = q :=
  Ledger.eq_of_mem_keys hp hq (hfiles.parts_eq (h.isCanonical hfiles hentry hp)
    (h.isCanonical hfiles hentry hq) heq)

/-- Once there are nodes, the entry is one. -/
theorem Sound.entry_mem_of_mem (h : s.Sound plan files) (hk : k ∈ s.ledger.keys) :
    plan.entry ∈ s.ledger.keys := by
  have hroot := h.root
  cases hphase : s.root with
  | claiming =>
    rw [hphase] at hroot
    rw [hroot.2.1] at hk
    exact absurd hk List.not_mem_nil
  | describing | spawning => rw [hphase] at hroot; exact hroot.1
  | leaving | waiting | finished => rw [hphase] at hroot; exact hroot

/-- No two of the files that have been loaded are the same. -/
theorem Once.nodup_files (h : Once plan log s) (hsound : s.Sound plan files)
    (hfiles : files.Canonicalizes file) (hentry : files.IsCanonical plan.entry) :
    ((plan.entry :: loads log).map file).Nodup := by
  have hcanonical : ∀ t ∈ plan.entry :: loads log, files.IsCanonical t := by
    refine List.forall_mem_cons.2 ⟨hentry, fun t ht ↦ hsound.isCanonical hfiles hentry ?_⟩
    exact h.ledger ▸ h.orderly.mem_keys_of_mem_loads ht
  have hparts : ((plan.entry :: loads log).map Path.parts).Nodup := by
    rw [List.map_cons, List.nodup_cons]
    refine ⟨fun hmem ↦ ?_, h.orderly.nodup_loads⟩
    obtain ⟨t, ht, heq⟩ := List.mem_map.1 hmem
    exact h.orderly.not_mem_loads t ht heq
  rw [List.Nodup, List.pairwise_map] at hparts ⊢
  exact hparts.imp_of_mem fun hp hq hne heq ↦
    hne (hfiles.parts_eq (hcanonical _ hp) (hcanonical _ hq) heq)

theorem loaded_start (plan : ScanPlan) (maxConcurrency : Nat) (facts : ModuleFacts) :
    Loaded plan [] (.start maxConcurrency facts) := fun _ _ hwon ↦ absurd hwon List.not_mem_nil

/-- When no tasks are left, every script among the nodes has been loaded. -/
theorem Loaded.mem_loads (h : Loaded plan log s) (honce : Once plan log s)
    (hsound : s.Sound plan files) (htasks : s.tasks = []) (hk : k ∈ s.ledger.keys)
    (hscript : plan.isScript k = true) : k ∈ plan.entry :: loads log := by
  have hledger := honce.ledger
  have hcontains : (replay ∅ log).contains k = true :=
    Ledger.contains_of_mem_keys (hledger ▸ hk) rfl
  obtain ⟨t, doer, hwon, hparts⟩ := honce.orderly.claimed hcontains
  -- it was claimed under the spelling under which it is kept
  have ht : t ∈ s.ledger.keys := hledger ▸ honce.orderly.mem_keys_of_won hwon
  obtain rfl : k = t := Ledger.eq_of_mem_keys hk ht hparts
  cases doer with
  | none =>
    have hentry := (honce.orderly.won_entry hwon).1 rfl
    obtain rfl : k = plan.entry := Ledger.eq_of_mem_keys hk (hsound.entry_mem_of_mem hk) hentry
    exact List.mem_cons_self
  | some edge =>
    rcases h k edge hwon hscript with hloads | ⟨task, htask, -⟩
    · exact List.mem_cons_of_mem _ hloads
    · rw [htasks] at htask
      exact absurd htask List.not_mem_nil

/-- What the start of a scan and the scan read are the entry and what the scan loads. -/
theorem reads_asked_sublist (hbegin : config.begin.run files = .ok (plan, facts)) {ms : List Move}
    (h : Orderly plan (s.log plan ms)) :
    (reads (config.begin.asked files ++ (s.asked plan ms).reverse)).Sublist
      (plan.entry :: (loads (s.log plan ms)).reverse) := by
  obtain ⟨p, hreads, hp⟩ := reads_asked_begin config files
  obtain rfl : p = plan.entry := hp plan facts hbegin
  have hloads : Orderly plan (s.log plan ms ++ []) := by rwa [List.append_nil]
  rw [reads_append, reads_reverse, asked_eq]
  exact hreads.append (List.reverse_sublist.2 hloads.reads_sublist_loads)

/-- When a scan is over, the file that a followed specifier leads to has a node, among whose
importers are all files with such a specifier. -/
theorem Over.exists_node {n : Nat} (h : Over plan files n facts s)
    (hfiles : files.Canonicalizes file) (howner : owner ∈ s.ledger.keys)
    (hfrom : plan.FollowsFrom files owner specifier)
    (hleads : plan.LeadsTo files file owner specifier i) :
    ∃ k e, s.ledger.Has k e ∧
      (∀ t, files.IsCanonical t → file t = some i → t.same k = true) ∧
      ∀ owner ∈ s.ledger.keys, ∀ specifier, plan.FollowsFrom files owner specifier →
        plan.LeadsTo files file owner specifier i → owner ∈ e.dependents.toList := by
  obtain ⟨t, ht, hcanonical, hfile⟩ := hfiles.exists_resolution hleads
  obtain ⟨k, e, he, hparts, -⟩ := h.exists_edge howner ⟨specifier, hfrom, ht⟩
  have hnode : ∀ t', files.IsCanonical t' → file t' = some i → t'.same k = true := by
    intro t' ht' hfile'
    exact Path.same_iff.2 ((hfiles.parts_eq ht' hcanonical (hfile'.trans hfile.symm)).trans hparts)
  refine ⟨k, e, he, hnode, fun owner' howner' specifier' hfrom' hleads' ↦ ?_⟩
  -- another importer is noted at a node of the same file, which is the same node
  obtain ⟨t', ht', hcanonical', hfile'⟩ := hfiles.exists_resolution hleads'
  obtain ⟨k', e', he', hparts', hmem⟩ := h.exists_edge howner' ⟨specifier', hfrom', ht'⟩
  have hsame := Path.same_iff.1 (hnode t' hcanonical' hfile')
  obtain ⟨rfl, rfl⟩ := he.eq_of_parts_eq he' (hsame.symm.trans hparts')
  obtain ⟨o, ho, hparts''⟩ := PathSet.contains_iff.1 hmem
  obtain ⟨hmem, -⟩ := (h.reachable.sound h.walked).ledger.edge k e he o ho
  rwa [Ledger.eq_of_mem_keys howner' hmem hparts'']

end Scan

/-- Where every file has one canonical path, a scan has one node for each file: whatever the
schedule, nodes and importers are entered by the canonical paths of files, and specifiers that lead
to one file resolve to one node. -/
theorem onePerFile_of_begin {ms : List Move} (hfiles : files.Canonicalizes file)
    (hbegin : config.begin.run files = .ok (plan, facts)) (hms : ∀ m ∈ ms, m.Over files) :
    config.OnePerFile files file plan (.start config.maxConcurrency facts) ms := by
  have hwalked := (walked_of_begin hbegin).2
  have hentry := isCanonical_entry hfiles hbegin
  have hreachable : Scan.Reachable plan files config.maxConcurrency facts
      ((Scan.start config.maxConcurrency facts).play plan ms) := Scan.Reachable.start.play hms
  have honce := Scan.once_play plan config.maxConcurrency facts ms
  have hloaded := (Scan.recorded_loaded plan files).play_of_nil hms
    (Scan.loaded_start plan config.maxConcurrency facts)
  generalize Scan.start config.maxConcurrency facts = s at hreachable honce hloaded
  have hsound := hreachable.sound hwalked
  have hnodup := honce.nodup_files hsound hfiles hentry
  have hunique : ∀ k ∈ (s.play plan ms).ledger.keys, ∀ k' ∈ (s.play plan ms).ledger.keys,
      file k = file k' → k = k' := fun k hk k' hk' ↦ hsound.eq_of_file_eq hfiles hentry hk hk'
  refine ⟨fun k ↦ hsound.isCanonical hfiles hentry, fun k e he o ho ↦ ?_, hunique,
    fun k hk ↦ hunique k hk _ (hsound.entry_mem_of_mem hk), fun owner specifier i hleads ↦ ?_,
    hnodup, ?_, fun hfinished hcancelled i himported ↦ ?_⟩
  · obtain ⟨hmem, -⟩ := hsound.ledger.edge k e he o ho
    exact ⟨hsound.isCanonical hfiles hentry hmem, hmem⟩
  · obtain ⟨t, ht, hcanonical, hfile⟩ := hfiles.exists_resolution hleads
    refine ⟨t, ht, hfile, fun k hk hki ↦ Path.same_iff.2 ?_⟩
    exact hfiles.parts_eq hcanonical (hsound.isCanonical hfiles hentry hk) (hfile.trans hki.symm)
  · refine List.Nodup.sublist ((Scan.reads_asked_sublist hbegin honce.orderly).map file) ?_
    rw [List.map_cons, List.map_reverse, List.nodup_cons, List.mem_reverse, List.nodup_reverse]
    rwa [List.map_cons, List.nodup_cons] at hnodup
  · obtain ⟨owner, howner, specifier, hfrom, hleads⟩ := himported
    have hover : Scan.Over plan files config.maxConcurrency facts (s.play plan ms) :=
      ⟨hwalked, hreachable, Scan.isFinished_iff.1 hfinished, hcancelled⟩
    obtain ⟨k, e, he, hnode, hedges⟩ := hover.exists_node hfiles howner hfrom hleads
    exact ⟨k, e, he, hnode, hedges, hloaded.mem_loads honce hsound hover.tasks he.mem_keys⟩

/-! ## A repository with links -/

/-- The text of the entry: it imports itself through a link, and another module in two ways. -/
def Linked.entryText : String := "import './l/main'; import './a'; import './l/../l/a.js'"

/-- A tree in memory with a directory that holds a link to itself. -/
def Linked.tree : StoredTree := .ofList
  [(["r", "main.js"], .file Linked.entryText.toUTF8),
    (["r", "a.js"], .file "import './l/l/main.js'".toUTF8),
    (["r", "l"], .link (.ofText "../r"))]

/-- The files of the tree. -/
def Linked.repository : FileTree := tree.inMemory (.error (.other "no working directory"))

/-- The entry by itself. -/
def Linked.entry : FileTree := .ofTexts [(.ofText "/r/main.js", entryText)]

/-- Where the root and the entry are. -/
theorem Linked.walks : tree.walk? (.ofText "/r") = some ["r"] ∧
    tree.walk? (.ofText "/r/main.js") = some ["r", "main.js"] := by
  have hsteps : Step.ofParts (Path.ofText "/r").parts = [.name "r"] ∧
      Step.ofParts (Path.ofText "/r/main.js").parts = [.name "r", .name "main.js"] := by
    decide +kernel
  rw [StoredTree.walk?_eq_some_iff, StoredTree.walk?_eq_some_iff, hsteps.1, hsteps.2]
  exact ⟨⟨_, .name rfl nofun rfl nofun .done⟩,
    ⟨_, .name rfl nofun rfl nofun (.name rfl nofun rfl nofun .done)⟩⟩

/-- At the start of a scan nothing but the entry is asked for, and no link is met. -/
theorem Linked.run_begin :
    Sample.settings.begin.run repository = Sample.settings.begin.run entry := by
  have hasked : Sample.settings.begin.asked entry =
      [.canonical (.ofText "/r"), .metadata (.ofText "/r/main.js"),
        .canonical (.ofText "/r/main.js"), .metadata (.ofText "/r/main.js"),
        .contents (.ofText "/r/main.js")] := by decide +kernel
  have hroot : repository (.canonical (.ofText "/r")) = entry (.canonical (.ofText "/r")) := by
    simp only [repository, StoredTree.inMemory, walks]
    rfl
  have hmetadata : repository (.metadata (.ofText "/r/main.js")) =
      entry (.metadata (.ofText "/r/main.js")) := by
    simp only [repository, StoredTree.inMemory, walks]
    rfl
  have hcanonical : repository (.canonical (.ofText "/r/main.js")) =
      entry (.canonical (.ofText "/r/main.js")) := by
    simp only [repository, StoredTree.inMemory, walks]
    rfl
  have hcontents : repository (.contents (.ofText "/r/main.js")) =
      entry (.contents (.ofText "/r/main.js")) := by
    simp only [repository, StoredTree.inMemory, walks]
    rfl
  refine Dialogue.run_congr ?_
  simp [hasked, hroot, hmetadata, hcanonical, hcontents]

theorem Linked.exists_begin :
    ∃ plan facts, Sample.settings.begin.run repository = .ok (plan, facts) := by
  have hok : (Sample.settings.begin.run entry).toOption.isSome = true := by decide +kernel
  rw [run_begin]
  cases hbegin : Sample.settings.begin.run entry with
  | error fault =>
    rw [hbegin] at hok
    cases hok
  | ok start => exact ⟨start.1, start.2, rfl⟩

/-- Whatever the schedule, the links lead to no second node. -/
theorem onePerFile_linked :
    ∃ plan facts, Sample.settings.begin.run Linked.repository = .ok (plan, facts) ∧
      Linked.repository.Canonicalizes Linked.tree.fileAt? ∧
        ∀ ms : List Move, (∀ m ∈ ms, m.Over Linked.repository) →
          Sample.settings.OnePerFile Linked.repository Linked.tree.fileAt? plan
            (.start Sample.settings.maxConcurrency facts) ms := by
  obtain ⟨plan, facts, h⟩ := Linked.exists_begin
  have hfiles : Linked.repository.Canonicalizes Linked.tree.fileAt? :=
    StoredTree.canonicalizes_inMemory _ _
  exact ⟨plan, facts, h, hfiles, fun ms ↦ onePerFile_of_begin hfiles h⟩

end ImpactGraph
