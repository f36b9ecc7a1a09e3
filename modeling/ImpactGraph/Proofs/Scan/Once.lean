import ImpactGraph.Proofs.Scan.Log
import ImpactGraph.Proofs.Scan.Run
import Mathlib.Data.List.Nodup
import Mathlib.Data.List.Perm.Subperm

/-!
# Each file once

A file is claimed in the ledger before anything else is done with it, and the ledger tells one
claim only that the file is new.  So whoever makes this claim has the file to itself: `Allowed` says
what may be done after what has been done before, and `Orderly` that a log has nothing else in it.

The invariant `Once` is about the log of a schedule and the state after it.  It holds of every
schedule: the files may change, tasks may break off, and the scan may be cancelled at any time.
-/

set_option autoImplicit false

namespace ImpactGraph

variable {plan : ScanPlan} {files : FileTree} {config : ScanConfig} {p q t : Path}

/-! ## What is read -/

/-- The file whose bytes are asked for. -/
def FileQuestion.read? : FileQuestion → Option Path
  | .contents p => some p
  | _ => none

/-- The files that are read, by the questions that are asked. -/
def reads (questions : List FileQuestion) : List Path := questions.filterMap (·.read?)

@[simp] theorem reads_nil : reads [] = [] := rfl

@[simp] theorem reads_append (qs qs' : List FileQuestion) :
    reads (qs ++ qs') = reads qs ++ reads qs' := List.filterMap_append

@[simp] theorem reads_reverse (qs : List FileQuestion) :
    reads qs.reverse = (reads qs).reverse := List.filterMap_reverse

theorem reads_asked_readText : (reads ((Source.readText p).asked files)).Sublist [p] := by
  have hcontents {next : Except FileFault ByteArray → Files (Except Source.LoadFault String)}
      (hnext : ∀ answer, (next answer).asked files = []) :
      (reads ((Files.contents p >>= next).asked files)).Sublist [p] := by
    rw [Dialogue.asked_bind, hnext]
    exact .refl _
  rw [Source.readText, Dialogue.asked_bind, reads_append, Files.run_metadata]
  show (reads (Dialogue.asked files _)).Sublist [p]
  cases files (.metadata p) with
  | error fault =>
    refine hcontents fun answer ↦ ?_
    cases answer <;> rfl
  | ok found =>
    dsimp only
    split
    · exact List.nil_sublist _
    · refine hcontents fun answer ↦ ?_
      cases answer <;> rfl

theorem reads_asked_facts : (reads ((plan.facts p).asked files)).Sublist [p] := by
  have hload : (Source.load p).asked files = (Source.readText p).asked files := by
    rw [Source.load, Dialogue.asked_bind]
    cases (Source.readText p).run files <;> exact List.append_nil _
  have hfacts : (plan.facts p).asked files = (Source.load p).asked files := by
    rw [ScanPlan.facts, Dialogue.asked_bind]
    cases (Source.load p).run files with
    | error fault => exact List.append_nil _
    | ok loaded =>
      dsimp only
      split <;> exact List.append_nil _
  rw [hfacts, hload]
  exact reads_asked_readText

theorem reads_asked_firstFile (ps : List Path) :
    reads ((Probe.firstFile ps).asked files) = [] := by
  induction ps with
  | nil => rfl
  | cons p ps ih =>
    have hisFile : reads ((Files.isFile p).asked files) = [] := by
      rw [Files.isFile, Dialogue.asked_bind, reads_append]
      cases (Files.metadata p).run files <;> rfl
    rw [Probe.firstFile, Dialogue.asked_bind, reads_append, hisFile, List.nil_append]
    cases (Files.isFile p).run files with
    | true => rfl
    | false => exact ih

/-- No file is read to resolve a specifier. -/
theorem reads_asked_resolve (r : Resolver) (importer : Path) (specifier : String) :
    reads ((r.resolve importer specifier).asked files) = [] := by
  rw [Resolver.resolve]
  split
  · rfl
  · simp only [Dialogue.asked_bind, reads_append, reads_asked_firstFile, List.nil_append]
    cases (Probe.firstFile (r.probes importer specifier)).run files with
    | none => rfl
    | some probe =>
      simp only [Dialogue.asked_bind, reads_append]
      cases (Files.canonical probe).run files <;> rfl

theorem reads_asked_findRoot : reads (config.findRoot.asked files) = [] := by
  have hcanonical (absolute : Path) (next : Except FileFault Path → Files (Except ScanFault Path))
      (hnext : ∀ answer, (next answer).asked files = []) :
      reads ((Files.canonical absolute >>= next).asked files) = [] := by
    rw [Dialogue.asked_bind, reads_append, hnext]
    rfl
  rw [ScanConfig.findRoot]
  split
  · exact hcanonical _ _ fun answer ↦ by cases answer <;> rfl
  · rw [Dialogue.asked_bind, reads_append]
    cases Files.workingDirectory.run files with
    | error fault => rfl
    | ok directory => exact hcanonical _ _ fun answer ↦ by cases answer <;> rfl

theorem reads_asked_findEntry {root : Path} :
    reads ((config.findEntry root).asked files) = [] := by
  rw [ScanConfig.findEntry, Dialogue.asked_bind, reads_append, Files.run_metadata]
  cases files (.metadata (root.join config.entry).clean) with
  | error fault => rfl
  | ok found =>
    simp only [Dialogue.asked_bind, reads_append, Files.run_canonical]
    cases files (.canonical (root.join config.entry).clean) <;> rfl

/-- A scan that starts has read nothing but its entry. -/
theorem reads_asked_begin (config : ScanConfig) (files : FileTree) :
    ∃ p, (reads (config.begin.asked files)).Sublist [p] ∧
      ∀ plan facts, config.begin.run files = .ok (plan, facts) → p = plan.entry := by
  rw [ScanConfig.begin]
  cases config.fault? with
  | some fault => exact ⟨config.root, List.nil_sublist _, by simp⟩
  | none =>
    simp only [Dialogue.asked_bind, Dialogue.run_bind, reads_append, reads_asked_findRoot,
      List.nil_append]
    cases config.findRoot.run files with
    | error fault => exact ⟨config.root, List.nil_sublist _, by simp⟩
    | ok root =>
      simp only [Dialogue.asked_bind, Dialogue.run_bind, reads_append, reads_asked_findEntry,
        List.nil_append]
      cases (config.findEntry root).run files with
      | error fault => exact ⟨config.root, List.nil_sublist _, by simp⟩
      | ok entry =>
        refine ⟨entry, ?_, ?_⟩
        · simp only [Dialogue.asked_bind, reads_append]
          cases ((ScanPlan.ofConfig config root entry).facts entry).run files with
          | ok facts => simpa using reads_asked_facts
          | error fault => cases fault <;> simpa using reads_asked_facts
        · simp only [Dialogue.run_bind]
          cases ((ScanPlan.ofConfig config root entry).facts entry).run files with
          | ok facts =>
            rintro plan facts' h
            cases h
            rfl
          | error fault => cases fault <;> simp

/-! ## Logs in which every event is allowed -/

/-- The file that is loaded with a deed. -/
def Deed.loaded? : Deed → Option Path
  | .load path _ => some path
  | _ => none

/-- The import for which a task is started with a deed. -/
def Deed.launched? : Deed → Option (Path × String)
  | .launch owner specifier => some (owner, specifier)
  | _ => none

/-- The file that is claimed with a deed as a new one. -/
def Deed.won? : Deed → Option Path
  | .claim path true => some path
  | _ => none

/-- The files that have been loaded. -/
def loads (log : List Event) : List Path := log.filterMap (·.deed.loaded?)

/-- Those who have loaded a file. -/
def loaders (log : List Event) : List (Option (Path × String)) :=
  (log.filter (·.deed.loaded?.isSome)).map (·.doer)

/-- The imports for which a task has been started. -/
def launches (log : List Event) : List (Path × String) := log.filterMap (·.deed.launched?)

/-- The files that have been claimed as new ones. -/
def wins (log : List Event) : List Path := log.filterMap (·.deed.won?)

variable {log log' : List Event} {event : Event} {doer doer' : Option (Path × String)}

/-- It was for this task, or for the root, that a file was new. -/
def Won (log : List Event) (t : Path) (doer : Option (Path × String)) : Prop :=
  ⟨doer, .claim t true⟩ ∈ log

/-- A file has been claimed, under some spelling. -/
def Claimed (log : List Event) (p : Path) : Prop := ∃ t doer, Won log t doer ∧ p.parts = t.parts

/-- A file has not been loaded. -/
def Unread (log : List Event) (t : Path) : Prop := ∀ p ∈ loads log, p.parts ≠ t.parts

/-- No task has been started for an import of a file. -/
def Unlaunched (log : List Event) (t : Path) : Prop :=
  ∀ edge ∈ launches log, edge.1.parts ≠ t.parts

/-- No task has been started for these imports of a file, each of which is listed once. -/
structure Unstarted (log : List Event) (t : Path) (names : List String) : Prop where
  nodup : names.Nodup
  not_mem : ∀ name ∈ names, (t, name) ∉ launches log

/-- A task has not loaded anything. -/
def Idle (log : List Event) (doer : Option (Path × String)) : Prop :=
  ∀ event ∈ log, event.doer = doer → event.deed.loaded? = none

/-- What may be done after these events.  A file is loaded, given a descriptor and walked by who has
claimed it, and by nobody twice; no task loads two files; the entry is claimed by the root, and not
loaded again; and an importer is noted for a file that has been claimed. -/
def Deed.Allowed (plan : ScanPlan) (log : List Event) (doer : Option (Path × String)) :
    Deed → Prop
  | .resolve questions => reads questions = []
  | .load path questions =>
    Won log path doer ∧ path.parts ≠ plan.entry.parts ∧ (reads questions).Sublist [path] ∧
      Unread log path ∧ Idle log doer
  | .claim path isNew =>
    isNew = !(Scan.replay ∅ log).contains path ∧
      (isNew = true → (doer = none ↔ path.parts = plan.entry.parts))
  | .describe path _ => Won log path doer
  | .launch owner specifier => Won log owner doer ∧ (owner, specifier) ∉ launches log
  | .report _ => True
  | .link path _ => Claimed log path

/-- An event is allowed after these: its doer has been started, and may do what it does. -/
structure Event.Allowed (plan : ScanPlan) (log : List Event) (event : Event) : Prop where
  doer : ∀ edge, event.doer = some edge → edge ∈ launches log
  deed : event.deed.Allowed plan log event.doer

/-- Every event is allowed after those before it. -/
inductive Orderly (plan : ScanPlan) : List Event → Prop
  | nil : Orderly plan []
  | cons {event : Event} {log : List Event} : event.Allowed plan log → Orderly plan log →
      Orderly plan (event :: log)

theorem Deed.extends_perform {l : Ledger} {deed : Deed} : l.Extends (deed.perform l) := by
  cases deed with
  | claim => exact Ledger.extends_claim
  | describe => exact Ledger.extends_setDescriptor
  | link => exact Ledger.extends_addDependent
  | _ => exact .refl l

/-- What has been claimed is in the ledger. -/
theorem Won.contains (h : Won log t doer) : (Scan.replay ∅ log).contains t = true := by
  induction log with
  | nil => exact absurd h List.not_mem_nil
  | cons event log ih =>
    rcases List.mem_cons.1 h with rfl | h
    · exact Ledger.contains_claim
    · exact Deed.extends_perform.contains (ih h)

theorem Won.claimed (h : Won log t doer) : Claimed log t := ⟨t, doer, h, rfl⟩

theorem Claimed.cons (h : Claimed log p) : Claimed (event :: log) p := by
  obtain ⟨t, doer, hwon, hparts⟩ := h
  exact ⟨t, doer, List.mem_cons_of_mem _ hwon, hparts⟩

theorem Claimed.contains (h : Claimed log p) : (Scan.replay ∅ log).contains p = true := by
  obtain ⟨t, doer, hwon, hparts⟩ := h
  rw [Ledger.contains_congr hparts, hwon.contains]

theorem mem_launches {edge : Path × String} :
    edge ∈ launches log ↔ ∃ event ∈ log, event.deed.launched? = some edge := List.mem_filterMap

theorem mem_loads : t ∈ loads log ↔ ∃ event ∈ log, event.deed.loaded? = some t :=
  List.mem_filterMap

theorem mem_wins : t ∈ wins log ↔ ∃ doer, Won log t doer := by
  rw [wins, List.mem_filterMap]
  constructor
  · rintro ⟨⟨doer, deed⟩, hmem, hwon⟩
    cases deed with
    | claim path isNew =>
      cases isNew <;> cases hwon
      exact ⟨doer, hmem⟩
    | _ => cases hwon
  · rintro ⟨doer, h⟩
    exact ⟨_, h, rfl⟩

namespace Event.Allowed

/-- Who loads a file has claimed it, and neither of them has been at it before. -/
theorem of_loaded? (h : event.Allowed plan log) (ht : event.deed.loaded? = some t) :
    Won log t event.doer ∧ t.parts ≠ plan.entry.parts ∧ Unread log t ∧ Idle log event.doer := by
  obtain ⟨doer, deed⟩ := event
  cases deed with
  | load path questions =>
    cases ht
    obtain ⟨hwon, hne, -, hunread, hidle⟩ := h.deed
    exact ⟨hwon, hne, hunread, hidle⟩
  | _ => cases ht

theorem of_launched? {edge : Path × String} (h : event.Allowed plan log)
    (hedge : event.deed.launched? = some edge) :
    Won log edge.1 event.doer ∧ edge ∉ launches log := by
  obtain ⟨doer, deed⟩ := event
  cases deed with
  | launch =>
    cases hedge
    exact h.deed
  | _ => cases hedge

/-- A file that is new is not in the ledger. -/
theorem of_won? (h : event.Allowed plan log) (ht : event.deed.won? = some t) :
    (Scan.replay ∅ log).contains t = false := by
  obtain ⟨doer, deed⟩ := event
  cases deed with
  | claim path isNew =>
    cases isNew with
    | false => cases ht
    | true =>
      cases ht
      simpa using h.deed.1
  | _ => cases ht

end Event.Allowed

namespace Orderly

/-- What is in the ledger has been claimed. -/
theorem claimed (h : Orderly plan log) (hp : (Scan.replay ∅ log).contains p = true) :
    Claimed log p := by
  induction h with
  | nil => cases hp
  | @cons event log hevent _ ih =>
    obtain ⟨k, hk, hparts⟩ := Ledger.contains_iff.1 hp
    have hkeys (hk : k ∈ (Scan.replay ∅ log).keys) : Claimed (event :: log) p :=
      (ih (Ledger.contains_of_mem_keys hk hparts)).cons
    obtain ⟨doer, deed⟩ := event
    have hdeed := hevent.deed
    cases deed with
    | claim path isNew =>
      cases hpath : (Scan.replay ∅ log).contains path with
      | true =>
        rw [Scan.replay, List.foldr_cons, Deed.perform, ← Scan.replay,
          Ledger.claim_of_contains hpath] at hp
        exact (ih hp).cons
      | false =>
        rcases (Ledger.mem_keys_claim hpath).1 hk with rfl | hk
        · have hnew := hdeed.1
          rw [hpath] at hnew
          exact ⟨k, doer, hnew ▸ List.mem_cons_self, hparts⟩
        · exact hkeys hk
    | describe => exact hkeys (Ledger.mem_keys_setDescriptor.1 hk)
    | link => exact hkeys ((Ledger.mem_keys_addDependent hdeed.contains).1 hk)
    | _ => exact (ih hp).cons

/-- A file is new for one of them only. -/
theorem won_unique (h : Orderly plan log) (ht : Won log t doer) (hp : Won log p doer')
    (hparts : t.parts = p.parts) : t = p ∧ doer = doer' := by
  induction h with
  | nil => exact absurd ht List.not_mem_nil
  | @cons event log hevent _ ih =>
    have hnew {k q : Path} {d d' : Option (Path × String)}
        (hk : (⟨d, .claim k true⟩ : Event) = event) (hq : Won log q d')
        (hkq : k.parts = q.parts) : False := by
      have hcontains := hevent.of_won? (t := k) (by rw [← hk]; rfl)
      rw [Ledger.contains_congr hkq, hq.contains] at hcontains
      cases hcontains
    rcases List.mem_cons.1 ht with ht | ht <;> rcases List.mem_cons.1 hp with hp | hp
    · cases ht.trans hp.symm
      exact ⟨rfl, rfl⟩
    · exact (hnew ht hp hparts).elim
    · exact (hnew hp ht hparts.symm).elim
    · exact ih ht hp

theorem allowed (h : Orderly plan (log ++ event :: log')) : event.Allowed plan log' := by
  induction log with
  | nil => cases h with | cons hevent _ => exact hevent
  | cons _ log ih => cases h with | cons _ hlog => exact ih hlog

theorem exists_allowed (h : Orderly plan log) (hevent : event ∈ log) :
    ∃ earlier, earlier.Sublist log ∧ event.Allowed plan earlier := by
  obtain ⟨later, earlier, rfl⟩ := List.append_of_mem hevent
  exact ⟨earlier, ((List.sublist_cons_self _ _).trans (List.sublist_append_right _ _)), h.allowed⟩

theorem contains_of_mem_loads (h : Orderly plan log) (hp : p ∈ loads log) :
    (Scan.replay ∅ log).contains p = true := by
  obtain ⟨event, hmem, hloaded⟩ := mem_loads.1 hp
  obtain ⟨earlier, hearlier, hallowed⟩ := h.exists_allowed hmem
  exact Won.contains (hearlier.subset (hallowed.of_loaded? hloaded).1)

theorem contains_of_mem_launches {edge : Path × String} (h : Orderly plan log)
    (hedge : edge ∈ launches log) : (Scan.replay ∅ log).contains edge.1 = true := by
  obtain ⟨event, hmem, hlaunched⟩ := mem_launches.1 hedge
  obtain ⟨earlier, hearlier, hallowed⟩ := h.exists_allowed hmem
  exact Won.contains (hearlier.subset (hallowed.of_launched? hlaunched).1)

/-- Nothing has been done with a file that is new. -/
theorem unread_unlaunched (h : Orderly plan log)
    (ht : (Scan.replay ∅ log).contains t = false) : Unread log t ∧ Unlaunched log t := by
  constructor
  · intro p hp hparts
    rw [← Ledger.contains_congr hparts, h.contains_of_mem_loads hp] at ht
    cases ht
  · intro edge hedge hparts
    rw [← Ledger.contains_congr hparts, h.contains_of_mem_launches hedge] at ht
    cases ht

/-- A task that has not been started has done nothing. -/
theorem idle {edge : Path × String} (h : Orderly plan log) (hedge : edge ∉ launches log) :
    Idle log (some edge) := by
  intro event hevent hdoer
  obtain ⟨earlier, hearlier, hallowed⟩ := h.exists_allowed hevent
  exact absurd ((hearlier.filterMap _).subset (hallowed.doer edge hdoer)) hedge

/-- What an event is to all that are earlier, two events of the log are to each other. -/
theorem pairwise {R : Event → Event → Prop} (h : Orderly plan log)
    (hR : ∀ {event : Event} {earlier : List Event}, event.Allowed plan earlier →
      ∀ e ∈ earlier, R event e) : log.Pairwise R := by
  induction h with
  | nil => exact .nil
  | cons hevent _ ih => exact .cons (hR hevent) ih

theorem nodup_wins (h : Orderly plan log) : ((wins log).map Path.parts).Nodup := by
  refine List.pairwise_map.2 (List.pairwise_filterMap.2 (h.pairwise ?_))
  intro event earlier hevent e he t ht p hp hparts
  obtain ⟨doer, hwon⟩ := mem_wins.1 (List.mem_filterMap.2 ⟨e, he, hp⟩)
  have hnew := hevent.of_won? ht
  rw [Ledger.contains_congr hparts, hwon.contains] at hnew
  cases hnew

theorem nodup_loads (h : Orderly plan log) : ((loads log).map Path.parts).Nodup := by
  refine List.pairwise_map.2 (List.pairwise_filterMap.2 (h.pairwise ?_))
  intro event earlier hevent e he t ht p hp
  obtain ⟨-, -, hunread, -⟩ := hevent.of_loaded? ht
  exact (hunread p (mem_loads.2 ⟨e, he, hp⟩)).symm

theorem nodup_loaders (h : Orderly plan log) : (loaders log).Nodup := by
  refine List.pairwise_map.2 (List.pairwise_filter.2 (h.pairwise ?_))
  intro event earlier hevent e he hevent' he' hdoer
  obtain ⟨t, ht⟩ := Option.isSome_iff_exists.1 hevent'
  obtain ⟨-, -, -, hidle⟩ := hevent.of_loaded? ht
  rw [hidle e he hdoer.symm] at he'
  cases he'

theorem nodup_launches (h : Orderly plan log) : (launches log).Nodup := by
  refine List.pairwise_filterMap.2 (h.pairwise ?_)
  rintro event earlier hevent e he edge hedge _ hedge' rfl
  exact (hevent.of_launched? hedge).2 (mem_launches.2 ⟨e, he, hedge'⟩)

theorem not_mem_loads (h : Orderly plan log) : ∀ t ∈ loads log, t.parts ≠ plan.entry.parts := by
  intro t ht
  obtain ⟨event, hmem, hloaded⟩ := mem_loads.1 ht
  obtain ⟨earlier, -, hallowed⟩ := h.exists_allowed hmem
  exact (hallowed.of_loaded? hloaded).2.1

/-- The entry is claimed by the root, and any other file by a task. -/
theorem won_entry (h : Orderly plan log) (ht : Won log t doer) :
    doer = none ↔ t.parts = plan.entry.parts := by
  obtain ⟨earlier, -, hallowed⟩ := h.exists_allowed ht
  exact hallowed.deed.2 rfl

/-- It is tasks that load files. -/
theorem exists_loader (h : Orderly plan log) (hevent : event ∈ log)
    (hloaded : event.deed.loaded?.isSome = true) : ∃ edge, event.doer = some edge := by
  obtain ⟨earlier, hearlier, hallowed⟩ := h.exists_allowed hevent
  obtain ⟨t, ht⟩ := Option.isSome_iff_exists.1 hloaded
  obtain ⟨hwon, hne, -, -⟩ := hallowed.of_loaded? ht
  have hwon' : Won log t event.doer := hearlier.subset hwon
  exact Option.ne_none_iff_exists'.1 (mt (h.won_entry hwon').1 hne)

end Orderly

/-- The files that are read are those that are loaded, at most. -/
theorem Orderly.reads_sublist_loads (h : Orderly plan (log ++ log')) :
    (reads (log.flatMap (·.deed.questions))).Sublist (loads log) := by
  induction log with
  | nil => exact List.Sublist.refl _
  | cons event log ih =>
    obtain ⟨doer, deed⟩ := event
    rw [List.flatMap_cons, reads_append]
    cases h with
    | cons hevent hlog =>
      cases deed with
      | resolve questions =>
        rw [Deed.questions, reads_reverse, hevent.deed]
        exact ih hlog
      | load path questions =>
        rw [Deed.questions, reads_reverse]
        exact (List.reverse_sublist.2 hevent.deed.2.2.1).append (ih hlog)
      | _ => exact ih hlog

/-! ## What tasks have to themselves -/

section cons

variable (hlog : Orderly plan log) (hevent : event.Allowed plan log) (hne : event.doer ≠ doer)
include hlog hevent hne

theorem Unread.cons (h : Unread log t) (hwon : Won log t doer) : Unread (event :: log) t := by
  obtain ⟨doer', deed⟩ := event
  cases deed with
  | load path =>
    refine List.forall_mem_cons.2 ⟨fun hparts ↦ hne ?_, h⟩
    exact (hlog.won_unique hevent.deed.1 hwon hparts).2
  | _ => exact h

theorem Unlaunched.cons (h : Unlaunched log t) (hwon : Won log t doer) :
    Unlaunched (event :: log) t := by
  obtain ⟨doer', deed⟩ := event
  cases deed with
  | launch owner =>
    refine List.forall_mem_cons.2 ⟨fun hparts ↦ hne ?_, h⟩
    exact (hlog.won_unique hevent.deed.1 hwon hparts).2
  | _ => exact h

theorem Unstarted.cons {names : List String} (h : Unstarted log t names)
    (hwon : Won log t doer) : Unstarted (event :: log) t names := by
  obtain ⟨doer', deed⟩ := event
  cases deed with
  | launch owner =>
    refine ⟨h.nodup, fun name hname ↦ List.not_mem_cons_of_ne_of_not_mem (fun heq ↦ hne ?_)
      (h.not_mem name hname)⟩
    cases heq
    exact (hlog.won_unique hevent.deed.1 hwon rfl).2
  | _ => exact ⟨h.nodup, h.not_mem⟩

end cons

theorem Idle.cons_of_eq_none (h : Idle log doer) (hdeed : event.deed.loaded? = none) :
    Idle (event :: log) doer := List.forall_mem_cons.2 ⟨fun _ ↦ hdeed, h⟩

theorem Idle.cons (h : Idle log doer) (hne : event.doer ≠ doer) : Idle (event :: log) doer :=
  List.forall_mem_cons.2 ⟨fun hdoer ↦ absurd hdoer hne, h⟩

theorem Unlaunched.unstarted {names : List String} (h : Unlaunched log t) (hnames : names.Nodup) :
    Unstarted log t names := ⟨hnames, fun _ _ hmem ↦ h _ hmem rfl⟩

theorem Unstarted.launch {name : String} {names : List String}
    (h : Unstarted log t (name :: names)) :
    Unstarted (⟨doer, .launch t name⟩ :: log) t names := by
  obtain ⟨hname, hnodup⟩ := List.nodup_cons.1 h.nodup
  refine ⟨hnodup, fun n hn ↦ List.not_mem_cons_of_ne_of_not_mem (fun heq ↦ hname ?_)
    (h.not_mem n (List.mem_cons_of_mem _ hn))⟩
  cases heq
  exact hn

/-- What a task has to itself in each of its phases. -/
def Phase.Stake (log : List Event) (edge : Path × String) : Phase → Prop
  | .entering | .resolving | .claiming _ => Idle log (some edge)
  | .marking t => Won log t (some edge)
  | .queueing t | .loading t =>
    Won log t (some edge) ∧ Unlaunched log t ∧ Unread log t ∧ Idle log (some edge)
  | .describing t _ | .checking t _ => Won log t (some edge) ∧ Unlaunched log t
  | .spawning t names => Won log t (some edge) ∧ Unstarted log t names
  | .reporting _ (some t) | .linking t => Claimed log t
  | .reporting _ none | .leaving => True

/-- What the root has to itself in each of its phases. -/
def RootPhase.Stake (plan : ScanPlan) (log : List Event) : RootPhase → Prop
  | .claiming _ => log = []
  | .describing _ => Won log plan.entry none ∧ Unlaunched log plan.entry
  | .spawning names => Won log plan.entry none ∧ Unstarted log plan.entry names
  | .leaving | .waiting | .finished => Won log plan.entry none

theorem Phase.Stake.cons {phase : Phase} {edge : Path × String} (h : phase.Stake log edge)
    (hlog : Orderly plan log) (hevent : event.Allowed plan log) (hne : event.doer ≠ some edge) :
    phase.Stake (event :: log) edge := by
  cases phase with
  | entering | resolving | claiming => exact Idle.cons h hne
  | marking => exact List.mem_cons_of_mem _ h
  | queueing | loading =>
    obtain ⟨hwon, hlaunches, hreads, hidle⟩ := h
    exact ⟨List.mem_cons_of_mem _ hwon, hlaunches.cons hlog hevent hne hwon,
      hreads.cons hlog hevent hne hwon, hidle.cons hne⟩
  | describing | checking | spawning =>
    exact ⟨List.mem_cons_of_mem _ h.1, h.2.cons hlog hevent hne h.1⟩
  | reporting issue target =>
    cases target with
    | none => trivial
    | some t => exact Claimed.cons h
  | linking => exact Claimed.cons h
  | leaving => trivial

theorem RootPhase.Stake.cons {phase : RootPhase} (h : phase.Stake plan log)
    (hlog : Orderly plan log) (hevent : event.Allowed plan log) (hne : event.doer ≠ none) :
    phase.Stake plan (event :: log) := by
  cases phase with
  | claiming =>
    obtain ⟨edge, hedge⟩ := Option.ne_none_iff_exists'.1 hne
    have hmem := hevent.doer edge hedge
    rw [show log = [] from h] at hmem
    exact absurd hmem List.not_mem_nil
  | describing | spawning =>
    exact ⟨List.mem_cons_of_mem _ h.1, h.2.cons hlog hevent hne h.1⟩
  | leaving | waiting | finished => exact List.mem_cons_of_mem _ h

/-- Once anything has been done, the entry has been claimed. -/
theorem RootPhase.Stake.won {phase : RootPhase} (h : phase.Stake plan log) (hlog : log ≠ []) :
    Won log plan.entry none := by
  cases phase with
  | claiming => exact absurd h hlog
  | describing | spawning => exact h.1
  | leaving | waiting | finished => exact h

theorem Orderly.allowed_load {edge : Path × String} (hlog : Orderly plan log)
    (h : (Phase.loading t).Stake log edge) :
    Deed.Allowed plan log (some edge) (.load t ((plan.facts t).asked files)) := by
  obtain ⟨hwon, -, hunread, hidle⟩ := h
  exact ⟨hwon, mt (hlog.won_entry hwon).2 nofun, reads_asked_facts, hunread, hidle⟩

/-! ## The invariant -/

namespace Scan

variable {s u : Scan} {ts : List Task} {owner : Path} {specifier : String} {phase phase' : Phase}

/-- What has been done is in order, and every task has to itself what it needs to go on. -/
structure Once (plan : ScanPlan) (log : List Event) (s : Scan) : Prop where
  orderly : Orderly plan log
  ledger : s.ledger = replay ∅ log
  edges : (s.tasks.map Task.edge).Subperm (launches log)
  tasks : ∀ task ∈ s.tasks, task.phase.Stake log task.edge
  root : s.root.Stake plan log

theorem once_start (plan : ScanPlan) (maxConcurrency : Nat) (facts : Source.ModuleFacts) :
    Once plan [] (.start maxConcurrency facts) :=
  ⟨.nil, rfl, .refl _, by simp [start], rfl⟩

theorem Once.head (h : Once plan log s) (htasks : s.tasks = ⟨owner, specifier, phase⟩ :: ts) :
    (owner, specifier) ∈ launches log ∧ phase.Stake log (owner, specifier) := by
  refine ⟨h.edges.subset ?_, h.tasks ⟨owner, specifier, phase⟩ (htasks ▸ List.mem_cons_self)⟩
  rw [htasks]
  exact List.mem_cons_self

/-- Tasks are told apart by their imports. -/
theorem Once.nodup_edges (h : Once plan log s) : (s.tasks.map Task.edge).Nodup := by
  obtain ⟨edges, hperm, hsublist⟩ := h.edges
  exact hperm.nodup (h.orderly.nodup_launches.sublist hsublist)

/-- What the task that stands first may do, it may do next. -/
theorem Once.allowed (h : Once plan log s) (htasks : s.tasks = ⟨owner, specifier, phase⟩ :: ts)
    {deed : Deed} (hdeed : deed.Allowed plan log (some (owner, specifier))) :
    Event.Allowed plan log ⟨some (owner, specifier), deed⟩ :=
  ⟨fun _ hedge ↦ Option.some.inj hedge ▸ (h.head htasks).1, hdeed⟩

/-- What the task that stands first does, it takes from no other task. -/
theorem Once.rest (h : Once plan log s) (htasks : s.tasks = ⟨owner, specifier, phase⟩ :: ts)
    {deed : Deed} (hdeed : deed.Allowed plan log (some (owner, specifier))) :
    ∀ task ∈ ts, task.phase.Stake (⟨some (owner, specifier), deed⟩ :: log) task.edge := by
  intro task htask
  have hold := h.tasks task (htasks ▸ List.mem_cons_of_mem _ htask)
  have hnodup := h.nodup_edges
  rw [htasks, List.map_cons, List.nodup_cons] at hnodup
  refine hold.cons h.orderly (h.allowed htasks hdeed) fun heq ↦ hnodup.1 ?_
  exact List.mem_map.2 ⟨task, htask, (Option.some.inj heq).symm⟩

/-- The task that stands first goes on without doing anything that is seen. -/
theorem Once.quiet (h : Once plan log s) (htasks : s.tasks = ⟨owner, specifier, phase⟩ :: ts)
    (hstake : phase'.Stake log (owner, specifier)) {permits : Nat} :
    Once plan log
      { s with
        permits
        tasks := ⟨owner, specifier, phase'⟩ :: ts } where
  orderly := h.orderly
  ledger := h.ledger
  edges := by
    have hedges := h.edges
    rwa [htasks] at hedges
  tasks := by
    have htasks' := h.tasks
    rw [htasks, List.forall_mem_cons] at htasks'
    exact List.forall_mem_cons.2 ⟨hstake, htasks'.2⟩
  root := h.root

/-- The task that stands first does something that it is allowed to do. -/
theorem Once.act {deed : Deed} {l : Ledger} {issues : List Issue} {permits : Nat}
    (h : Once plan log s) (htasks : s.tasks = ⟨owner, specifier, phase⟩ :: ts)
    (hdeed : deed.Allowed plan log (some (owner, specifier))) (hlaunch : deed.launched? = none)
    (hl : l = deed.perform s.ledger)
    (hstake : phase'.Stake (⟨some (owner, specifier), deed⟩ :: log) (owner, specifier)) :
    Once plan (⟨some (owner, specifier), deed⟩ :: log)
      { s with
        ledger := l
        issues
        permits
        tasks := ⟨owner, specifier, phase'⟩ :: ts } where
  orderly := .cons (h.allowed htasks hdeed) h.orderly
  ledger := by
    rw [hl, h.ledger]
    rfl
  edges := by
    have hedges := h.edges
    rw [htasks] at hedges
    have hlaunches : launches (⟨some (owner, specifier), deed⟩ :: log) = launches log :=
      List.filterMap_cons_none hlaunch
    rwa [hlaunches]
  tasks := List.forall_mem_cons.2 ⟨hstake, h.rest htasks hdeed⟩
  root := h.root.cons h.orderly (h.allowed htasks hdeed) nofun

/-- A task leaves the list. -/
theorem Once.drop {task : Task} {pending permits : Nat} (h : Once plan log s)
    (htasks : s.tasks = task :: ts) :
    Once plan log
      { s with
        tasks := ts
        pending
        permits } where
  orderly := h.orderly
  ledger := h.ledger
  edges := by
    have hedges := h.edges
    rw [htasks] at hedges
    exact (List.sublist_cons_self _ _).subperm.trans hedges
  tasks task htask := h.tasks task (htasks ▸ List.mem_cons_of_mem _ htask)
  root := h.root

/-- The task that stands first claims a new file. -/
theorem Once.claim (h : Once plan log s)
    (htasks : s.tasks = ⟨owner, specifier, .claiming t⟩ :: ts)
    (hnew : s.ledger.contains t = false)
    (hstake : ∀ log', log' = ⟨some (owner, specifier), .claim t true⟩ :: log →
      Won log' t (some (owner, specifier)) → Unlaunched log' t → Unread log' t →
        Idle log' (some (owner, specifier)) → phase'.Stake log' (owner, specifier)) :
    Once plan (⟨some (owner, specifier), .claim t (s.ledger.claim t).1⟩ :: log)
      { s with
        ledger := (s.ledger.claim t).2
        tasks := ⟨owner, specifier, phase'⟩ :: ts } := by
  obtain ⟨hmem, hidle⟩ := h.head htasks
  have hentry := h.root.won (List.ne_nil_of_mem (mem_launches.1 hmem).choose_spec.1)
  have hisNew : (s.ledger.claim t).1 = true := by rw [Ledger.claim_fst, hnew]; rfl
  rw [h.ledger] at hnew
  have hne : t.parts ≠ plan.entry.parts := fun hparts ↦ by
    rw [Ledger.contains_congr hparts, hentry.contains] at hnew
    cases hnew
  have hallowed : Deed.Allowed plan log (some (owner, specifier)) (.claim t true) :=
    ⟨by rw [hnew]; rfl, fun _ ↦ ⟨nofun, fun hparts ↦ absurd hparts hne⟩⟩
  obtain ⟨hunread, hunlaunched⟩ := h.orderly.unread_unlaunched hnew
  rw [hisNew]
  exact h.act htasks hallowed rfl rfl
    (hstake _ rfl List.mem_cons_self hunlaunched hunread (Idle.cons_of_eq_none hidle rfl))

theorem once_acts (h : Once plan log s) (htasks : s.tasks = ⟨owner, specifier, phase⟩ :: ts)
    (hu : Acts plan files s ts owner specifier phase u) :
    Once plan ((Task.event? plan files s.ledger ⟨owner, specifier, phase⟩).toList ++ log) u := by
  obtain ⟨hmem, hstake⟩ := h.head htasks
  cases hu with
  | enter | wait | queue =>
    refine h.quiet htasks ?_
    exact hstake
  | giveUp =>
    refine h.quiet htasks ?_
    exact trivial
  | toFile =>
    refine h.act htasks (reads_asked_resolve _ _ _) rfl rfl ?_
    exact Idle.cons_of_eq_none hstake rfl
  | toPackage | toNothing =>
    refine h.act htasks (reads_asked_resolve _ _ _) rfl rfl ?_
    exact trivial
  | claimOld hold =>
    have hclaim := Ledger.claim_of_contains hold
    rw [h.ledger] at hold
    refine h.act htasks ⟨?_, ?_⟩ rfl hclaim.symm ?_
    · rw [Ledger.claim_fst, h.ledger]
    · rw [Ledger.claim_fst, h.ledger, hold]
      exact nofun
    · exact (h.orderly.claimed hold).cons
  | claimScript hnew =>
    exact h.claim htasks hnew fun _ _ hwon hunlaunched hunread hidle ↦
      ⟨hwon, hunlaunched, hunread, hidle⟩
  | claimLeaf hnew => exact h.claim htasks hnew fun _ _ hwon _ _ _ ↦ hwon
  | mark =>
    refine h.act htasks hstake rfl rfl ?_
    exact (Won.claimed hstake).cons
  | load =>
    refine h.act htasks (h.orderly.allowed_load hstake) rfl rfl ?_
    exact ⟨List.mem_cons_of_mem _ hstake.1, hstake.2.1⟩
  | loadFault =>
    refine h.act htasks (h.orderly.allowed_load hstake) rfl rfl ?_
    exact hstake.1.claimed.cons
  | describe =>
    refine h.act htasks hstake.1 rfl rfl ?_
    exact ⟨List.mem_cons_of_mem _ hstake.1, hstake.2⟩
  | check =>
    refine h.quiet htasks ?_
    exact ⟨hstake.1, hstake.2.unstarted (ScanPlan.nodup_followed _)⟩
  | checkCancelled | spawned =>
    refine h.quiet htasks ?_
    exact hstake.1.claimed
  | @spawn t name names =>
    obtain ⟨hwon, hnames⟩ := hstake
    have hdeed : Deed.Allowed plan log (some (owner, specifier)) (.launch t name) :=
      ⟨hwon, hnames.not_mem name List.mem_cons_self⟩
    have hidle : Idle log (some (t, name)) := h.orderly.idle hdeed.2
    have hedges := h.edges
    rw [htasks] at hedges
    refine ⟨.cons (h.allowed htasks hdeed) h.orderly, h.ledger, ?_, ?_,
      h.root.cons h.orderly (h.allowed htasks hdeed) nofun⟩
    · exact (List.Perm.swap _ _ _).subperm.trans ((List.subperm_cons _).2 hedges)
    · exact List.forall_mem_cons.2 ⟨⟨List.mem_cons_of_mem _ hwon, hnames.launch⟩,
        List.forall_mem_cons.2 ⟨Idle.cons_of_eq_none hidle rfl, h.rest htasks hdeed⟩⟩
  | report =>
    refine h.act htasks trivial rfl rfl ?_
    exact trivial
  | reportModule =>
    refine h.act htasks trivial rfl rfl ?_
    exact Claimed.cons hstake
  | link =>
    refine h.act htasks hstake rfl rfl ?_
    exact trivial
  | leave => exact h.drop htasks

theorem once_rootActs (h : Once plan log s) (hu : RootActs plan s s.root u) :
    Once plan ((s.root.event? plan s.ledger).toList ++ log) u := by
  have hroot := h.root
  have hevent {deed : Deed} (hdeed : deed.Allowed plan log none) :
      Event.Allowed plan log ⟨none, deed⟩ := ⟨nofun, hdeed⟩
  have htasks {deed : Deed} (hdeed : deed.Allowed plan log none) : ∀ task ∈ s.tasks,
      task.phase.Stake (⟨none, deed⟩ :: log) task.edge := fun task htask ↦
    (h.tasks task htask).cons h.orderly (hevent hdeed) nofun
  generalize s.root = phase at hroot hu
  cases hu with
  | claim =>
    obtain rfl : log = [] := hroot
    have hledger : s.ledger = ∅ := h.ledger
    have hdeed : Deed.Allowed plan [] none (.claim plan.entry true) := ⟨rfl, fun _ ↦ by simp⟩
    rw [RootPhase.event?, RootPhase.deed?, hledger]
    refine ⟨.cons (hevent hdeed) .nil, rfl, h.edges, htasks hdeed, List.mem_cons_self, ?_⟩
    exact List.forall_mem_nil _
  | @describe facts =>
    have hdeed : Deed.Allowed plan log none (.describe plan.entry facts.descriptor) := hroot.1
    have hunlaunched : Unlaunched (⟨none, .describe plan.entry facts.descriptor⟩ :: log)
        plan.entry := hroot.2
    refine ⟨.cons (hevent hdeed) h.orderly, ?_, h.edges, htasks hdeed,
      List.mem_cons_of_mem _ hroot.1, ?_⟩
    · rw [h.ledger]
      rfl
    · exact hunlaunched.unstarted (ScanPlan.nodup_followed _)
  | @spawn name names =>
    obtain ⟨hwon, hnames⟩ := hroot
    have hdeed : Deed.Allowed plan log none (.launch plan.entry name) :=
      ⟨hwon, hnames.not_mem name List.mem_cons_self⟩
    have hidle : Idle log (some (plan.entry, name)) := h.orderly.idle hdeed.2
    refine ⟨.cons (hevent hdeed) h.orderly, h.ledger, (List.subperm_cons _).2 h.edges, ?_,
      List.mem_cons_of_mem _ hwon, hnames.launch⟩
    exact List.forall_mem_cons.2 ⟨Idle.cons_of_eq_none hidle rfl, htasks hdeed⟩
  | spawned => exact ⟨h.orderly, h.ledger, h.edges, h.tasks, hroot.1⟩
  | leave | finish => exact ⟨h.orderly, h.ledger, h.edges, h.tasks, hroot⟩
  | wait | rest => exact h

theorem recorded_once : Recorded plan (fun _ ↦ True) (Once plan) where
  alike {log s t} hst h := by
    refine ⟨h.orderly, hst.ledger ▸ h.ledger, ?_, fun task htask ↦ ?_, hst.root ▸ h.root⟩
    · exact (hst.tasks.symm.map _).subperm.trans h.edges
    · exact h.tasks task (hst.tasks.mem_iff.2 htask)
  acts _ htasks h hu := once_acts h htasks hu
  root h hu := once_rootActs h hu
  cancel h := ⟨h.orderly, h.ledger, h.edges, h.tasks, h.root⟩
  breakOff _ htasks h := h.drop htasks

/-- Whatever the schedule, all is done in order. -/
theorem once_play (plan : ScanPlan) (maxConcurrency : Nat) (facts : Source.ModuleFacts)
    (ms : List Move) :
    Once plan ((start maxConcurrency facts).log plan ms)
      ((start maxConcurrency facts).play plan ms) :=
  recorded_once.play_of_nil (fun _ _ ↦ trivial) (once_start plan maxConcurrency facts)

end Scan

/-! ## All that is to be said of loads and claims -/

/-- What is true of all that is done in a scan under a schedule. -/
structure ScanConfig.LoadsOnce (config : ScanConfig) (files : FileTree) (plan : ScanPlan)
    (s : Scan) (ms : List Move) : Prop where
  /-- All that is asked under the schedule is in its log, and all that is written in the ledger. -/
  complete : s.asked plan ms = (s.log plan ms).flatMap (·.deed.questions) ∧
    (s.play plan ms).ledger = Scan.replay ∅ (s.log plan ms)
  /-- No file is read twice, the start of the scan included. -/
  read : ((reads (config.begin.asked files ++ (s.asked plan ms).reverse)).map Path.parts).Nodup
  /-- No two claims are told that a file is new. -/
  claim : ((wins (s.log plan ms)).map Path.parts).Nodup
  /-- The files of the ledger are those that were new for someone. -/
  node : ∀ p, (s.play plan ms).ledger.contains p = true ↔ Claimed (s.log plan ms) p
  /-- The entry is new for the root, and any other file for a task. -/
  entry : ∀ t doer, Won (s.log plan ms) t doer → (doer = none ↔ t.parts = plan.entry.parts)
  /-- Tasks are told apart by their imports. -/
  task : (launches (s.log plan ms)).Nodup
  /-- Everything that is done was allowed at the time. -/
  allowed : ∀ later event earlier, s.log plan ms = later ++ event :: earlier →
    event.Allowed plan earlier

/-- Whatever the schedule, and whatever happens to the files, a scan reads and claims every file at
most once, and nobody but who has claimed a file loads, describes or walks it. -/
theorem loadsOnce_of_begin (config : ScanConfig) (files : FileTree) :
    (reads (config.begin.asked files)).length ≤ 1 ∧
      ∀ plan facts ms, config.begin.run files = .ok (plan, facts) →
        config.LoadsOnce files plan (.start config.maxConcurrency facts) ms := by
  obtain ⟨p, hreads, hp⟩ := reads_asked_begin config files
  refine ⟨hreads.length_le, fun plan facts ms hbegin ↦ ?_⟩
  obtain rfl : p = plan.entry := hp plan facts hbegin
  have h := Scan.once_play plan config.maxConcurrency facts ms
  generalize Scan.start config.maxConcurrency facts = s at h
  have hasked : s.asked plan ms = (s.log plan ms).flatMap (·.deed.questions) := Scan.asked_eq
  refine ⟨⟨hasked, h.ledger⟩, ?_, h.orderly.nodup_wins, fun p ↦ ?_,
    fun t doer ↦ h.orderly.won_entry, h.orderly.nodup_launches, fun later event earlier heq ↦ ?_⟩
  · have horderly : Orderly plan (s.log plan ms ++ []) := by rw [List.append_nil]; exact h.orderly
    have hall : (reads (config.begin.asked files ++ (s.asked plan ms).reverse)).Sublist
        (plan.entry :: (loads (s.log plan ms)).reverse) := by
      rw [reads_append, reads_reverse, hasked]
      exact hreads.append (List.reverse_sublist.2 horderly.reads_sublist_loads)
    refine List.Nodup.sublist (hall.map _) ?_
    rw [List.map_cons, List.map_reverse, List.nodup_cons, List.mem_reverse, List.nodup_reverse]
    refine ⟨fun hmem ↦ ?_, h.orderly.nodup_loads⟩
    obtain ⟨t, ht, hparts⟩ := List.mem_map.1 hmem
    exact h.orderly.not_mem_loads t ht hparts
  · rw [h.ledger]
    exact ⟨h.orderly.claimed, Claimed.contains⟩
  · have horderly := h.orderly
    rw [heq] at horderly
    exact horderly.allowed

/-- A small repository, under every schedule. -/
theorem loadsOnce_sample :
    ∃ plan facts, Sample.settings.begin.run Sample.repository = .ok (plan, facts) ∧
      ∀ ms, Sample.settings.LoadsOnce Sample.repository plan
        (.start Sample.settings.maxConcurrency facts) ms := by
  obtain ⟨plan, facts, h⟩ := Sample.exists_begin
  exact ⟨plan, facts, h, fun ms ↦
    (loadsOnce_of_begin Sample.settings Sample.repository).2 plan facts ms h⟩

end ImpactGraph
