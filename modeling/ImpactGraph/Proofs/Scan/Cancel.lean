import ImpactGraph.Proofs.Scan.Finish

/-!
# Scans that are cancelled

Cancelling takes nothing back and breaks nothing off: a task asks once, before anything else,
whether the scan is cancelled, and a task that has asked goes on.  So after a scan has been
cancelled only those tasks do anything that had started by then, and they load no more than the file
that each of them was after (`Halted`).

A scan that is cancelled ends whatever the graph is, for the tasks that are still started do nothing
(`inevitably_of_cancelled`), and what it has written down by then is part of the graph.
-/

set_option autoImplicit false

namespace ImpactGraph

/-- Whether a task that has started is still to load a file, if it loads any. -/
def Phase.mayLoad : Phase → Bool
  | .resolving | .claiming _ | .queueing _ | .loading _ => true
  | _ => false

namespace Scan

variable {plan : ScanPlan} {files : FileTree} {s t u : Scan} {log : List Event} {ms : List Move}
  {ts : List Task} {owner : Path} {specifier : String} {phase phase' : Phase}

theorem lasting_cancelled : Lasting plan fun s ↦ s.cancelled = true where
  kept _ :=
    { alike := fun h hs ↦ h.cancelled ▸ hs
      acts := fun _ hs h ↦ by cases h <;> exact hs
      root := fun {s u} hs h ↦ by
        generalize s.root = phase at h
        cases h <;> exact hs
      cancel := fun _ ↦ rfl }
  breakOff hi hs := by
    rw [breakOff_eq hi]
    exact hs

/-! ## What is done after a scan has been cancelled -/

/-- A task had started when the scan was in this state, and if it loads a file after that, it had
not done so before. -/
def Underway (s : Scan) (edge : Path × String) (mayLoad : Bool) : Prop :=
  ∃ task ∈ s.tasks, task.edge = edge ∧ task.phase ≠ .entering ∧
    (mayLoad = true → task.phase.mayLoad = true)

/-- What has been done since a scan was cancelled in a state `s`, was done by the root or by tasks
that had started by then; all others leave. -/
structure Halted (s : Scan) (log : List Event) (t : Scan) : Prop where
  cancelled : t.cancelled = true
  task : ∀ task ∈ t.tasks, task.phase ≠ .entering → task.phase ≠ .leaving →
    s.Underway task.edge task.phase.mayLoad
  event : ∀ event ∈ log, ∀ edge, event.doer = some edge →
    s.Underway edge event.deed.loaded?.isSome

theorem halted_self (h : s.cancelled = true) : Halted s [] s :=
  ⟨h, fun task hmem hne _ ↦ ⟨task, hmem, rfl, hne, id⟩, by simp⟩

theorem Underway.mono {edge : Path × String} {b b' : Bool} (h : s.Underway edge b)
    (hb : b' = true → b = true) : s.Underway edge b' := by
  obtain ⟨task, hmem, hedge, hne, hload⟩ := h
  exact ⟨task, hmem, hedge, hne, fun h ↦ hload (hb h)⟩

/-- What is done, is done by a task that has started and has not ended, and it loads a file in one
of its first phases. -/
theorem event?_eq_some {task : Task} {l : Ledger} {event : Event}
    (h : task.event? plan files l = some event) :
    event.doer = some task.edge ∧ task.phase ≠ .entering ∧ task.phase ≠ .leaving ∧
      (event.deed.loaded?.isSome = true → task.phase.mayLoad = true) := by
  obtain ⟨deed, hdeed, rfl⟩ := Option.map_eq_some_iff.1 h
  obtain ⟨owner, specifier, phase⟩ := task
  cases phase with
  | spawning target names =>
    cases names <;> cases hdeed
    simp [Deed.loaded?]
  | _ => cases hdeed <;> simp [Deed.loaded?, Phase.mayLoad]

theorem halted_acts (h : Halted s log t) (htasks : t.tasks = ⟨owner, specifier, phase⟩ :: ts)
    (hu : Acts plan files t ts owner specifier phase u) :
    Halted s ((Task.event? plan files t.ledger ⟨owner, specifier, phase⟩).toList ++ log) u := by
  have htask := h.task
  rw [htasks, List.forall_mem_cons] at htask
  obtain ⟨hhead, hts⟩ := htask
  refine ⟨(lasting_cancelled.kept files).acts htasks h.cancelled hu, ?_,
    List.forall_mem_append.2 ⟨fun event hevent edge hedge ↦ ?_, h.event⟩⟩
  · have hcancelled := h.cancelled
    cases hu with
    | enter hc | check hc =>
      rw [hcancelled] at hc
      cases hc
    | giveUp => exact List.forall_mem_cons.2 ⟨nofun, hts⟩
    | leave => exact hts
    | spawn =>
      exact List.forall_mem_cons.2 ⟨fun _ _ ↦ (hhead nofun nofun).mono nofun,
        List.forall_mem_cons.2 ⟨nofun, hts⟩⟩
    | mark | describe | checkCancelled | spawned | report | reportModule | link =>
      exact List.forall_mem_cons.2 ⟨fun _ _ ↦ (hhead nofun nofun).mono nofun, hts⟩
    | _ => exact List.forall_mem_cons.2 ⟨fun _ _ ↦ (hhead nofun nofun).mono fun _ ↦ rfl, hts⟩
  · obtain ⟨hdoer, hne, hne', hload⟩ := event?_eq_some (Option.mem_toList.1 hevent)
    obtain rfl : _ = edge := Option.some.inj (hdoer.symm.trans hedge)
    exact (hhead hne hne').mono hload

theorem halted_rootActs (h : Halted s log t) (hu : RootActs plan t t.root u) :
    Halted s ((t.root.event? plan t.ledger).toList ++ log) u := by
  have hevent : ∀ event ∈ (t.root.event? plan t.ledger).toList, event.doer = none := by
    intro event hevent
    obtain ⟨deed, -, rfl⟩ := Option.map_eq_some_iff.1 (Option.mem_toList.1 hevent)
    rfl
  refine ⟨(lasting_cancelled.kept (.ofTexts [])).root h.cancelled hu, ?_,
    List.forall_mem_append.2 ⟨fun event hmem edge hedge ↦ ?_, h.event⟩⟩
  · generalize t.root = phase at hu
    cases hu with
    | spawn => exact List.forall_mem_cons.2 ⟨nofun, h.task⟩
    | _ => exact h.task
  · rw [hevent event hmem] at hedge
    cases hedge

theorem recorded_halted : Recorded plan (fun _ ↦ True) (Halted s) where
  alike hst h := ⟨hst.cancelled ▸ h.cancelled,
    fun task hmem ↦ h.task task (hst.tasks.mem_iff.2 hmem), h.event⟩
  acts _ htasks h hu := halted_acts h htasks hu
  root h hu := halted_rootActs h hu
  cancel h := ⟨rfl, h.task, h.event⟩
  breakOff _ htasks h :=
    ⟨h.cancelled, fun task hmem ↦ h.task task (htasks ▸ List.mem_cons_of_mem _ hmem), h.event⟩

theorem halted_play (h : s.cancelled = true) (ms : List Move) :
    Halted s (s.log plan ms) (s.play plan ms) :=
  recorded_halted.play_of_nil (fun _ _ ↦ trivial) (halted_self h)

/-- What is true of a scan that was cancelled in a state `s`, under a schedule from then on. -/
structure HaltsFrom (plan : ScanPlan) (s : Scan) (ms : List Move) : Prop where
  /-- The scan has no other result. -/
  outcome : (s.play plan ms).outcome plan = .error .cancelled
  /-- All that is asked, written down and reported under the schedule is in its log. -/
  complete : s.asked plan ms = (s.log plan ms).flatMap (·.deed.questions) ∧
    (s.play plan ms).ledger = replay s.ledger (s.log plan ms) ∧
      (s.play plan ms).issues = (s.log plan ms).filterMap (·.deed.issue?) ++ s.issues
  /-- A task that had not started by then does nothing. -/
  late : ∀ task ∈ s.tasks, task.phase = .entering →
    ∀ event ∈ s.log plan ms, event.doer ≠ some task.edge
  /-- Neither does a task that is started afterwards. -/
  unborn : ∀ edge ∈ launches (s.log plan ms), ∀ event ∈ s.log plan ms, event.doer ≠ some edge
  /-- What is done by a task is done by one of those that had started by then; and it loads a file
  only if it had still to do so. -/
  started : ∀ event ∈ s.log plan ms, ∀ edge, event.doer = some edge →
    s.Underway edge event.deed.loaded?.isSome
  /-- None of them loads two files. -/
  loader : (loaders (s.log plan ms)).Nodup
  /-- So there are no more reads than tasks that had started and not yet loaded. -/
  read : (reads (s.asked plan ms)).length ≤ s.tasks.countP (·.phase.mayLoad)

theorem length_loads (log : List Event) : (loads log).length = (loaders log).length := by
  rw [loads, loaders, List.length_map, List.length_filterMap_eq_countP,
    List.countP_eq_length_filter]

theorem haltsFrom (h : Once plan log s) (hcancelled : s.cancelled = true)
    (hms : Once plan (s.log plan ms ++ log) (s.play plan ms)) : s.HaltsFrom plan ms := by
  have hhalted : Halted s (s.log plan ms) (s.play plan ms) := halted_play hcancelled ms
  have hcomplete : s.asked plan ms = (s.log plan ms).flatMap (·.deed.questions) := asked_eq
  have hloader : (loaders (s.log plan ms)).Nodup := by
    have hnodup := hms.orderly.nodup_loaders
    rw [loaders, List.filter_append, List.map_append] at hnodup
    exact hnodup.of_append_left
  refine ⟨?_, ⟨hcomplete, performs_play⟩, fun task htask hphase event hevent hdoer ↦ ?_,
    fun edge hedge event hevent hdoer ↦ ?_, hhalted.event, hloader, ?_⟩
  · rw [outcome, if_pos hhalted.cancelled]
  · obtain ⟨task', htask', hedge, hne, -⟩ := hhalted.event event hevent _ hdoer
    rw [List.inj_on_of_nodup_map h.nodup_edges htask' htask hedge] at hne
    exact hne hphase
  · obtain ⟨task, htask, rfl, -⟩ := hhalted.event event hevent _ hdoer
    have hold := h.edges.subset (List.mem_map_of_mem htask)
    have hnodup := hms.orderly.nodup_launches
    rw [launches, List.filterMap_append] at hnodup
    exact List.disjoint_of_nodup_append hnodup hedge hold
  · -- every read belongs to a load, and every load to a task of its own
    have hreads : (reads (s.asked plan ms)).Sublist (loads (s.log plan ms)) := by
      rw [hcomplete]
      exact hms.orderly.reads_sublist_loads
    have hloaders : loaders (s.log plan ms) ⊆
        (s.tasks.filter (·.phase.mayLoad)).map (some ·.edge) := by
      intro doer hdoer
      obtain ⟨event, hevent, rfl⟩ := List.mem_map.1 hdoer
      obtain ⟨hevent, hloaded⟩ := List.mem_filter.1 hevent
      obtain ⟨edge, hedge⟩ := hms.orderly.exists_loader (List.mem_append_left _ hevent) hloaded
      obtain ⟨task, htask, rfl, -, hload⟩ := hhalted.event event hevent edge hedge
      exact List.mem_map.2 ⟨task, List.mem_filter.2 ⟨htask, hload hloaded⟩, hedge.symm⟩
    calc (reads (s.asked plan ms)).length
        ≤ (loads (s.log plan ms)).length := hreads.length_le
      _ = (loaders (s.log plan ms)).length := length_loads _
      _ ≤ _ := (hloader.subperm hloaders).length_le
      _ = s.tasks.countP (·.phase.mayLoad) := by
        rw [List.length_map, List.countP_eq_length_filter]

/-! ## The end of a scan that is cancelled -/

variable {maxConcurrency : Nat} {facts : Source.ModuleFacts}

/-- A scan that is cancelled comes to its end, even where the graph is infinite: no task is started
for a file that is claimed from then on. -/
theorem inevitably_of_cancelled (hmax : 0 < maxConcurrency)
    (hwalked : plan.walked? files plan.entry = some facts)
    (hs : Reachable plan files maxConcurrency facts s) (hcancelled : s.cancelled = true) :
    Inevitably plan files (fun t ↦ t.isFinished = true ∧ t.outcome plan = .error .cancelled) s := by
  refine inevitably_of_rank (work plan fun _ ↦ 0)
    (I := fun s ↦ Reachable plan files maxConcurrency facts s ∧ s.cancelled = true)
    (fun s t hs hmoves ↦ ⟨⟨hs.1.next hmoves.next, ?_⟩, ?_⟩) (fun s hs ↦ ?_) ⟨hs, hcancelled⟩
  · exact (lasting_cancelled.kept files).next hs.2 hmoves.next
  · have hnearer := hmoves.nearer (hs.1.sound hwalked) (n := fun _ ↦ 0) (by simp [hs.2])
    rcases hnearer with hlt | ⟨p, hpos, -⟩
    · exact hlt
    · exact absurd hpos (Nat.lt_irrefl 0)
  · cases hfinished : s.isFinished with
    | true => exact .inl ⟨rfl, if_pos hs.2⟩
    | false => exact .inr (hs.1.exists_works hwalked hmax hfinished)

end Scan

/-! ## What has been written down by then -/

/-- The files of one snapshot are in the other one, with the files that import them. -/
def Snapshot.Within (g g' : Snapshot) : Prop :=
  ∀ p node, g.get? p = some node → ∃ node', g'.get? p = some node' ∧
    ∀ o ∈ node.dependents, ∃ d ∈ node'.dependents, d.same o = true

theorem Snapshot.exists_get? {g : Snapshot} {p : Path} (h : g.contains p = true) :
    ∃ node, g.get? p = some node := by
  obtain ⟨entry, hentry⟩ := Option.isSome_iff_exists.1 h
  exact ⟨entry.2, by rw [get?, SortedMap.get?, hentry]; rfl⟩

namespace Scan

variable {plan : ScanPlan} {files : FileTree} {s : Scan}

/-- What has been written down is true of the graph. -/
theorem Sound.graph (h : s.Sound plan files) {k : Path} {e : LedgerEntry} (he : s.ledger.Has k e) :
    plan.IsNode files k ∧ ∀ o ∈ e.dependents.toList,
      plan.IsNode files o ∧ ∃ t, plan.Imports files o t ∧ t.parts = k.parts := by
  refine ⟨(h.ledger.traced k he.mem_keys).isNode, fun o ho ↦ ?_⟩
  obtain ⟨hmem, himports⟩ := h.ledger.edge k e he o ho
  exact ⟨(h.ledger.traced o hmem).isNode, himports⟩

/-- What has been written down is in every snapshot that shows the graph. -/
theorem Sound.within (h : s.Sound plan files) {g : Snapshot} (hg : plan.Depicts files g) :
    (s.taken plan).snapshot.Within g := by
  intro p node hnode
  obtain ⟨k, e, he, hparts, rfl⟩ := Ledger.get?_snapshot_eq_some_iff.1 hnode
  obtain ⟨hk, hdependents⟩ := h.graph he
  obtain ⟨node', hnode'⟩ :=
    Snapshot.exists_get? ((hg.contains_iff p).2 ⟨k, hk, Path.same_iff.2 hparts.symm⟩)
  refine ⟨node', hnode', fun o ho ↦ (hg.dependents p node' hnode' o).2 ?_⟩
  obtain ⟨howner, t, himports, ht⟩ := hdependents o ho
  exact ⟨o, t, howner, himports, Path.same_iff.2 rfl, Path.same_iff.2 (ht.trans hparts.symm)⟩

end Scan

/-- What cancelling does to the scans of this plan. -/
structure ScanConfig.Halts (config : ScanConfig) (files : FileTree) (plan : ScanPlan)
    (facts : Source.ModuleFacts) : Prop where
  /-- Before there are tasks, nothing but the entry is read. -/
  start : (reads (config.begin.asked files)).Sublist [plan.entry]
  /-- Whatever the schedule, little is done after a scan has been cancelled. -/
  after : ∀ ms ms', ((Scan.start config.maxConcurrency facts).play plan ms).cancelled = true →
    ((Scan.start config.maxConcurrency facts).play plan ms).HaltsFrom plan ms'
  /-- The scan ends, and as a cancelled one, in whatever order the steps are taken. -/
  inevitable : ∀ s, Scan.Reachable plan files config.maxConcurrency facts s →
    s.cancelled = true →
      Scan.Inevitably plan files
        (fun t ↦ t.isFinished = true ∧ t.outcome plan = .error .cancelled) s
  /-- At any time, the files that have been claimed belong to the graph, and so do the imports that
  have been noted. -/
  graph : ∀ s, Scan.Reachable plan files config.maxConcurrency facts s →
    ∀ k e, s.ledger.Has k e → plan.IsNode files k ∧ ∀ o ∈ e.dependents.toList,
      plan.IsNode files o ∧ ∃ t, plan.Imports files o t ∧ t.parts = k.parts
  /-- So a snapshot that was taken then would be within the one that is found without cancelling. -/
  within : ∀ s, Scan.Reachable plan files config.maxConcurrency facts s →
    ∀ g, plan.Depicts files g → (s.taken plan).snapshot.Within g

/-- Cancelling is sound wherever a scan stands that has started. -/
theorem halts_of_begin {config : ScanConfig} {plan : ScanPlan} {files : FileTree}
    {facts : Source.ModuleFacts} (hbegin : config.begin.run files = .ok (plan, facts)) :
    config.Halts files plan facts := by
  obtain ⟨hmax, hwalked⟩ := walked_of_begin hbegin
  obtain ⟨p, hreads, hp⟩ := reads_asked_begin config files
  refine ⟨hp plan facts hbegin ▸ hreads, fun ms ms' hcancelled ↦ ?_,
    fun s hs ↦ Scan.inevitably_of_cancelled hmax hwalked hs, fun s hs k e he ↦ ?_,
    fun s hs g hg ↦ ?_⟩
  · have hall := Scan.once_play plan config.maxConcurrency facts (ms ++ ms')
    rw [Scan.log_append, Scan.play_append] at hall
    exact Scan.haltsFrom (Scan.once_play plan config.maxConcurrency facts ms) hcancelled hall
  · exact (hs.sound hwalked).graph he
  · exact (hs.sound hwalked).within hg

/-- A small repository, cancelled anywhere. -/
theorem halts_sample :
    ∃ plan facts, Sample.settings.begin.run Sample.repository = .ok (plan, facts) ∧
      Sample.settings.Halts Sample.repository plan facts := by
  obtain ⟨plan, facts, h⟩ := Sample.exists_begin
  exact ⟨plan, facts, h, halts_of_begin h⟩

end ImpactGraph
