import ImpactGraph.Proofs.Scan.Quiescence
import ImpactGraph.Proofs.Scan.Waiting

/-!
# A scan under watch

A `Scan` has the number of its guards only, and its root is done waiting with one step, once this
number is zero.  A `Watch` has the guards, and one who waits for the notice of the last of them.
Here the two are put together.  In a `Watched` scan every task that starts takes a guard of the
watch, every one that leaves drops a guard, notices are left at any time, and the root is done when
the one who waits is.

It makes no difference: a scan comes to the same states with and without the watch
(`run_iff_exists_watched`).  One direction holds since zero is final, so a zero that was read once
is still there when the root goes on; the other one since nobody is parked for good.
-/

set_option autoImplicit false

namespace ImpactGraph
namespace Scan

variable {plan : ScanPlan} {s t : Scan} {w w' : Watch} {maxConcurrency : Nat}
  {facts : Source.ModuleFacts}

/-! ## What one step does to the count -/

theorem Acts.root_eq {files : FileTree} {ts : List Task} {owner : Path} {specifier : String}
    {phase : Phase} (h : Acts plan files s ts owner specifier phase t) : t.root = s.root := by
  cases h <;> rfl

/-- A step takes one guard at most, or drops one at most. -/
theorem pending_of_disturbed (hs : Counted s) (h : Disturbed plan s t) :
    t.pending = s.pending ∨ t.pending = s.pending + 1 ∨ t.pending + 1 = s.pending := by
  have hpending := hs.pending
  cases h with
  | breakOff i hi =>
    rw [breakOff_eq hi]
    refine .inr (.inr ?_)
    simp only
    omega
  | next files hnext =>
    cases hnext with
    | task i hi =>
      obtain ⟨u, hu, halike⟩ := step_acts plan files (List.getElem?_eq_getElem hi)
      rw [← halike.pending]
      generalize s.tasks[i].phase = phase at hu
      cases hu with
      | spawn => exact .inr (.inl rfl)
      | leave =>
        refine .inr (.inr ?_)
        simp only
        omega
      | _ => exact .inl rfl
    | root =>
      obtain ⟨u, hu, halike⟩ := rootStep_acts plan s
      rw [← halike.pending]
      generalize s.root = phase at hpending hu
      cases hu with
      | spawn => exact .inr (.inl rfl)
      | leave =>
        refine .inr (.inr ?_)
        simp only [RootPhase.guards] at hpending ⊢
        omega
      | _ => exact .inl rfl
    | cancel => exact .inl rfl

/-- The step with which the root is done. -/
theorem finish_of_disturbed (h : Disturbed plan s t) (hs : s.root ≠ .finished)
    (ht : t.root = .finished) :
    s.root = .waiting ∧ s.pending = 0 ∧ t = { s with root := .finished } := by
  cases h with
  | breakOff i hi =>
    rw [breakOff_eq hi] at ht
    exact absurd ht hs
  | next files hnext =>
    cases hnext with
    | task i hi =>
      obtain ⟨u, hu, halike⟩ := step_acts plan files (List.getElem?_eq_getElem hi)
      rw [← halike.root, hu.root_eq] at ht
      exact absurd ht hs
    | root =>
      rw [rootStep] at ht ⊢
      cases hroot : s.root with
      | waiting =>
        simp only [hroot] at ht ⊢
        split at ht
        · next hzero => exact ⟨trivial, hzero, if_pos hzero⟩
        · exact absurd ht hs
      | finished => exact absurd hroot hs
      | spawning names => cases names <;> simp [hroot] at ht
      | _ => simp [hroot] at ht
    | cancel => exact absurd ht hs

theorem disturbed_finish (hroot : s.root = .waiting) (hzero : s.pending = 0) :
    Disturbed plan s { s with root := .finished } := by
  have hstep : s.rootStep plan = { s with root := .finished } := by
    simp only [rootStep, hroot, if_pos hzero]
  exact hstep ▸ .next (.ofTexts []) .root

/-! ## Scans under watch -/

/-- A scan, and the watch over its guards. -/
structure Watched where
  /-- The scan. -/
  scan : Scan
  /-- The watch over the guards of the scan. -/
  watch : Watch

namespace Watched

variable {x y : Watched}

/-- What a step of the scan does to the watch: it takes a guard, or drops one that is alive, where
the count of the scan does so. -/
inductive Moves (s t : Scan) (w : Watch) : Watch → Prop
  | same : t.pending = s.pending → Moves s t w w
  | schedule : t.pending = s.pending + 1 → Moves s t w w.schedule
  | drop (i : Nat) : t.pending + 1 = s.pending → w.table.guards[i]? = some true →
      Moves s t w (w.drop i)

/-- The steps that can be taken: those of the scan but the one with which its root is done, those
with which notices are left, those of the waiting while the root waits, and the one with which
the root is done once the waiting is. -/
inductive Next (plan : ScanPlan) (x : Watched) : Watched → Prop
  | step {t : Scan} {w : Watch} : Disturbed plan x.scan t →
      (t.root = .finished → x.scan.root = .finished) → Moves x.scan t x.watch w →
      Next plan x ⟨t, w⟩
  | notify : Next plan x ⟨x.scan, x.watch.notify⟩
  | wait : x.scan.root = .waiting → Next plan x ⟨x.scan, x.watch.wait⟩
  | finish : x.scan.root = .waiting → x.watch.waiter = .done →
      Next plan x ⟨{ x.scan with root := .finished }, x.watch⟩

/-- The second state can be reached from the first one. -/
def Run (plan : ScanPlan) : Watched → Watched → Prop := Relation.ReflTransGen (Next plan)

/-- The scan with the entry loaded and parsed, and one guard. -/
def start (maxConcurrency : Nat) (facts : Source.ModuleFacts) : Watched :=
  ⟨.start maxConcurrency facts, .start⟩

/-! ## The watch tells the truth -/

/-- The watch counts what the scan counts, and the waiting is done only if this is nothing. -/
structure Truthful (x : Watched) : Prop where
  counted : Counted x.scan
  reachable : x.watch.Reachable
  pending : x.watch.table.pending = x.scan.pending
  done : x.watch.waiter = .done → x.scan.pending = 0

theorem truthful_start : Truthful (start maxConcurrency facts) :=
  ⟨counted_start maxConcurrency facts, .refl, rfl, by simp [start, Watch.start]⟩

theorem Moves.next (h : Moves s t w w') : w' = w ∨ Watch.Next w w' := by
  cases h with
  | same => exact .inl rfl
  | schedule => exact .inr .schedule
  | drop i => exact .inr (.drop i)

theorem Moves.pending (h : Moves s t w w') (hw : w.table.pending = s.pending) :
    w'.table.pending = t.pending := by
  cases h with
  | same ht => rw [hw, ht]
  | schedule ht => rw [ht, ← hw]; rfl
  | drop i ht hi =>
    have hdrop := Quiescence.pending_drop hi
    rw [Watch.drop, if_pos hi]
    simp only
    omega

/-- The waiting is done after a step only if nothing was pending before it. -/
theorem Truthful.pending_eq_zero (hx : x.Truthful) (h : Watch.Next x.watch w)
    (hdone : w.waiter = .done) : x.scan.pending = 0 := by
  by_cases hdone' : x.watch.waiter = .done
  · exact hx.done hdone'
  · exact hx.pending ▸ (Watch.of_next_done h hdone' hdone).2

/-- A step of the watch alone. -/
theorem Truthful.watch (hx : x.Truthful) (h : Watch.Next x.watch w)
    (htable : w.table = x.watch.table) : Truthful ⟨x.scan, w⟩ :=
  ⟨hx.counted, hx.reachable.tail h, htable ▸ hx.pending, hx.pending_eq_zero h⟩

/-- A step under watch is one of the scan, or changes nothing in it. -/
theorem Truthful.next (hx : x.Truthful) (h : Next plan x y) :
    y.Truthful ∧ Scan.Run plan x.scan y.scan := by
  cases h with
  | @step t w hstep hroot hmoves =>
    refine ⟨⟨lasting_counted.disturbed hx.counted hstep, ?_, hmoves.pending hx.pending, ?_⟩,
      .single hstep⟩
    · rcases hmoves.next with rfl | hnext
      · exact hx.reachable
      · exact hx.reachable.tail hnext
    · intro hdone
      have hzero : x.scan.pending = 0 := by
        rcases hmoves.next with rfl | hnext
        · exact hx.done hdone
        · exact hx.pending_eq_zero hnext hdone
      exact (lasting_still.disturbed (still_of_pending_eq_zero hx.counted hzero) hstep).pending
  | notify => exact ⟨hx.watch .notify Watch.table_notify, .refl⟩
  | wait => exact ⟨hx.watch .wait Watch.table_wait, .refl⟩
  | finish hroot hdone =>
    have hfinish : Disturbed plan x.scan _ := disturbed_finish hroot (hx.done hdone)
    exact ⟨⟨lasting_counted.disturbed hx.counted hfinish, hx.reachable, hx.pending, hx.done⟩,
      .single hfinish⟩

theorem truthful_of_run (h : Run plan (start maxConcurrency facts) x) :
    x.Truthful ∧ Scan.Run plan (.start maxConcurrency facts) x.scan := by
  induction h with
  | refl => exact ⟨truthful_start, .refl⟩
  | tail _ hnext ih =>
    obtain ⟨htruthful, hrun⟩ := ih.1.next hnext
    exact ⟨htruthful, ih.2.trans hrun⟩

/-! ## Nothing is lost under watch -/

theorem Truthful.exists_moves (hx : x.Truthful) (h : Disturbed plan x.scan t) :
    ∃ w, Moves x.scan t x.watch w := by
  rcases pending_of_disturbed hx.counted h with ht | ht | ht
  · exact ⟨_, .same ht⟩
  · exact ⟨_, .schedule ht⟩
  · have hlive : 0 < x.watch.table.guards.count true := by
      have hcounted := hx.reachable.attended.counted
      have hpending := hx.pending
      rw [Quiescence.live] at hcounted
      omega
    obtain ⟨i, hi⟩ := List.getElem?_of_mem (List.count_pos_iff.1 hlive)
    exact ⟨_, .drop i ht hi⟩

theorem run_iterate (s : Scan) (f : Watch → Watch) (hf : ∀ w, Next plan ⟨s, w⟩ ⟨s, f w⟩)
    (w : Watch) (n : Nat) : Run plan ⟨s, w⟩ ⟨s, f^[n] w⟩ := by
  induction n with
  | zero => exact .refl
  | succ n ih =>
    rw [Function.iterate_succ_apply']
    exact ih.tail (hf _)

/-- Once the guards are gone, notices are left and the waiting goes on until it is done. -/
theorem Truthful.exists_run_finish (hx : x.Truthful) (hroot : x.scan.root = .waiting)
    (hzero : x.scan.pending = 0) :
    ∃ w, Run plan x ⟨{ x.scan with root := .finished }, w⟩ := by
  have hnotify : Run plan x _ :=
    run_iterate x.scan Watch.notify (fun _ ↦ .notify) x.watch x.watch.owed
  have hwait : Run plan ⟨x.scan, Watch.notify^[x.watch.owed] x.watch⟩ _ :=
    run_iterate x.scan Watch.wait (fun _ ↦ .wait hroot) _ 4
  have hdone := (Watch.wakes_of_reachable hx.reachable).wakes (hx.pending.trans hzero)
  exact ⟨_, (hnotify.trans hwait).tail (.finish hroot hdone)⟩

theorem exists_run (h : Scan.Run plan (.start maxConcurrency facts) s) :
    ∃ w, Run plan (start maxConcurrency facts) ⟨s, w⟩ := by
  induction h with
  | refl => exact ⟨_, .refl⟩
  | @tail s t _ hstep ih =>
    obtain ⟨w, hrun⟩ := ih
    obtain ⟨htruthful, -⟩ := truthful_of_run hrun
    by_cases hfinish : t.root = .finished → s.root = .finished
    · obtain ⟨w', hmoves⟩ := htruthful.exists_moves hstep
      exact ⟨w', hrun.tail (.step hstep hfinish hmoves)⟩
    · rw [Classical.not_imp] at hfinish
      obtain ⟨hroot, hzero, rfl⟩ := finish_of_disturbed hstep hfinish.2 hfinish.1
      obtain ⟨w', hrun'⟩ := htruthful.exists_run_finish hroot hzero
      exact ⟨w', hrun.trans hrun'⟩

end Watched

/-- A scan comes to the same states with the watch over its guards and without it. -/
theorem run_iff_exists_watched : Run plan (.start maxConcurrency facts) s ↔
    ∃ w, Watched.Run plan (.start maxConcurrency facts) ⟨s, w⟩ :=
  ⟨Watched.exists_run, fun ⟨_, h⟩ ↦ (Watched.truthful_of_run h).2⟩

end Scan
end ImpactGraph
