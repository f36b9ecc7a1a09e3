import ImpactGraph.Scan.Quiescence
import Mathlib.Logic.Function.Iterate
import Mathlib.Logic.Relation

/-!
# No notice is lost

One who waits reads the count and parks afterwards, so the last guard may be dropped in between.
It does not matter: for whoever is about to park, or has parked, there is a guard that is alive, a
notice that is owed, or one that is there (`Attended`).  Every step keeps this, and so nobody is
parked for good (`wakes_of_reachable`).

A notice does not end the waiting by itself.  The one who takes it reads the count again, so one
that was left by an earlier visit of the count to zero is taken in vain.
-/

set_option autoImplicit false

namespace ImpactGraph

/-! ## The count -/

namespace Quiescence

variable {q : Quiescence} {i : Nat}

/-- The number of guards that are alive. -/
def live (q : Quiescence) : Nat := q.guards.count true

theorem live_schedule : q.schedule.live = q.live + 1 := by
  simp [schedule, live]

theorem live_drop (hi : q.guards[i]? = some true) : (q.drop i).live + 1 = q.live := by
  obtain ⟨hlt, hget⟩ := List.getElem?_eq_some_iff.1 hi
  have hpos : 0 < q.guards.count true := List.count_pos_iff.2 (hget ▸ List.getElem_mem hlt)
  rw [drop, if_pos hi, live, live, List.count_set hlt]
  simp [hget]
  omega

theorem pending_drop (hi : q.guards[i]? = some true) : (q.drop i).pending = q.pending - 1 := by
  rw [drop, if_pos hi]

end Quiescence

/-! ## Nobody is forgotten -/

namespace Watch

variable {w w' : Watch}

/-- A notice is there, or is owed, or will be owed by a guard that is alive. -/
def Coming (w : Watch) : Prop := w.notice = true ∨ 0 < w.owed ∨ 0 < w.table.pending

/-- Whoever is about to park has a notice coming, and so has whoever has parked; then it has not
been left yet. -/
structure Attended (w : Watch) : Prop where
  counted : w.table.pending = w.table.live
  parking : w.waiter = .parking → w.Coming
  parked : w.waiter = .parked → w.Coming ∧ w.notice = false

theorem attended_start : Attended start := ⟨rfl, by simp [start], by simp [start]⟩

namespace Attended

theorem schedule (h : w.Attended) : w.schedule.Attended := by
  have hcoming : w.schedule.Coming := .inr (.inr (Nat.succ_pos _))
  refine ⟨?_, fun _ ↦ hcoming, fun hparked ↦ ⟨hcoming, (h.parked hparked).2⟩⟩
  show w.table.pending + 1 = w.table.schedule.live
  rw [Quiescence.live_schedule, h.counted]

/-- The last guard owes a notice, and any other one leaves guards behind. -/
theorem drop (h : w.Attended) (i : Nat) : (w.drop i).Attended := by
  rw [Watch.drop]
  split
  · next hi =>
    have hlive := Quiescence.live_drop hi
    have hpending := Quiescence.pending_drop hi
    have hcounted := h.counted
    have hcoming : 0 < (if w.table.pending = 1 then w.owed + 1 else w.owed) ∨
        0 < (w.table.drop i).pending := by
      split <;> omega
    exact ⟨by simp only; omega, fun _ ↦ .inr hcoming,
      fun hparked ↦ ⟨.inr hcoming, (h.parked hparked).2⟩⟩
  · exact h

/-- A notice is left to whoever is about to park, and wakes whoever has parked. -/
theorem notify (h : w.Attended) : w.notify.Attended := by
  rw [Watch.notify]
  split
  · exact h
  · split
    · exact ⟨h.counted, by simp, by simp⟩
    · next hparked => exact ⟨h.counted, fun _ ↦ .inl rfl, fun h' ↦ absurd h' hparked⟩

/-- One parks only after reading a count that is not zero, and only if no notice is there. -/
theorem wait (h : w.Attended) : w.wait.Attended := by
  have hparking := h.parking
  rw [Watch.wait]
  cases hwaiter : w.waiter with
  | asking | woken => exact ⟨h.counted, by simp, by simp⟩
  | parked | done => exact h
  | reading =>
    dsimp only
    split
    · exact ⟨h.counted, by simp, by simp⟩
    · next hzero =>
      exact ⟨h.counted, fun _ ↦ .inr (.inr (Nat.pos_of_ne_zero hzero)), by simp⟩
  | parking =>
    dsimp only
    split
    · exact ⟨h.counted, by simp, by simp⟩
    · next hnotice =>
      exact ⟨h.counted, by simp, fun _ ↦ ⟨h.parking hwaiter, Bool.eq_false_iff.2 hnotice⟩⟩

theorem again (h : w.Attended) : w.again.Attended := by
  rw [Watch.again]
  split
  · exact ⟨h.counted, by simp, by simp⟩
  · exact h

theorem next (h : w.Attended) (hnext : Next w w') : w'.Attended := by
  cases hnext with
  | schedule => exact h.schedule
  | drop i => exact h.drop i
  | notify => exact h.notify
  | wait => exact h.wait
  | again => exact h.again

end Attended

/-- A watch that can be come to, from one guard and nobody waiting. -/
def Reachable (w : Watch) : Prop := Relation.ReflTransGen Next start w

theorem Reachable.attended (h : w.Reachable) : w.Attended := by
  induction h with
  | refl => exact attended_start
  | tail _ hnext ih => exact ih.next hnext

/-! ## How the waiting ends -/

/-- The waiting is done with a step of the one who waits, who has just read a zero. -/
theorem of_next_done (hnext : Next w w') (hw : w.waiter ≠ .done) (hw' : w'.waiter = .done) :
    w.waiter = .reading ∧ w.table.pending = 0 := by
  cases hnext with
  | schedule => exact absurd hw' hw
  | drop i =>
    rw [drop] at hw'
    split at hw' <;> exact absurd hw' hw
  | notify =>
    rw [notify] at hw'
    split at hw'
    · exact absurd hw' hw
    · split at hw'
      · cases hw'
      · exact absurd hw' hw
  | wait =>
    rw [wait] at hw'
    cases hwaiter : w.waiter with
    | reading =>
      simp only [hwaiter] at hw'
      split at hw'
      · next hzero => exact ⟨rfl, hzero⟩
      · cases hw'
    | parking =>
      simp only [hwaiter] at hw'
      split at hw' <;> cases hw'
    | asking | woken => simp [hwaiter] at hw'
    | parked => simp [hwaiter] at hw'
    | done => exact absurd hwaiter hw
  | again =>
    rw [again, if_neg hw] at hw'
    exact absurd hw' hw

/-- While the count is not zero, the waiting is not done, whatever notices are taken. -/
theorem not_done_of_pending (hw : w.waiter ≠ .done)
    (h : Relation.ReflTransGen (fun u v ↦ 0 < u.table.pending ∧ Next u v) w w') :
    w'.waiter ≠ .done := by
  induction h with
  | refl => exact hw
  | tail _ hstep ih =>
    intro hdone
    obtain ⟨-, hzero⟩ := of_next_done hstep.2 ih hdone
    exact absurd hzero (Nat.ne_of_gt hstep.1)

theorem owed_notify : w.notify.owed = w.owed - 1 := by
  rw [notify]
  split
  · next howed => simp [howed]
  · next howed => split <;> simp [howed]

theorem table_notify : w.notify.table = w.table := by
  rw [notify]
  split
  · rfl
  · split <;> rfl

theorem table_wait : w.wait.table = w.table := by
  rw [wait.eq_def]
  split
  case h_2 | h_3 => split <;> rfl
  all_goals rfl

/-- All notices that are owed are left. -/
theorem Attended.notify_owed (h : w.Attended) :
    (Watch.notify^[w.owed] w).Attended ∧ (Watch.notify^[w.owed] w).owed = 0 ∧
      (Watch.notify^[w.owed] w).table = w.table := by
  induction howed : w.owed generalizing w with
  | zero => exact ⟨h, howed, rfl⟩
  | succ n ih =>
    rw [Function.iterate_succ_apply]
    have hn : w.notify.owed = n := by rw [owed_notify, howed, Nat.add_sub_cancel]
    obtain ⟨hattended, howed', htable⟩ := ih h.notify hn
    exact ⟨hattended, howed', htable.trans table_notify⟩

/-- One who waits is done in four steps, once the guards are gone and have left their notices. -/
theorem Attended.wait_done (h : w.Attended) (hzero : w.table.pending = 0) (howed : w.owed = 0) :
    (Watch.wait^[4] w).waiter = .done := by
  have hnotice (hcoming : w.Coming) : w.notice = true := by
    rcases hcoming with hnotice | hpos | hpos
    · exact hnotice
    · omega
    · omega
  cases hwaiter : w.waiter with
  | asking | reading | woken | done => simp [Watch.wait, hwaiter, hzero]
  | parking => simp [Watch.wait, hwaiter, hzero, hnotice (h.parking hwaiter)]
  | parked =>
    obtain ⟨hcoming, hnone⟩ := h.parked hwaiter
    rw [hnotice hcoming] at hnone
    cases hnone

/-! ## All that is to be said of waiting -/

/-- What is said of a watch about the one who waits. -/
structure Wakes (w : Watch) : Prop where
  /-- The guards that are alive are counted. -/
  count : w.table.pending = w.table.live
  /-- Nobody is parked when the guards are gone and no notice is there or owed. -/
  parked : ¬(w.waiter = .parked ∧ w.table.pending = 0 ∧ w.notice = false ∧ w.owed = 0)
  /-- The waiting is done only with a step that has read a zero. -/
  done : ∀ w', Next w w' → w.waiter ≠ .done → w'.waiter = .done →
    w.waiter = .reading ∧ w.table.pending = 0
  /-- A notice that is left over does not end the waiting while there are guards. -/
  stale : ∀ w', w.waiter ≠ .done →
    Relation.ReflTransGen (fun u v ↦ 0 < u.table.pending ∧ Next u v) w w' → w'.waiter ≠ .done
  /-- Once the guards are gone, the notices that they owe are enough to end it. -/
  wakes : w.table.pending = 0 → (wait^[4] (notify^[w.owed] w)).waiter = .done

/-- In whatever order guards are taken and dropped, notices left and steps of the waiting taken,
nobody is parked for good, and nobody is done early. -/
theorem wakes_of_reachable (h : w.Reachable) : w.Wakes where
  count := h.attended.counted
  parked := by
    rintro ⟨hparked, hzero, hnotice, howed⟩
    rcases (h.attended.parked hparked).1 with hcoming | hcoming | hcoming
    · rw [hnotice] at hcoming
      cases hcoming
    · omega
    · omega
  done w' hnext hw hw' := of_next_done hnext hw hw'
  stale w' hw hrun := not_done_of_pending hw hrun
  wakes hzero := by
    obtain ⟨hattended, howed, htable⟩ := h.attended.notify_owed
    exact hattended.wait_done (htable ▸ hzero) howed

/-- The root is dropped before anyone waits, and its notice is left.  One more guard is taken, the
notice is taken in vain by the one who waits, and the second guard is dropped after that. -/
def overtaken : Watch := (wait^[7] (start.drop 0).notify.schedule).drop 1

theorem Reachable.wait_iterate (h : w.Reachable) (n : Nat) : (Watch.wait^[n] w).Reachable := by
  induction n with
  | zero => exact h
  | succ n ih =>
    rw [Function.iterate_succ_apply']
    exact ih.tail .wait

theorem wakes_overtaken : overtaken.Reachable ∧
    overtaken = ⟨⟨0, [false, false]⟩, 1, false, .parked⟩ ∧ overtaken.Wakes := by
  have hreach : (start.drop 0).notify.schedule.Reachable :=
    ((Relation.ReflTransGen.refl.tail (.drop 0)).tail .notify).tail .schedule
  have h : overtaken.Reachable := (hreach.wait_iterate 7).tail (.drop 1)
  exact ⟨h, by decide, wakes_of_reachable h⟩

end Watch
end ImpactGraph
