import ImpactGraph.Proofs.Scan.Graph
import ImpactGraph.Scan.Run

/-!
# The scan that is run

`ScanConfig.scan` lets the tasks take turns in one order.  `unfinished_or_ends` says that what it
comes to is one of the results that a scan can have in any order, so that all that is proved of
those holds of it.  `begin_eq_ok_iff` says when a scan starts at all.
-/

set_option autoImplicit false

namespace ImpactGraph

variable {plan : ScanPlan} {files : FileTree} {config : ScanConfig} {s : Scan}

/-! ## The start -/

/-- A scan starts with the entry loaded, where the configuration is valid and both the root and the
entry are found. -/
theorem begin_eq_ok_iff {facts : Source.ModuleFacts} :
    config.begin.run files = .ok (plan, facts) ↔
      config.fault? = none ∧ ∃ root entry, config.findRoot.run files = .ok root ∧
        (config.findEntry root).run files = .ok entry ∧
          plan = ScanPlan.ofConfig config root entry ∧ plan.factsOf files entry = .ok facts := by
  rw [ScanConfig.begin]
  cases hfault : config.fault? with
  | some fault => simp
  | none =>
    simp only [Dialogue.run_bind]
    cases hroot : config.findRoot.run files with
    | error fault => simp
    | ok root =>
      simp only [Dialogue.run_bind]
      cases hentry : (config.findEntry root).run files with
      | error fault => simp [hentry]
      | ok entry =>
        simp only [Dialogue.run_bind]
        cases hfacts : ((ScanPlan.ofConfig config root entry).facts entry).run files with
        | error fault => cases fault <;> simp_all [ScanPlan.factsOf]
        | ok facts' =>
          simp only [Dialogue.run_pure, Except.ok.injEq, Prod.mk.injEq, true_and]
          constructor
          · rintro ⟨rfl, rfl⟩
            exact ⟨root, entry, rfl, hentry, rfl, hfacts⟩
          · rintro ⟨_, _, rfl, hentry', rfl, hfacts'⟩
            rw [hentry] at hentry'
            cases hentry'
            exact ⟨rfl, Except.ok.inj (hfacts.symm.trans hfacts')⟩

/-! ## The turns -/

/-- The answers that a scan gets over a file tree, while it is cancelled or while it is not. -/
def FileTree.answers (files : FileTree) (cancelled : Bool) : (q : ScanQuestion) → q.Answer
  | .files question => files question
  | .cancelled => cancelled

theorem Scanning.run_files {α : Type} (d : Files α) (c : Bool) :
    (Scanning.files d).run (files.answers c) = d.run files := by
  induction d with
  | done a => rfl
  | ask question next ih => exact ih (files question)

namespace Scan

theorem next_turn : Next plan files s ((s.turn plan).run files) := by
  rw [turn]
  split
  · next htasks => exact .task 0 (by rw [htasks]; exact Nat.zero_lt_succ _)
  · exact .root

theorem run_succ (turns : Nat) (c : Bool) :
    (s.run plan (turns + 1)).run (files.answers c) =
      if (bif c then s.cancel else s).isFinished = true then some (bif c then s.cancel else s)
      else ((((bif c then s.cancel else s).turn plan).run files).run plan turns).run
        (files.answers c) := by
  have hcancelled : Scanning.cancelled.run (files.answers c) = c := rfl
  rw [Scan.run, Dialogue.run_bind, hcancelled]
  cases c <;>
  · simp only [if_true, if_false, Bool.false_eq_true, cond_true, cond_false]
    split
    · rfl
    · rw [Dialogue.run_bind, Scanning.run_files]

theorem run_eq_some {maxConcurrency turns : Nat} {facts : Source.ModuleFacts} {c : Bool} {t : Scan}
    (hs : Reachable plan files maxConcurrency facts s)
    (h : (s.run plan turns).run (files.answers c) = some t) :
    Reachable plan files maxConcurrency facts t ∧ t.isFinished = true := by
  induction turns generalizing s with
  | zero => cases h
  | succ turns ih =>
    rw [run_succ] at h
    have hs' : Reachable plan files maxConcurrency facts (bif c then s.cancel else s) := by
      cases c with
      | true => exact hs.next .cancel
      | false => exact hs
    split at h
    · next hfinished =>
      cases h
      exact ⟨hs', hfinished⟩
    · exact ih (hs'.next next_turn) h

end Scan

/-- What a scan comes to, unless it runs out of turns, is one of the results that there can be. -/
theorem unfinished_or_ends (c : Bool) :
    config.scan.run (files.answers c) = .error .unfinished ∨
      config.Ends files (config.scan.run (files.answers c)) := by
  rw [ScanConfig.scan, Dialogue.run_bind, Scanning.run_files]
  cases hbegin : config.begin.run files with
  | error fault => exact .inr (.early hbegin)
  | ok start =>
    obtain ⟨plan, facts⟩ := start
    simp only [Dialogue.run_bind]
    cases hrun : ((Scan.start config.maxConcurrency facts).run plan maxTurns).run
        (files.answers c) with
    | none => exact .inl rfl
    | some s =>
      obtain ⟨hs, hfinished⟩ := Scan.run_eq_some .start hrun
      exact .inr (.late hbegin hs hfinished)

theorem ends_of_run_eq_ok {outcome : ScanOutcome} {c : Bool}
    (h : config.scan.run (files.answers c) = .ok outcome) : config.Ends files (.ok outcome) := by
  rcases unfinished_or_ends (c := c) with hunfinished | hends
  · rw [hunfinished] at h
    cases h
  · rwa [h] at hends

/-- A scan that is seen to come to an outcome ends with it. -/
theorem exists_ends_of_isSome
    (h : (config.scan.run (files.answers false)).toOption.isSome = true) :
    ∃ outcome, config.Ends files (.ok outcome) := by
  obtain ⟨outcome, houtcome⟩ := Option.isSome_iff_exists.1 h
  refine ⟨outcome, ends_of_run_eq_ok (c := false) ?_⟩
  cases hresult : config.scan.run (files.answers false) with
  | error fault =>
    rw [hresult] at houtcome
    cases houtcome
  | ok outcome' =>
    rw [hresult] at houtcome
    cases houtcome
    rfl

/-- A scan that ends with an outcome has started. -/
theorem exists_begin_of_ends {outcome : ScanOutcome} (h : config.Ends files (.ok outcome)) :
    ∃ plan facts, config.begin.run files = .ok (plan, facts) := by
  generalize hresult : Except.ok outcome = result at h
  cases h with
  | early => cases hresult
  | late hbegin => exact ⟨_, _, hbegin⟩

/-- A scan that is seen to find its entry starts from it. -/
theorem exists_begin_of_entry {p : Path}
    (h : (config.begin.run files).toOption.map (·.1.entry) = some p) :
    ∃ plan facts, config.begin.run files = .ok (plan, facts) ∧ plan.entry = p := by
  obtain ⟨⟨plan, facts⟩, hbegin, hentry⟩ := Option.map_eq_some_iff.1 h
  cases hresult : config.begin.run files with
  | error fault =>
    rw [hresult] at hbegin
    cases hbegin
  | ok start =>
    rw [hresult] at hbegin
    cases hbegin
    exact ⟨plan, facts, rfl, hentry⟩

/-! ## A small repository

The entry imports a module that imports it back, a leaf, and a file that is missing; the module also
imports a file that is no module. -/

/-- The files of the repository. -/
def Sample.repository : FileTree := .ofTexts
  [(.ofText "/r/main.js", "import './a'; import './b.txt'; import './gone'"),
    (.ofText "/r/a.js", "import './main'; import './bad'"), (.ofText "/r/b.txt", "text"),
    (.ofText "/r/bad.js", "let")]

/-- How the repository is scanned. -/
def Sample.settings : ScanConfig :=
  { ScanConfig.default with
    root := .ofText "/r"
    entry := .ofText "main.js"
    extensions := ["js"] }

theorem Sample.exists_ends : ∃ outcome, settings.Ends repository (.ok outcome) :=
  exists_ends_of_isSome (by decide +kernel)

theorem Sample.exists_begin :
    ∃ plan facts, settings.begin.run repository = .ok (plan, facts) := by
  obtain ⟨outcome, h⟩ := exists_ends
  exact exists_begin_of_ends h

end ImpactGraph
