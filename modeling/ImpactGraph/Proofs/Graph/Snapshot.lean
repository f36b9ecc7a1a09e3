import ImpactGraph.Graph.Snapshot
import ImpactGraph.Proofs.SortedMap
import Mathlib.Logic.Relation

/-!
# All that a change may reach

`transitiveDependents` is a search along the listed dependents.  `contains_transitiveDependents_iff`
says that it finds all that is reached by one import or more, and nothing else.

`Searches` is the loop of the search without a bound on its rounds.  It ends since each file is put
into the queue once: `unseen` counts the listed dependents that have not been seen, and every file
that is added to the queue is taken from them (`length_novel_add_unseen`).  When the queue is empty,
the files seen are closed under dependents.
-/

set_option autoImplicit false

namespace ImpactGraph

namespace PathSet

variable {s : PathSet} {p q : Path}

theorem contains_iff : s.contains p = true ↔ ∃ k ∈ s.toList, p.parts = k.parts := by
  rw [SortedMap.contains_iff_mem_keys]
  simp only [toList, Path.compare_eq_iff]

theorem mem_add : q ∈ (s.add p).toList ↔ q ∈ s.toList ∨ q = p ∧ s.contains p = false := by
  rw [add, toList, toList]
  cases h : s.contains p with
  | true => simp
  | false =>
    rw [if_neg Bool.false_ne_true, SortedMap.mem_keys_insert_of_not_contains h]
    simp [or_comm]

theorem contains_add_self : (s.add p).contains p = true := by
  rw [contains_iff]
  cases h : s.contains p with
  | true =>
    obtain ⟨k, hk, hp⟩ := contains_iff.1 h
    exact ⟨k, mem_add.2 (.inl hk), hp⟩
  | false => exact ⟨p, mem_add.2 (.inr ⟨rfl, h⟩), rfl⟩

end PathSet

namespace Snapshot

variable {g : Snapshot} {seen result result' : PathSet} {queue paths : List Path} {p q d : Path}

/-! ## Dependents -/

theorem dependentsOf_congr (h : p.parts = q.parts) : g.dependentsOf p = g.dependentsOf q := by
  have hget : g.get? p = g.get? q := by
    rw [Option.ext_iff]
    intro node
    simp only [get?, SortedMap.get?_eq_some_iff, Path.compare_eq_iff, h]
  rw [dependentsOf, dependentsOf, hget]

/-- The files that are listed as dependents. -/
def listed (g : Snapshot) : List Path := g.nodes.entries.flatMap fun (_, node) ↦ node.dependents

theorem dependentsOf_subset_listed : g.dependentsOf p ⊆ g.listed := by
  intro d hd
  rw [dependentsOf] at hd
  split at hd
  · next node hnode =>
    obtain ⟨k, hk, -⟩ := SortedMap.get?_eq_some_iff.1 hnode
    exact List.mem_flatMap.2 ⟨(k, node), hk, hd⟩
  · exact absurd hd List.not_mem_nil

/-- One file is reached by a change to another one through a single import. -/
def Affects (g : Snapshot) (p d : Path) : Prop := d ∈ g.dependentsOf p

theorem transGen_affects_congr (h : p.parts = q.parts) (hp : Relation.TransGen g.Affects p d) :
    Relation.TransGen g.Affects q d := by
  obtain ⟨b, hb, hbd⟩ := Relation.TransGen.head'_iff.1 hp
  refine Relation.TransGen.head'_iff.2 ⟨b, ?_, hbd⟩
  rwa [Affects, ← dependentsOf_congr h]

/-! ## One round of the search -/

/-- Those of the paths that are put into the queue. -/
def novel (seen : PathSet) : List Path → List Path
  | [] => []
  | path :: paths =>
    if seen.contains path then novel seen paths else path :: novel (seen.add path) paths

theorem enqueue_snd : (enqueue seen queue paths).2 = queue ++ novel seen paths := by
  induction paths generalizing seen queue with
  | nil => simp [enqueue, novel]
  | cons path paths ih =>
    rw [enqueue, novel]
    split
    · exact ih
    · rw [ih, List.append_assoc]
      rfl

theorem mem_enqueue_fst :
    q ∈ (enqueue seen queue paths).1.toList ↔ q ∈ seen.toList ∨ q ∈ novel seen paths := by
  induction paths generalizing seen queue with
  | nil => simp [enqueue, novel]
  | cons path paths ih =>
    rw [enqueue, novel]
    split
    · exact ih
    · next hpath =>
      rw [ih, PathSet.mem_add, List.mem_cons]
      simp [hpath, or_assoc]

theorem novel_subset : novel seen paths ⊆ paths := by
  induction paths generalizing seen with
  | nil => exact List.Subset.refl _
  | cons path paths ih =>
    rw [novel]
    split
    · exact List.subset_cons_of_subset _ ih
    · exact List.cons_subset_cons _ ih

theorem contains_mono {seen seen' : PathSet} (h : seen.toList ⊆ seen'.toList)
    (hp : seen.contains p = true) : seen'.contains p = true := by
  obtain ⟨k, hk, hparts⟩ := PathSet.contains_iff.1 hp
  exact PathSet.contains_iff.2 ⟨k, h hk, hparts⟩

theorem subset_enqueue : seen.toList ⊆ (enqueue seen queue paths).1.toList :=
  fun _ hq ↦ mem_enqueue_fst.2 (.inl hq)

theorem contains_enqueue (h : p ∈ paths) : (enqueue seen queue paths).1.contains p = true := by
  induction paths generalizing seen queue with
  | nil => exact absurd h List.not_mem_nil
  | cons path paths ih =>
    rw [enqueue]
    rcases List.mem_cons.1 h with rfl | h
    · split
      · next hseen => exact contains_mono subset_enqueue hseen
      · exact contains_mono subset_enqueue PathSet.contains_add_self
    · split <;> exact ih h

/-! ## The end of the search -/

/-- How many of the listed dependents have not been seen. -/
def unseen (g : Snapshot) (seen : PathSet) : Nat :=
  (g.listed.filter fun d ↦ !seen.contains d).length

theorem unseen_empty : g.unseen ∅ = g.edgeCount := by
  have hall : g.listed.filter (fun d ↦ !(∅ : PathSet).contains d) = g.listed :=
    List.filter_eq_self.2 fun _ _ ↦ rfl
  rw [unseen, hall]
  rfl

theorem unseen_add_lt (hp : p ∈ g.listed) (hnew : seen.contains p = false) :
    g.unseen (seen.add p) < g.unseen seen := by
  have hsub (d : Path) (hd : seen.contains d = true) : (seen.add p).contains d = true :=
    contains_mono (fun _ hq ↦ PathSet.mem_add.2 (.inl hq)) hd
  have hfilter : g.listed.filter (fun d ↦ !(seen.add p).contains d) =
      (g.listed.filter fun d ↦ !seen.contains d).filter fun d ↦ !(seen.add p).contains d := by
    rw [List.filter_filter]
    refine List.filter_congr fun d _ ↦ ?_
    cases hd : seen.contains d with
    | true => simp [hsub d hd]
    | false => simp
  rw [unseen, unseen, hfilter, List.length_filter_lt_length_iff_exists]
  exact ⟨p, List.mem_filter.2 ⟨hp, by simp [hnew]⟩, by simp [PathSet.contains_add_self]⟩

theorem length_novel_add_unseen (seen : PathSet) (queue : List Path) (h : paths ⊆ g.listed) :
    (novel seen paths).length + g.unseen (enqueue seen queue paths).1 ≤ g.unseen seen := by
  induction paths generalizing seen queue with
  | nil => simp [novel, enqueue]
  | cons path paths ih =>
    obtain ⟨hpath, hpaths⟩ := List.cons_subset.1 h
    rw [novel, enqueue]
    split
    · exact ih seen queue hpaths
    · next hnew =>
      have hlt := unseen_add_lt hpath (Bool.eq_false_iff.2 hnew)
      have hrest := ih (seen.add path) (queue ++ [path]) hpaths
      rw [List.length_cons]
      omega

/-- What the loop of the search comes to from these files that are seen and these in the queue: it
takes a file from the front of the queue, and adds those of its dependents that are new to both. -/
inductive Searches (g : Snapshot) : PathSet → List Path → PathSet → Prop
  | done {seen : PathSet} : Searches g seen [] seen
  | round {seen result : PathSet} {queue : List Path} {path : Path} :
      Searches g (enqueue seen queue (g.dependentsOf path)).1
        (enqueue seen queue (g.dependentsOf path)).2 result →
      Searches g seen (path :: queue) result

/-- How many rounds there can be: one for each file in the queue, and one for each listed dependent
that is still to be seen. -/
def roundsLeft (g : Snapshot) (seen : PathSet) (queue : List Path) : Nat :=
  queue.length + g.unseen seen

theorem roundsLeft_enqueue_lt :
    g.roundsLeft (enqueue seen queue (g.dependentsOf p)).1
      (enqueue seen queue (g.dependentsOf p)).2 < g.roundsLeft seen (p :: queue) := by
  have hcount := length_novel_add_unseen seen queue (g.dependentsOf_subset_listed (p := p))
  rw [roundsLeft, roundsLeft, enqueue_snd, List.length_append, List.length_cons]
  omega

/-- The loop ends, and with enough fuel `follow` gives its result. -/
theorem searches_follow {fuel : Nat} (hfuel : g.roundsLeft seen queue ≤ fuel) :
    g.Searches seen queue (g.follow fuel seen queue) := by
  induction fuel generalizing seen queue with
  | zero =>
    have hlength : queue.length = 0 := by
      rw [roundsLeft] at hfuel
      omega
    rw [List.eq_nil_of_length_eq_zero hlength, follow]
    exact .done
  | succ fuel ih =>
    cases queue with
    | nil => exact .done
    | cons path queue =>
      rw [follow]
      have hlt : g.roundsLeft _ _ < g.roundsLeft seen (path :: queue) := roundsLeft_enqueue_lt
      exact .round (ih (by omega))

theorem searches_transitiveDependents :
    g.Searches ∅ [p] (g.transitiveDependents p) := by
  have hrounds : g.roundsLeft ∅ [p] = g.edgeCount + 1 := by
    rw [roundsLeft, unseen_empty, List.length_singleton, Nat.add_comm]
  exact searches_follow (Nat.le_of_eq hrounds)

theorem Searches.unique (h : g.Searches seen queue result) (h' : g.Searches seen queue result') :
    result = result' := by
  induction h with
  | done =>
    cases h'
    rfl
  | round _ ih =>
    cases h' with
    | round h' => exact ih h'

/-! ## What the search finds -/

/-- The dependents of every file that is seen are seen, unless the file is still in the queue; so
are those of the file that the search starts from. -/
def Closing (g : Snapshot) (p : Path) (seen : PathSet) (queue : List Path) : Prop :=
  ∀ q, q = p ∨ q ∈ seen.toList → q ∈ queue ∨ ∀ d ∈ g.dependentsOf q, seen.contains d = true

theorem Closing.enqueue (h : g.Closing p seen (q :: queue)) :
    g.Closing p (Snapshot.enqueue seen queue (g.dependentsOf q)).1
      (Snapshot.enqueue seen queue (g.dependentsOf q)).2 := by
  intro x hx
  rw [enqueue_snd]
  have hx' : (x = p ∨ x ∈ seen.toList) ∨ x ∈ novel seen (g.dependentsOf q) := by
    rcases hx with rfl | hx
    · exact .inl (.inl rfl)
    · exact (mem_enqueue_fst.1 hx).imp_left .inr
  rcases hx' with hx' | hx'
  · rcases h x hx' with hmem | hclosed
    · rcases List.mem_cons.1 hmem with rfl | hmem
      · exact .inr fun d hd ↦ contains_enqueue hd
      · exact .inl (List.mem_append_left _ hmem)
    · exact .inr fun d hd ↦ contains_mono subset_enqueue (hclosed d hd)
  · exact .inl (List.mem_append_right _ hx')

/-- When the search ends, the queue is empty. -/
theorem Searches.closing (hsearch : g.Searches seen queue result) (h : g.Closing p seen queue) :
    g.Closing p result [] := by
  induction hsearch with
  | done => exact h
  | round _ ih => exact ih h.enqueue

/-- What the search finds is reached. -/
theorem Searches.transGen (hsearch : g.Searches seen queue result)
    (hseen : ∀ q ∈ seen.toList, Relation.TransGen g.Affects p q)
    (hqueue : ∀ q ∈ queue, Relation.ReflTransGen g.Affects p q) :
    ∀ d ∈ result.toList, Relation.TransGen g.Affects p d := by
  induction hsearch with
  | done => exact hseen
  | @round seen result queue q _ ih =>
    obtain ⟨hq, hqueue⟩ := List.forall_mem_cons.1 hqueue
    have hnovel (d : Path) (hd : d ∈ novel seen (g.dependentsOf q)) :
        Relation.TransGen g.Affects p d := Relation.TransGen.tail' hq (novel_subset hd)
    refine ih (fun d hd ↦ ?_) fun d hd ↦ ?_
    · exact (mem_enqueue_fst.1 hd).elim (hseen d) (hnovel d)
    · rw [enqueue_snd] at hd
      exact (List.mem_append.1 hd).elim (hqueue d) fun hd ↦ (hnovel d hd).to_reflTransGen

/-- The transitive dependents of a file are those that a change to it reaches, under some
spelling. -/
theorem contains_transitiveDependents_iff :
    (g.transitiveDependents p).contains d = true ↔
      ∃ d', Relation.TransGen g.Affects p d' ∧ d.parts = d'.parts := by
  have hsearch := g.searches_transitiveDependents (p := p)
  have hclosed : g.Closing p (g.transitiveDependents p) [] := by
    refine hsearch.closing fun q hq ↦ .inl ?_
    rcases hq with rfl | hq
    · exact List.mem_cons_self
    · exact absurd hq List.not_mem_nil
  have hstep {q d : Path} (hq : q = p ∨ q ∈ (g.transitiveDependents p).toList)
      (hd : g.Affects q d) : (g.transitiveDependents p).contains d = true :=
    (hclosed q hq).elim (fun h ↦ absurd h List.not_mem_nil) fun h ↦ h d hd
  constructor
  · intro h
    obtain ⟨d', hd', hparts⟩ := PathSet.contains_iff.1 h
    refine ⟨d', ?_, hparts⟩
    exact hsearch.transGen (fun _ hq ↦ absurd hq List.not_mem_nil)
      (fun q hq ↦ List.mem_singleton.1 hq ▸ .refl) d' hd'
  · rintro ⟨d', hd', hparts⟩
    have hcontains : (g.transitiveDependents p).contains d' = true := by
      clear hparts
      induction hd' with
      | single hd => exact hstep (.inl rfl) hd
      | tail _ hd ih =>
        obtain ⟨b', hb', hbparts⟩ := PathSet.contains_iff.1 ih
        exact hstep (.inr hb') (by rwa [Affects, ← dependentsOf_congr hbparts])
    obtain ⟨k, hk, hkparts⟩ := PathSet.contains_iff.1 hcontains
    exact PathSet.contains_iff.2 ⟨k, hk, hparts.trans hkparts⟩

end Snapshot
end ImpactGraph
