import ImpactGraph.Proofs.Graph.Ledger
import Mathlib.Data.List.Induction
import Mathlib.Data.List.TakeWhile

/-!
# The ledger as the history of its calls

A `History` is the list of calls that have been made of a ledger.  What the ledger holds can be read
off the history alone (`told_ledger`): the files are those that a call has entered, each in the
spelling of the first such call, the descriptor of a file is the first one that was set since then,
and its dependents are the importers that were ever noted.

So the snapshot depends on the order of the calls only as far as descriptors are concerned: one
that is set before its file is entered is lost, and of those that are set afterwards the first one
stays.  `Reorders` leaves this much of the order as it is, and with it the snapshot
(`Reorders.same`).
-/

set_option autoImplicit false

namespace ImpactGraph

open Std

/-! ## Sets of paths that are gathered one by one -/

/-- The set of the paths of a list; of equal paths the first spelling is kept. -/
def PathSet.gather (paths : List Path) : PathSet := paths.foldl PathSet.add ∅

namespace PathSet

variable {paths : List Path} {p q : Path}

theorem gather_concat : gather (paths ++ [p]) = (gather paths).add p := List.foldl_concat ..

theorem contains_add {s : PathSet} :
    (s.add p).contains q = true ↔ s.contains q = true ∨ q.parts = p.parts := by
  rw [add]
  split
  · next h =>
    obtain ⟨k, hk, hp⟩ := contains_iff.1 h
    exact ⟨.inl, fun h ↦ h.elim id fun hq ↦ contains_iff.2 ⟨k, hk, hq.trans hp⟩⟩
  · rw [SortedMap.contains_insert, Path.compare_eq_iff]

theorem contains_gather : (gather paths).contains p = true ↔ ∃ q ∈ paths, p.parts = q.parts := by
  induction paths using List.reverseRecOn with
  | nil => exact ⟨fun h ↦ absurd h Bool.false_ne_true, by simp⟩
  | append_singleton paths q ih =>
    rw [gather_concat, contains_add, ih]
    simp [or_and_right, exists_or]

theorem mem_of_mem_gather (h : p ∈ (gather paths).toList) : p ∈ paths := by
  induction paths using List.reverseRecOn with
  | nil => cases h
  | append_singleton paths q ih =>
    rw [gather_concat, mem_add] at h
    rcases h with h | ⟨rfl, -⟩
    · exact List.mem_append_left _ (ih h)
    · exact List.mem_append_right _ (List.mem_singleton_self p)

theorem mem_map_parts_gather {parts : List Part} :
    parts ∈ (gather paths).toList.map Path.parts ↔ parts ∈ paths.map Path.parts := by
  constructor
  · intro h
    obtain ⟨k, hk, rfl⟩ := List.mem_map.1 h
    exact List.mem_map_of_mem (mem_of_mem_gather hk)
  · intro h
    obtain ⟨q, hq, rfl⟩ := List.mem_map.1 h
    obtain ⟨k, hk, hparts⟩ := contains_iff.1 (contains_gather.2 ⟨q, hq, rfl⟩)
    exact List.mem_map.2 ⟨k, hk, hparts.symm⟩

end PathSet

/-! ## Calls -/

/-- A call of the ledger. -/
inductive Call
  /-- A file is claimed. -/
  | claim (path : Path)
  /-- The descriptor of a file is set. -/
  | setDescriptor (path : Path) (d : Descriptor)
  /-- An importer of a file is noted. -/
  | addDependent (path importer : Path)

namespace Call

variable {c : Call} {p q : Path}

/-- The answer to a call, and the ledger after it. -/
def perform (l : Ledger) : Call → Bool × Ledger
  | claim path => l.claim path
  | setDescriptor path d => l.setDescriptor path d
  | addDependent path importer => l.addDependent path importer

/-- The file that a call is about, as the call spells it. -/
def path : Call → Path
  | claim path | setDescriptor path _ | addDependent path _ => path

/-- Whether a call enters a file that is not there yet. -/
def enters (p : Path) : Call → Bool
  | claim path | addDependent path _ => path.same p
  | setDescriptor .. => false

/-- The descriptor that a call sets for a file. -/
def descriptor? (p : Path) : Call → Option Descriptor
  | setDescriptor path d => if path.same p then some d else none
  | _ => none

/-- The importer of a file that a call notes. -/
def importer? (p : Path) : Call → Option Path
  | addDependent path importer => if path.same p then some importer else none
  | _ => none

theorem parts_path_of_enters (h : c.enters p = true) : c.path.parts = p.parts := by
  cases c with
  | setDescriptor => cases h
  | claim | addDependent => exact Path.same_iff.1 h

theorem descriptor?_of_enters (h : c.enters p = true) : c.descriptor? p = none := by
  cases c with
  | setDescriptor => cases h
  | claim | addDependent => rfl

theorem of_descriptor? {d : Descriptor} (h : c.descriptor? p = some d) :
    c.path.parts = p.parts ∧ c.enters p = false := by
  cases c with
  | setDescriptor path d' =>
    rw [descriptor?, Option.ite_none_right_eq_some] at h
    exact ⟨Path.same_iff.1 h.1, rfl⟩
  | claim | addDependent => cases h

theorem importer?_of_not_enters (h : c.enters p = false) : c.importer? p = none := by
  cases c with
  | addDependent => exact if_neg (ne_true_of_eq_false h)
  | claim | setDescriptor => rfl

theorem same_congr (h : p.parts = q.parts) (r : Path) : r.same p = r.same q := by
  rw [Path.same, Path.same, h]

theorem enters_congr (h : p.parts = q.parts) : enters p = enters q := by
  funext c
  cases c with
  | setDescriptor => rfl
  | claim | addDependent => exact same_congr h _

theorem descriptor?_congr (h : p.parts = q.parts) : descriptor? p = descriptor? q := by
  funext c
  cases c with
  | setDescriptor path d => rw [descriptor?, descriptor?, same_congr h]
  | claim | addDependent => rfl

theorem importer?_congr (h : p.parts = q.parts) : importer? p = importer? q := by
  funext c
  cases c with
  | addDependent path importer => rw [importer?, importer?, same_congr h]
  | claim | setDescriptor => rfl

end Call

/-- The calls that have been made of a ledger, in order. -/
abbrev History := List Call

namespace History

variable {h h' : History} {c : Call} {p q k : Path} {d : Descriptor}

/-- The ledger after these calls. -/
def ledger (h : History) : Ledger := h.foldl (fun l c ↦ (c.perform l).2) ∅

/-- Whether a file has been entered: it has been claimed, or an importer of it has been noted. -/
def entered (h : History) (p : Path) : Bool := h.any (·.enters p)

/-- How the call spells a file that has entered it. -/
def spelling? (h : History) (p : Path) : Option Path := (h.find? (·.enters p)).map (·.path)

/-- The calls from the one on that has entered a file. -/
def since (h : History) (p : Path) : History := h.dropWhile fun c ↦ !c.enters p

/-- The descriptors that are set for a file once it has been entered, in order. -/
def descriptors (h : History) (p : Path) : List Descriptor :=
  (h.since p).filterMap (·.descriptor? p)

/-- The importers of a file that have been noted, in order. -/
def importers (h : History) (p : Path) : List Path := h.filterMap (·.importer? p)

/-- What is known of a file that has been entered. -/
def entryOf (h : History) (p : Path) : LedgerEntry where
  descriptor := (h.descriptors p).head?
  dependents := .gather (h.importers p)

theorem entered_iff : h.entered p = true ↔ ∃ c ∈ h, c.enters p = true := List.any_eq_true

theorem entered_eq_false_iff : h.entered p = false ↔ ∀ c ∈ h, c.enters p = false := by
  simp [entered]

theorem ledger_concat : ledger (h ++ [c]) = (c.perform h.ledger).2 := List.foldl_concat ..

theorem entered_concat : entered (h ++ [c]) p = (h.entered p || c.enters p) := by
  simp [entered]

theorem since_concat : since (h ++ [c]) p =
    if h.entered p then h.since p ++ [c] else if c.enters p then [c] else [] := by
  rw [since, List.dropWhile_append]
  have hempty : (h.since p).isEmpty = !h.entered p := by
    rw [Bool.eq_iff_iff]
    simp [since, entered, List.dropWhile_eq_nil_iff]
  rw [← since, hempty]
  cases h.entered p with
  | true => rfl
  | false => cases hc : c.enters p <;> simp [hc]

theorem descriptors_concat : descriptors (h ++ [c]) p =
    if h.entered p then h.descriptors p ++ (c.descriptor? p).toList else [] := by
  rw [descriptors, since_concat]
  split
  · rw [List.filterMap_append, descriptors]
    cases hd : c.descriptor? p <;> simp [hd]
  · split
    · next hc => simp [Call.descriptor?_of_enters hc]
    · rfl

theorem importers_concat :
    importers (h ++ [c]) p = h.importers p ++ (c.importer? p).toList := by
  rw [importers, List.filterMap_append, importers]
  cases ho : c.importer? p <;> simp [ho]

theorem descriptors_of_not_entered (hp : h.entered p = false) : h.descriptors p = [] := by
  have hsince : h.since p = [] :=
    List.dropWhile_eq_nil_iff.2 fun c hc ↦ by rw [entered_eq_false_iff.1 hp c hc]; rfl
  rw [descriptors, hsince]
  rfl

theorem importers_of_not_entered (hp : h.entered p = false) : h.importers p = [] := by
  rw [importers, List.filterMap_eq_nil_iff]
  exact fun c hc ↦ Call.importer?_of_not_enters (entered_eq_false_iff.1 hp c hc)

theorem entered_congr (hpq : p.parts = q.parts) : h.entered p = h.entered q := by
  rw [entered, entered, Call.enters_congr hpq]

theorem spelling?_congr (hpq : p.parts = q.parts) : h.spelling? p = h.spelling? q := by
  rw [spelling?, spelling?, Call.enters_congr hpq]

theorem entryOf_congr (hpq : p.parts = q.parts) : h.entryOf p = h.entryOf q := by
  simp only [entryOf, descriptors, since, importers, Call.enters_congr hpq,
    Call.descriptor?_congr hpq, Call.importer?_congr hpq]

/-! ## What the ledger holds -/

theorem entered_of_spelling? (hk : h.spelling? p = some k) :
    h.entered p = true ∧ k.parts = p.parts := by
  obtain ⟨c, hc, rfl⟩ := Option.map_eq_some_iff.1 hk
  have henters := List.find?_some hc
  exact ⟨entered_iff.2 ⟨c, List.mem_of_find?_eq_some hc, henters⟩,
    Call.parts_path_of_enters henters⟩

theorem exists_spelling? (hp : h.entered p = true) :
    ∃ k, h.spelling? k = some k ∧ p.parts = k.parts := by
  have hsome : (h.spelling? p).isSome = true := by
    rwa [spelling?, Option.isSome_map, List.isSome_find?]
  obtain ⟨k, hk⟩ := Option.isSome_iff_exists.1 hsome
  have hparts := (entered_of_spelling? hk).2
  exact ⟨k, (spelling?_congr hparts).trans hk, hparts.symm⟩

theorem spelling?_concat_eq_some_iff : spelling? (h ++ [c]) p = some k ↔
    h.spelling? p = some k ∨ h.entered p = false ∧ c.enters p = true ∧ c.path = k := by
  rw [spelling?, List.find?_append, Option.map_or, ← spelling?, Option.or_eq_some_iff]
  refine or_congr_right (and_congr ?_ ?_)
  · rw [spelling?, Option.map_eq_none_iff, ← Option.not_isSome_iff_eq_none, List.isSome_find?,
      Bool.not_eq_true, entered]
  · cases hc : c.enters p <;> simp [hc]

/-- A call that enters no new file leaves the spellings alone. -/
theorem spelling?_concat_of_entered (hc : c.enters c.path = true → h.entered c.path = true) :
    spelling? (h ++ [c]) p = some k ↔ h.spelling? p = some k := by
  rw [spelling?_concat_eq_some_iff, or_iff_left]
  rintro ⟨hp, henters, -⟩
  have hparts := Call.parts_path_of_enters henters
  rw [Call.enters_congr hparts, entered_congr hparts, hp] at hc
  exact Bool.false_ne_true (hc henters)

theorem entryOf_of_not_entered (hp : h.entered p = false) :
    entryOf (h ++ [c]) p = ⟨none, .gather (c.importer? p).toList⟩ := by
  rw [entryOf, descriptors_concat, hp, importers_concat, importers_of_not_entered hp]
  rfl

theorem entryOf_concat (hp : h.entered p = true) : entryOf (h ++ [c]) p =
    ⟨(h.entryOf p).descriptor.or (c.descriptor? p),
      .gather (h.importers p ++ (c.importer? p).toList)⟩ := by
  rw [entryOf, descriptors_concat, if_pos hp, importers_concat, List.head?_append, entryOf]
  cases c.descriptor? p <;> rfl

theorem entryOf_concat_of_ne (hk : h.entered k = true) (hne : c.path.parts ≠ k.parts) :
    entryOf (h ++ [c]) k = h.entryOf k := by
  have hsame : c.path.same k = false := Bool.eq_false_iff.2 (mt Path.same_iff.1 hne)
  have hd : c.descriptor? k = none := by cases c <;> simp_all [Call.descriptor?, Call.path]
  have ho : c.importer? k = none := by cases c <;> simp_all [Call.importer?, Call.path]
  rw [entryOf_concat hk, hd, ho, Option.or_none, Option.toList_none, List.append_nil]
  rfl

theorem entryOf_claim (hk : h.entered k = true) : entryOf (h ++ [.claim p]) k = h.entryOf k := by
  rw [entryOf_concat hk]
  simp [Call.descriptor?, Call.importer?, entryOf]

theorem entryOf_setDescriptor (hk : h.entered k = true) : entryOf (h ++ [.setDescriptor p d]) k =
    if p.parts = k.parts then (h.entryOf k).describe d else h.entryOf k := by
  have hd : Call.descriptor? k (.setDescriptor p d) =
      if p.parts = k.parts then some d else none := by
    simp [Call.descriptor?, Path.same_iff]
  have ho : Call.importer? k (.setDescriptor p d) = none := rfl
  rw [entryOf_concat hk, hd, ho, Option.toList_none, List.append_nil]
  split
  · rw [Option.or_some]
    rfl
  · rw [Option.or_none]
    rfl

theorem entryOf_addDependent (hk : h.entered k = true) :
    entryOf (h ++ [.addDependent p q]) k =
      if p.parts = k.parts then (h.entryOf k).link q else h.entryOf k := by
  have hd : Call.descriptor? k (.addDependent p q) = none := rfl
  have ho : Call.importer? k (.addDependent p q) = if p.parts = k.parts then some q else none := by
    simp [Call.importer?, Path.same_iff]
  rw [entryOf_concat hk, hd, ho, Option.or_none]
  split
  · rw [Option.toList_some, PathSet.gather_concat]
    rfl
  · rw [Option.toList_none, List.append_nil]
    rfl

/-- The ledger holds what a history says. -/
def Told (h : History) (l : Ledger) : Prop :=
  ∀ k e, l.Has k e ↔ h.spelling? k = some k ∧ e = h.entryOf k

namespace Told

variable {l : Ledger}

theorem mem_keys_iff (hl : Told h l) : k ∈ l.keys ↔ h.spelling? k = some k := by
  simp [Ledger.mem_keys_iff, hl k]

theorem contains_eq (hl : Told h l) : l.contains p = h.entered p := by
  rw [Bool.eq_iff_iff, Ledger.contains_iff]
  simp only [hl.mem_keys_iff]
  constructor
  · rintro ⟨k, hk, hp⟩
    rw [entered_congr hp]
    exact (entered_of_spelling? hk).1
  · exact exists_spelling?

/-- A call changes the entries of the files that are there. -/
theorem kept {l' : Ledger} {f : Path → LedgerEntry → LedgerEntry} (hl : Told h l)
    (hc : c.enters c.path = true → h.entered c.path = true)
    (hhas : ∀ k e, l'.Has k e ↔ ∃ e', l.Has k e' ∧ e = f k e')
    (hf : ∀ k, h.entered k = true → entryOf (h ++ [c]) k = f k (h.entryOf k)) :
    Told (h ++ [c]) l' := by
  intro k e
  rw [hhas, spelling?_concat_of_entered hc]
  constructor
  · rintro ⟨e', he', rfl⟩
    obtain ⟨hk, rfl⟩ := (hl k e').1 he'
    exact ⟨hk, (hf k (entered_of_spelling? hk).1).symm⟩
  · rintro ⟨hk, rfl⟩
    exact ⟨h.entryOf k, (hl k _).2 ⟨hk, rfl⟩, hf k (entered_of_spelling? hk).1⟩

/-- A call enters a file that was not there. -/
theorem new {l' : Ledger} (hl : Told h l) (hc : c.enters c.path = true)
    (hnew : h.entered c.path = false)
    (hhas : ∀ k e, l'.Has k e ↔ (k = c.path ∧ e = entryOf (h ++ [c]) c.path) ∨ l.Has k e) :
    Told (h ++ [c]) l' := by
  intro k e
  rw [hhas, hl k e, spelling?_concat_eq_some_iff]
  constructor
  · rintro (⟨rfl, rfl⟩ | ⟨hk, rfl⟩)
    · exact ⟨.inr ⟨hnew, hc, rfl⟩, rfl⟩
    · obtain ⟨hentered, -⟩ := entered_of_spelling? hk
      refine ⟨.inl hk, (entryOf_concat_of_ne hentered fun hparts ↦ ?_).symm⟩
      rw [entered_congr hparts, hentered] at hnew
      cases hnew
  · rintro ⟨hk | ⟨-, -, rfl⟩, rfl⟩
    · obtain ⟨hentered, -⟩ := entered_of_spelling? hk
      refine .inr ⟨hk, entryOf_concat_of_ne hentered fun hparts ↦ ?_⟩
      rw [entered_congr hparts, hentered] at hnew
      cases hnew
    · exact .inl ⟨rfl, rfl⟩

/-- Every call keeps the ledger in line with the history. -/
theorem perform (hl : Told h l) (c : Call) : Told (h ++ [c]) (c.perform l).2 := by
  cases c with
  | claim p =>
    cases hp : h.entered p with
    | true =>
      refine hl.kept (fun _ ↦ hp) (f := fun _ e ↦ e) (fun k e ↦ ?_) fun k hk ↦ entryOf_claim hk
      rw [Call.perform, Ledger.claim_of_contains (hl.contains_eq.trans hp)]
      simp
    | false =>
      refine hl.new (Path.same_iff.2 rfl) hp fun k e ↦ ?_
      have hentry : entryOf (h ++ [.claim p]) p = Ledger.blank := entryOf_of_not_entered hp
      rw [Call.path, hentry]
      exact Ledger.has_claim (hl.contains_eq.trans hp)
  | setDescriptor p d =>
    exact hl.kept (fun hc ↦ absurd hc Bool.false_ne_true) (fun k e ↦ Ledger.has_setDescriptor)
      fun k hk ↦ entryOf_setDescriptor hk
  | addDependent p q =>
    cases hp : h.entered p with
    | true =>
      exact hl.kept (fun _ ↦ hp) (fun k e ↦ Ledger.has_addDependent (hl.contains_eq.trans hp))
        fun k hk ↦ entryOf_addDependent hk
    | false =>
      refine hl.new (Path.same_iff.2 rfl) hp fun k e ↦ ?_
      have hentry : entryOf (h ++ [.addDependent p q]) p = Ledger.blank.link q := by
        rw [entryOf_of_not_entered hp, Call.importer?, if_pos (Path.same_iff.2 rfl)]
        rfl
      rw [Call.path, hentry]
      exact Ledger.has_addDependent_of_not_contains (hl.contains_eq.trans hp)

end Told

/-- What the ledger holds is what its history says. -/
theorem told_ledger (h : History) : Told h h.ledger := by
  induction h using List.reverseRecOn with
  | nil => exact fun k e ↦ ⟨fun he ↦ absurd he Ledger.not_has_empty, fun he ↦ by cases he.1⟩
  | append_singleton h c ih =>
    rw [ledger_concat]
    exact ih.perform c

theorem contains_ledger : h.ledger.contains p = h.entered p := (told_ledger h).contains_eq

theorem mem_keys_ledger : k ∈ h.ledger.keys ↔ h.spelling? k = some k := (told_ledger h).mem_keys_iff

theorem get?_ledger :
    h.ledger.entries.get? p = if h.entered p then some (h.entryOf p) else none := by
  split
  · next hp =>
    obtain ⟨k, hk, hparts⟩ := exists_spelling? hp
    exact Ledger.get?_eq_some_iff.2 ⟨k, (told_ledger h k _).2 ⟨hk, entryOf_congr hparts⟩, hparts⟩
  · next hp =>
    rw [← contains_ledger, Bool.not_eq_true] at hp
    exact SortedMap.get?_of_not_contains hp

theorem entries_ledger :
    h.ledger.entries.entries = h.ledger.keys.map fun k ↦ (k, h.entryOf k) := by
  rw [Ledger.keys, SortedMap.keys, List.map_map]
  refine (List.map_id _).symm.trans (List.map_congr_left fun x hx ↦ ?_)
  exact Prod.ext rfl ((told_ledger h x.1 x.2).1 hx).2

/-! ## What is answered -/

theorem claim_fst : (h.ledger.claim p).1 = !h.entered p := by
  rw [Ledger.claim_fst, contains_ledger]

theorem setDescriptor_fst : (h.ledger.setDescriptor p d).1 = true ↔
    h.entered p = true ∧ h.descriptors p = [] := by
  rw [Ledger.setDescriptor, get?_ledger]
  cases hp : h.entered p with
  | false => simp
  | true =>
    cases hd : h.descriptors p <;> simp [entryOf, hd]

theorem addDependent_fst : (h.ledger.addDependent p q).1 = true ↔
    ∀ o ∈ h.importers p, o.parts ≠ q.parts := by
  have hentry : (h.ledger.entries.get? p).getD Ledger.blank =
      ⟨(h.descriptors p).head?, .gather (h.importers p)⟩ := by
    rw [get?_ledger]
    cases hp : h.entered p with
    | true => rfl
    | false => rw [descriptors_of_not_entered hp, importers_of_not_entered hp]; rfl
  rw [Ledger.addDependent, hentry, Bool.not_eq_true', Bool.eq_false_iff, Ne,
    PathSet.contains_gather]
  simp [eq_comm]

/-! ## Calls in another order -/

/-- Each call, with whether the file that it is about is there once the call has been made. -/
def staged (h : History) : List (Call × Bool) :=
  h.mapIdx fun i c ↦ (c, entered (h.take (i + 1)) c.path)

/-- The same calls in another order.  No call is moved across the one that enters its file, and the
descriptors of one file are set in the same order. -/
structure Reorders (h h' : History) : Prop where
  staged : h.staged.Perm h'.staged
  descriptors : ∀ p, h.filterMap (·.descriptor? p) = h'.filterMap (·.descriptor? p)

theorem staged_concat :
    staged (h ++ [c]) = h.staged ++ [(c, entered (h ++ [c]) c.path)] := by
  rw [staged, List.mapIdx_concat, List.take_of_length_le (by simp)]
  congr 1
  refine List.mapIdx_eq_mapIdx_iff.2 fun i hi ↦ ?_
  rw [List.take_append_of_le_length hi]

theorem map_fst_staged : h.staged.map Prod.fst = h := by
  induction h using List.reverseRecOn with
  | nil => rfl
  | append_singleton h c ih => rw [staged_concat, List.map_append, ih]; rfl

/-- The descriptors that are set once a file is there can be told by the calls and their stages. -/
theorem descriptors_eq : h.descriptors p =
    h.staged.filterMap fun (c, there) ↦ if there then c.descriptor? p else none := by
  induction h using List.reverseRecOn with
  | nil => rfl
  | append_singleton h c ih =>
    rw [staged_concat, List.filterMap_append, ← ih, descriptors_concat]
    cases hd : c.descriptor? p with
    | none =>
      cases hp : entered h p with
      | true => simp [hd]
      | false => simp [hd, descriptors_of_not_entered hp]
    | some d =>
      obtain ⟨hparts, henters⟩ := Call.of_descriptor? hd
      have hstage : entered (h ++ [c]) c.path = entered h p := by
        rw [entered_congr hparts, entered_concat, henters, Bool.or_false]
      cases hp : entered h p with
      | true => simp [hd, hstage, hp]
      | false => simp [hstage, hp, descriptors_of_not_entered hp]

namespace Reorders

theorem perm (hr : Reorders h h') : h.Perm h' := by
  rw [← map_fst_staged (h := h), ← map_fst_staged (h := h')]
  exact hr.staged.map _

theorem entered_eq (hr : Reorders h h') : h.entered p = h'.entered p := hr.perm.any_eq

/-- Both lists are at the end of all descriptors that are set for the file, and equally long. -/
theorem descriptors_eq (hr : Reorders h h') : h.descriptors p = h'.descriptors p := by
  have hlength : (h.descriptors p).length = (h'.descriptors p).length := by
    rw [History.descriptors_eq, History.descriptors_eq]
    exact (hr.staged.filterMap _).length_eq
  have hsuffix (g : History) : g.descriptors p <:+ g.filterMap (·.descriptor? p) :=
    (List.dropWhile_suffix _).filterMap _
  have hsuffix' := hsuffix h'
  rw [← hr.descriptors p] at hsuffix'
  exact (List.suffix_of_suffix_length_le (hsuffix h) hsuffix' hlength.le).eq_of_length hlength

end Reorders

end History

/-- Lists of paths in order that hold the same paths differ in nothing but the spelling. -/
theorem map_parts_eq {ps qs : List Path} (hps : ps.Pairwise fun a b ↦ a.compare b = .lt)
    (hqs : qs.Pairwise fun a b ↦ a.compare b = .lt)
    (h : ∀ parts, parts ∈ ps.map Path.parts ↔ parts ∈ qs.map Path.parts) :
    ps.map Path.parts = qs.map Path.parts := by
  have hsorted {rs : List Path} (hrs : rs.Pairwise fun a b ↦ a.compare b = .lt) :
      (rs.map Path.parts).Pairwise fun a b ↦ compare a b = .lt := List.pairwise_map.2 hrs
  exact (hsorted hps).eq_of_mem_iff (hsorted hqs) h

/-- Two snapshots are the same up to the spelling of paths. -/
structure Snapshot.Same (s t : Snapshot) : Prop where
  root : s.root = t.root
  entry : s.entry = t.entry
  nodes : List.Forall₂ (fun (k, node) (k', node') ↦ k.parts = k'.parts ∧
    node.descriptor = node'.descriptor ∧
      node.dependents.map Path.parts = node'.dependents.map Path.parts)
    s.nodes.entries t.nodes.entries

namespace History

variable {h h' : History} {a b c : Call} {p q k : Path} {root entry : Path} {node : GraphNode}

theorem mem_map_parts_keys {parts : List Part} :
    parts ∈ h.ledger.keys.map Path.parts ↔ ∃ p, h.entered p = true ∧ p.parts = parts := by
  simp only [List.mem_map, mem_keys_ledger]
  constructor
  · rintro ⟨k, hk, rfl⟩
    exact ⟨k, (entered_of_spelling? hk).1, rfl⟩
  · rintro ⟨p, hp, rfl⟩
    obtain ⟨k, hk, hparts⟩ := exists_spelling? hp
    exact ⟨k, hk, hparts.symm⟩

namespace Reorders

theorem keys_eq (hr : Reorders h h') :
    h.ledger.keys.map Path.parts = h'.ledger.keys.map Path.parts := by
  refine map_parts_eq (SortedMap.pairwise_keys _) (SortedMap.pairwise_keys _) fun parts ↦ ?_
  simp only [mem_map_parts_keys, hr.entered_eq]

theorem dependents_eq (hr : Reorders h h') :
    (h.entryOf p).dependents.toList.map Path.parts =
      (h'.entryOf p).dependents.toList.map Path.parts := by
  have hperm : (h.importers p).Perm (h'.importers p) := hr.perm.filterMap _
  refine map_parts_eq (SortedMap.pairwise_keys _) (SortedMap.pairwise_keys _) fun parts ↦ ?_
  rw [entryOf, entryOf, PathSet.mem_map_parts_gather, PathSet.mem_map_parts_gather]
  exact (hperm.map _).mem_iff

/-- In another order, the calls lead to the same snapshot. -/
theorem same (hr : Reorders h h') (root entry : Path) :
    (h.ledger.snapshot root entry).Same (h'.ledger.snapshot root entry) where
  root := rfl
  entry := rfl
  nodes := by
    have hkeys := hr.keys_eq
    rw [← List.forall₂_eq_eq_eq, List.forall₂_map_left_iff, List.forall₂_map_right_iff] at hkeys
    rw [Ledger.entries_snapshot, Ledger.entries_snapshot, entries_ledger, entries_ledger,
      List.map_map, List.map_map, List.forall₂_map_left_iff, List.forall₂_map_right_iff]
    refine hkeys.imp fun k k' hk ↦ ⟨hk, ?_, ?_⟩
    · show (h.entryOf k).descriptor.getD ∅ = (h'.entryOf k').descriptor.getD ∅
      rw [← entryOf_congr hk, entryOf, entryOf, hr.descriptors_eq]
    · show (h.entryOf k).dependents.toList.map Path.parts =
        (h'.entryOf k').dependents.toList.map Path.parts
      rw [← entryOf_congr hk]
      exact hr.dependents_eq

/-- One more call may follow. -/
theorem concat (hr : Reorders h h') : Reorders (h ++ [c]) (h' ++ [c]) := by
  constructor
  · rw [staged_concat, staged_concat, entered_concat, entered_concat, hr.entered_eq]
    exact hr.staged.append_right _
  · intro p
    rw [List.filterMap_append, List.filterMap_append, hr.descriptors p]

end Reorders

/-- Whether the file of a call is there does not depend on a call right before it about another
file, nor on any call if this one enters the file itself. -/
theorem entered_swap (hab : a.path.parts = b.path.parts → a.enters a.path = true) :
    entered (h ++ [b] ++ [a]) a.path = entered (h ++ [a]) a.path := by
  simp only [entered_concat]
  cases hb : b.enters a.path with
  | false => rw [Bool.or_false]
  | true => rw [hab (Call.parts_path_of_enters hb).symm, Bool.or_true, Bool.or_true]

/-- Neighbouring calls may change places if they are about different files, or if both enter their
file. -/
theorem reorders_swap (h g : History) (ha : a.path.parts = b.path.parts → a.enters a.path = true)
    (hb : a.path.parts = b.path.parts → b.enters b.path = true) :
    Reorders (h ++ [a] ++ [b] ++ g) (h ++ [b] ++ [a] ++ g) := by
  induction g using List.reverseRecOn with
  | append_singleton g c ih =>
    rw [← List.append_assoc, ← List.append_assoc]
    exact ih.concat
  | nil =>
    rw [List.append_nil, List.append_nil]
    constructor
    · rw [staged_concat, staged_concat, staged_concat, staged_concat, entered_swap ha,
        entered_swap fun hparts ↦ hb hparts.symm, List.append_assoc, List.append_assoc]
      exact (List.Perm.swap ..).append_left _
    · intro p
      cases hda : a.descriptor? p with
      | none => simp [List.filterMap_cons, hda]
      | some d =>
        cases hdb : b.descriptor? p with
        | none => simp [List.filterMap_cons, hdb]
        | some d' =>
          obtain ⟨haparts, henters⟩ := Call.of_descriptor? hda
          have hparts := haparts.trans (Call.of_descriptor? hdb).1.symm
          rw [← Call.enters_congr haparts, ha hparts] at henters
          cases henters

/-! ## All that is to be said of a history -/

/-- What a node shows of the calls that have been made. -/
structure ShownIn (h : History) (p : Path) (node : GraphNode) : Prop where
  /-- The descriptor is the first one that was set since the file was entered, or empty. -/
  descriptor : node.descriptor = (h.descriptors p).head?.getD ∅
  /-- The dependents are in order, and none is listed twice. -/
  sorted : node.dependents.Pairwise fun a b ↦ a.compare b = .lt
  /-- The dependents have been noted. -/
  noted : ∀ o ∈ node.dependents, o ∈ h.importers p
  /-- The importers that have been noted are listed. -/
  listed : ∀ o ∈ h.importers p, ∃ o' ∈ node.dependents, o.parts = o'.parts

/-- What the ledger answers after these calls, and what its snapshot shows of them. -/
structure Recounts (h : History) : Prop where
  /-- A claim is the first one to enter the file, or is told that it is not. -/
  claim : ∀ p, (h.ledger.claim p).1 = true ↔ ∀ c ∈ h, c.enters p = false
  /-- A descriptor is set just if it is the first one since the file was entered. -/
  setDescriptor : ∀ p d, (h.ledger.setDescriptor p d).1 = true ↔
    (∃ c ∈ h, c.enters p = true) ∧ ∀ c ∈ h.since p, c.descriptor? p = none
  /-- An importer is new just if it has not been noted for the file. -/
  addDependent : ∀ p importer, (h.ledger.addDependent p importer).1 = true ↔
    ∀ o ∈ h.importers p, o.parts ≠ importer.parts
  /-- The files are those that have been entered. -/
  contains : ∀ root entry p, (h.ledger.snapshot root entry).contains p = true ↔
    ∃ c ∈ h, c.enters p = true
  /-- A file is spelled as in the call that has entered it. -/
  spelling : ∀ root entry k, k ∈ (h.ledger.snapshot root entry).nodes.keys ↔ h.spelling? k = some k
  /-- The files are in order, and none is listed twice. -/
  sorted : ∀ root entry,
    (h.ledger.snapshot root entry).nodes.keys.Pairwise fun a b ↦ a.compare b = .lt
  /-- Each node shows what has been set and noted for its file. -/
  node : ∀ root entry p node, (h.ledger.snapshot root entry).get? p = some node → h.ShownIn p node
  /-- In another order, the calls lead to the same snapshot. -/
  reorder : ∀ h', Reorders h h' → ∀ root entry,
    (h.ledger.snapshot root entry).Same (h'.ledger.snapshot root entry)

theorem shownIn_of_get? (hnode : (h.ledger.snapshot root entry).get? p = some node) :
    h.ShownIn p node := by
  obtain ⟨k, e, he, hp, rfl⟩ := Ledger.get?_snapshot_eq_some_iff.1 hnode
  obtain ⟨-, rfl⟩ := (told_ledger h k e).1 he
  rw [← entryOf_congr hp]
  refine ⟨rfl, SortedMap.pairwise_keys _, fun o ho ↦ PathSet.mem_of_mem_gather ho, fun o ho ↦ ?_⟩
  exact PathSet.contains_iff.1 (PathSet.contains_gather.2 ⟨o, ho, rfl⟩)

/-- The ledger is the history of its calls. -/
theorem recounts (h : History) : Recounts h where
  claim p := by rw [claim_fst, Bool.not_eq_true', entered_eq_false_iff]
  setDescriptor p d := by
    rw [setDescriptor_fst, entered_iff, descriptors, List.filterMap_eq_nil_iff]
  addDependent p importer := addDependent_fst
  contains root entry p := by rw [Ledger.contains_snapshot, contains_ledger, entered_iff]
  spelling root entry k := by rw [Ledger.keys_snapshot, mem_keys_ledger]
  sorted root entry := SortedMap.pairwise_keys _
  node root entry p node hnode := shownIn_of_get? hnode
  reorder h' hr root entry := hr.same root entry

end History
end ImpactGraph
