import ImpactGraph.Graph.Ledger
import ImpactGraph.Proofs.Graph.Snapshot

/-!
# What the ledger holds

`Ledger.Has l k e` says that the ledger keeps the file `k`, in that very spelling, with the entry
`e`.  Each operation is described by what it makes of these, and `Extends` is what all of them keep:
files stay, descriptors that are set stay, and importers stay.

Look-ups go by the parts of a path, so a file may be asked for under another spelling than the one
it is kept under.
-/

set_option autoImplicit false

namespace ImpactGraph

open Std

namespace LedgerEntry

variable {e e' e'' : LedgerEntry} {d : Descriptor} {importer : Path}

/-- An entry after its descriptor has been set, unless there was one. -/
def describe (e : LedgerEntry) (d : Descriptor) : LedgerEntry :=
  { e with descriptor := some (e.descriptor.getD d) }

/-- An entry after an importer has been noted. -/
def link (e : LedgerEntry) (importer : Path) : LedgerEntry :=
  { e with dependents := e.dependents.add importer }

/-- The descriptor and the importers of one entry are in the other one. -/
structure Extends (e e' : LedgerEntry) : Prop where
  descriptor : ∀ d, e.descriptor = some d → e'.descriptor = some d
  dependents : ∀ o ∈ e.dependents.toList, o ∈ e'.dependents.toList

theorem Extends.refl (e : LedgerEntry) : e.Extends e := ⟨fun _ h ↦ h, fun _ h ↦ h⟩

theorem Extends.trans (h : e.Extends e') (h' : e'.Extends e'') : e.Extends e'' :=
  ⟨fun d hd ↦ h'.descriptor d (h.descriptor d hd),
    fun o ho ↦ h'.dependents o (h.dependents o ho)⟩

theorem extends_describe : e.Extends (e.describe d) :=
  ⟨fun _ hd ↦ by simp [describe, hd], fun _ h ↦ h⟩

theorem extends_link : e.Extends (e.link importer) :=
  ⟨fun _ hd ↦ hd, fun _ h ↦ PathSet.mem_add.2 (.inl h)⟩

theorem describe_of_eq_some {d' : Descriptor} (h : e.descriptor = some d') :
    e.describe d = e := by
  cases e
  simp_all [describe]

end LedgerEntry

namespace Ledger

variable {l l' : Ledger} {k p importer : Path} {e : LedgerEntry} {d : Descriptor}

/-- The ledger keeps a file, in this spelling, with this entry. -/
def Has (l : Ledger) (k : Path) (e : LedgerEntry) : Prop := (k, e) ∈ l.entries.entries

/-- The spellings of the files that the ledger keeps. -/
def keys (l : Ledger) : List Path := l.entries.keys

theorem mem_keys_iff : k ∈ l.keys ↔ ∃ e, l.Has k e := by
  simp [keys, SortedMap.keys, Has]

theorem Has.mem_keys (h : l.Has k e) : k ∈ l.keys := mem_keys_iff.2 ⟨e, h⟩

theorem not_has_empty : ¬(∅ : Ledger).Has k e := List.not_mem_nil

theorem contains_iff : l.contains p = true ↔ ∃ k ∈ l.keys, p.parts = k.parts := by
  rw [contains, SortedMap.contains_iff_mem_keys]
  simp only [keys, Path.compare_eq_iff]

theorem contains_of_mem_keys (h : k ∈ l.keys) (hp : p.parts = k.parts) : l.contains p = true :=
  contains_iff.2 ⟨k, h, hp⟩

theorem contains_congr {q : Path} (h : p.parts = q.parts) : l.contains p = l.contains q := by
  rw [Bool.eq_iff_iff, contains_iff, contains_iff, h]

theorem get?_eq_some_iff : l.entries.get? p = some e ↔ ∃ k, l.Has k e ∧ p.parts = k.parts := by
  rw [SortedMap.get?_eq_some_iff]
  simp only [Has, Path.compare_eq_iff]

/-- A file is kept in one spelling. -/
theorem Has.eq_of_parts_eq {k' : Path} {e' : LedgerEntry} (h : l.Has k e) (h' : l.Has k' e')
    (hk : k.parts = k'.parts) : k = k' ∧ e = e' := by
  have hfind := SortedMap.find?_eq_some_iff.2 ⟨h, Path.compare_eq_iff.2 (rfl : k.parts = k.parts)⟩
  have hfind' := SortedMap.find?_eq_some_iff.2 ⟨h', Path.compare_eq_iff.2 hk⟩
  rw [hfind, Option.some_inj, Prod.mk.injEq] at hfind'
  exact hfind'

/-! ## What the operations make of an entry -/

theorem has_claim (h : l.contains p = false) :
    (l.claim p).2.Has k e ↔ (k = p ∧ e = blank) ∨ l.Has k e := by
  rw [claim, if_neg (by simp [h]), Has, SortedMap.mem_entries_insert_of_not_contains h]
  simp [Has]

theorem claim_fst : (l.claim p).1 = !l.contains p := by
  rw [claim]
  cases l.contains p <;> rfl

theorem claim_of_contains (h : l.contains p = true) : (l.claim p).2 = l := by
  rw [claim, if_pos h]

theorem has_setDescriptor :
    (l.setDescriptor p d).2.Has k e ↔
      ∃ e', l.Has k e' ∧ e = if p.parts = k.parts then e'.describe d else e' := by
  rw [setDescriptor]
  cases hget : l.entries.get? p with
  | none =>
    constructor
    · intro h
      refine ⟨e, h, (if_neg fun hp ↦ ?_).symm⟩
      rw [get?_eq_some_iff.2 ⟨k, h, hp⟩] at hget
      cases hget
    · rintro ⟨e', h, rfl⟩
      rwa [if_neg fun hp ↦ ?_]
      rw [get?_eq_some_iff.2 ⟨k, h, hp⟩] at hget
      cases hget
  | some e₀ =>
    simp only
    cases hd : e₀.descriptor with
    | none =>
      have hdescribe : ({ e₀ with descriptor := some d } : LedgerEntry) = e₀.describe d := by
        simp [LedgerEntry.describe, hd]
      simp only [Option.isNone_none, if_true, hdescribe, Has,
        SortedMap.mem_entries_insert_of_get? (f := (LedgerEntry.describe · d)) hget,
        Path.compare_eq_iff]
    | some d₀ =>
      simp only [Option.isNone_some, Bool.false_eq_true, if_false]
      -- the entry stays, and so does what `describe` makes of it
      have hsame : ∀ {e' : LedgerEntry}, l.Has k e' →
          (if p.parts = k.parts then e'.describe d else e') = e' := by
        intro e' h
        split
        · next hp =>
          rw [get?_eq_some_iff.2 ⟨k, h, hp⟩, Option.some_inj] at hget
          subst hget
          exact LedgerEntry.describe_of_eq_some hd
        · rfl
      constructor
      · intro h
        exact ⟨e, h, (hsame h).symm⟩
      · rintro ⟨e', h, rfl⟩
        rwa [hsame h]

theorem has_addDependent (h : l.contains p = true) :
    (l.addDependent p importer).2.Has k e ↔
      ∃ e', l.Has k e' ∧ e = if p.parts = k.parts then e'.link importer else e' := by
  obtain ⟨k₀, hk₀, hp⟩ := contains_iff.1 h
  obtain ⟨e₀, he₀⟩ := mem_keys_iff.1 hk₀
  have hget := get?_eq_some_iff.2 ⟨k₀, he₀, hp⟩
  have hmem : (k, e) ∈ (l.entries.insert p (e₀.link importer)).entries ↔ _ :=
    SortedMap.mem_entries_insert_of_get? (f := (LedgerEntry.link · importer)) hget
  simp only [Path.compare_eq_iff] at hmem
  simp only [addDependent, hget, Option.getD_some]
  exact hmem

theorem has_addDependent_of_not_contains (h : l.contains p = false) :
    (l.addDependent p importer).2.Has k e ↔ (k = p ∧ e = blank.link importer) ∨ l.Has k e := by
  simp only [addDependent, SortedMap.get?_of_not_contains h, Option.getD_none]
  rw [Has, SortedMap.mem_entries_insert_of_not_contains h]
  simp [Has, LedgerEntry.link]

theorem mem_keys_claim (h : l.contains p = false) :
    k ∈ (l.claim p).2.keys ↔ k = p ∨ k ∈ l.keys := by
  simp only [mem_keys_iff, has_claim h]
  constructor
  · rintro ⟨e, ⟨rfl, rfl⟩ | he⟩
    · exact .inl rfl
    · exact .inr ⟨e, he⟩
  · rintro (rfl | ⟨e, he⟩)
    · exact ⟨blank, .inl ⟨rfl, rfl⟩⟩
    · exact ⟨e, .inr he⟩

@[simp] theorem mem_keys_setDescriptor : k ∈ (l.setDescriptor p d).2.keys ↔ k ∈ l.keys := by
  simp only [mem_keys_iff, has_setDescriptor]
  exact ⟨fun ⟨_, e', h, _⟩ ↦ ⟨e', h⟩, fun ⟨e', h⟩ ↦ ⟨_, e', h, rfl⟩⟩

theorem mem_keys_addDependent (h : l.contains p = true) :
    k ∈ (l.addDependent p importer).2.keys ↔ k ∈ l.keys := by
  simp only [mem_keys_iff, has_addDependent h]
  exact ⟨fun ⟨_, e', h, _⟩ ↦ ⟨e', h⟩, fun ⟨e', h⟩ ↦ ⟨_, e', h, rfl⟩⟩

/-! ## What all operations keep -/

/-- All that one ledger holds is in the other one. -/
def Extends (l l' : Ledger) : Prop := ∀ k e, l.Has k e → ∃ e', l'.Has k e' ∧ e.Extends e'

theorem Extends.refl (l : Ledger) : l.Extends l := fun _ e h ↦ ⟨e, h, .refl e⟩

theorem Extends.trans {l'' : Ledger} (h : l.Extends l') (h' : l'.Extends l'') : l.Extends l'' := by
  intro k e he
  obtain ⟨e', he', hee'⟩ := h k e he
  obtain ⟨e'', he'', hee''⟩ := h' k e' he'
  exact ⟨e'', he'', hee'.trans hee''⟩

theorem Extends.mem_keys (h : l.Extends l') (hk : k ∈ l.keys) : k ∈ l'.keys := by
  obtain ⟨e, he⟩ := mem_keys_iff.1 hk
  obtain ⟨e', he', -⟩ := h k e he
  exact he'.mem_keys

theorem Extends.contains (h : l.Extends l') (hp : l.contains p = true) : l'.contains p = true := by
  obtain ⟨k, hk, hp⟩ := contains_iff.1 hp
  exact contains_of_mem_keys (h.mem_keys hk) hp

theorem extends_claim : l.Extends (l.claim p).2 := by
  cases hp : l.contains p with
  | true => rw [claim_of_contains hp]; exact .refl l
  | false => exact fun k e h ↦ ⟨e, (has_claim hp).2 (.inr h), .refl e⟩

theorem extends_setDescriptor : l.Extends (l.setDescriptor p d).2 := by
  intro k e h
  refine ⟨_, has_setDescriptor.2 ⟨e, h, rfl⟩, ?_⟩
  split
  · exact LedgerEntry.extends_describe
  · exact .refl e

theorem extends_addDependent : l.Extends (l.addDependent p importer).2 := by
  intro k e h
  cases hp : l.contains p with
  | true =>
    refine ⟨_, (has_addDependent hp).2 ⟨e, h, rfl⟩, ?_⟩
    split
    · exact LedgerEntry.extends_link
    · exact .refl e
  | false => exact ⟨e, (has_addDependent_of_not_contains hp).2 (.inr h), .refl e⟩

/-! ## Files that one task answers for

A task that has claimed a file answers for it until it has set its descriptor, or has reported why
it cannot.  No two answer for one file, since a file is claimed once. -/

/-- These are files of the ledger, each listed once. -/
structure Lists (l : Ledger) (ps : List Path) : Prop where
  contains : ∀ p ∈ ps, l.contains p = true
  nodup : (ps.map Path.parts).Nodup

variable {ps qs : List Path}

theorem lists_nil (l : Ledger) : l.Lists [] := ⟨by simp, List.nodup_nil⟩

theorem Lists.mono (h : l.Lists ps) (hl : l.Extends l') : l'.Lists ps :=
  ⟨fun p hp ↦ hl.contains (h.contains p hp), h.nodup⟩

theorem Lists.sublist (h : l.Lists ps) (hs : qs.Sublist ps) : l.Lists qs :=
  ⟨fun p hp ↦ h.contains p (hs.subset hp), h.nodup.sublist (hs.map _)⟩

theorem Lists.perm (h : l.Lists ps) (hs : ps.Perm qs) : l.Lists qs :=
  ⟨fun p hp ↦ h.contains p (hs.mem_iff.2 hp), (hs.map _).nodup h.nodup⟩

theorem contains_claim : (l.claim p).2.contains p = true := by
  cases hp : l.contains p with
  | true => rw [claim_of_contains hp, hp]
  | false => exact contains_of_mem_keys ((mem_keys_claim hp).2 (.inl rfl)) rfl

/-- A file that is new can be added to the list. -/
theorem Lists.claim (h : l.Lists ps) (hp : l.contains p = false) :
    (l.claim p).2.Lists (p :: ps) := by
  refine ⟨List.forall_mem_cons.2 ⟨contains_claim, (h.mono extends_claim).contains⟩, ?_⟩
  rw [List.map_cons, List.nodup_cons]
  refine ⟨fun hmem ↦ ?_, h.nodup⟩
  obtain ⟨q, hq, hparts⟩ := List.mem_map.1 hmem
  obtain ⟨k, hk, hkq⟩ := contains_iff.1 (h.contains q hq)
  rw [contains_of_mem_keys hk (hparts.symm.trans hkq)] at hp
  cases hp

/-- The file has no descriptor. -/
def Unset (l : Ledger) (p : Path) : Prop :=
  ∀ k e, l.Has k e → p.parts = k.parts → e.descriptor = none

theorem unset_claim {q : Path} (h : l.Unset q ∨ p = q) (hp : l.contains p = false) :
    (l.claim p).2.Unset q := by
  intro k e he hq
  rcases (has_claim hp).1 he with ⟨rfl, rfl⟩ | he
  · rfl
  · rcases h with h | rfl
    · exact h k e he hq
    · rw [contains_of_mem_keys he.mem_keys hq] at hp
      cases hp

theorem Unset.setDescriptor {q : Path} (h : l.Unset q) (hne : p.parts ≠ q.parts) :
    (l.setDescriptor p d).2.Unset q := by
  intro k e he hq
  obtain ⟨e', he', rfl⟩ := has_setDescriptor.1 he
  rw [if_neg (hq ▸ hne)]
  exact h k e' he' hq

theorem Unset.addDependent {q : Path} (h : l.Unset q) : (l.addDependent p importer).2.Unset q := by
  intro k e he hq
  cases hp : l.contains p with
  | true =>
    obtain ⟨e', he', rfl⟩ := (has_addDependent hp).1 he
    split <;> exact h k e' he' hq
  | false =>
    rcases (has_addDependent_of_not_contains hp).1 he with ⟨rfl, rfl⟩ | he
    · rfl
    · exact h k e he hq

/-- A descriptor that is set where there was none is the one that is kept. -/
theorem Unset.exists_setDescriptor (h : l.Unset p) (hp : l.contains p = true) :
    ∃ k e, (l.setDescriptor p d).2.Has k e ∧ p.parts = k.parts ∧ e.descriptor = some d := by
  obtain ⟨k, hk, hparts⟩ := contains_iff.1 hp
  obtain ⟨e, he⟩ := mem_keys_iff.1 hk
  refine ⟨k, e.describe d, has_setDescriptor.2 ⟨e, he, (if_pos hparts).symm⟩, hparts, ?_⟩
  rw [LedgerEntry.describe, h k e he hparts]
  rfl

theorem exists_addDependent : ∃ k e, (l.addDependent p importer).2.Has k e ∧
    p.parts = k.parts ∧ e.dependents.contains importer = true := by
  cases hp : l.contains p with
  | true =>
    obtain ⟨k, hk, hparts⟩ := contains_iff.1 hp
    obtain ⟨e, he⟩ := mem_keys_iff.1 hk
    exact ⟨k, e.link importer, (has_addDependent hp).2 ⟨e, he, (if_pos hparts).symm⟩, hparts,
      PathSet.contains_add_self⟩
  | false =>
    exact ⟨p, _, (has_addDependent_of_not_contains hp).2 (.inl ⟨rfl, rfl⟩), rfl,
      PathSet.contains_add_self⟩

/-- These are files of the ledger that have no descriptor yet, each listed once. -/
structure Awaits (l : Ledger) (ps : List Path) : Prop extends l.Lists ps where
  unset : ∀ p ∈ ps, l.Unset p

theorem awaits_nil (l : Ledger) : l.Awaits [] := ⟨lists_nil l, by simp⟩

theorem Awaits.perm (h : l.Awaits ps) (hs : ps.Perm qs) : l.Awaits qs :=
  ⟨h.toLists.perm hs, fun p hp ↦ h.unset p (hs.mem_iff.2 hp)⟩

theorem Awaits.sublist (h : l.Awaits ps) (hs : qs.Sublist ps) : l.Awaits qs :=
  ⟨h.toLists.sublist hs, fun p hp ↦ h.unset p (hs.subset hp)⟩

theorem Awaits.claim (h : l.Awaits ps) (hp : l.contains p = false) :
    (l.claim p).2.Awaits (p :: ps) :=
  ⟨h.toLists.claim hp, List.forall_mem_cons.2
    ⟨unset_claim (.inr rfl) hp, fun q hq ↦ unset_claim (.inl (h.unset q hq)) hp⟩⟩

theorem Awaits.setDescriptor (h : l.Awaits (p :: ps)) : (l.setDescriptor p d).2.Awaits ps := by
  refine ⟨(h.toLists.mono extends_setDescriptor).sublist (List.sublist_cons_self p ps),
    fun q hq ↦ (h.unset q (List.mem_cons_of_mem p hq)).setDescriptor fun heq ↦ ?_⟩
  have hnodup := h.nodup
  rw [List.map_cons, List.nodup_cons] at hnodup
  exact hnodup.1 (heq ▸ List.mem_map_of_mem hq)

theorem Awaits.addDependent (h : l.Awaits ps) : (l.addDependent p importer).2.Awaits ps :=
  ⟨h.toLists.mono extends_addDependent, fun q hq ↦ (h.unset q hq).addDependent⟩

/-! ## The graph of a ledger -/

theorem entries_snapshot (l : Ledger) (root entry : Path) :
    (l.snapshot root entry).nodes.entries = l.entries.entries.map fun x ↦ (x.1, nodeOf x.2) :=
  SortedMap.entries_ofList (List.pairwise_map.2 l.entries.sorted)

theorem get?_snapshot_eq_some_iff {root entry : Path} {node : GraphNode} :
    (l.snapshot root entry).get? p = some node ↔
      ∃ k e, l.Has k e ∧ p.parts = k.parts ∧ nodeOf e = node := by
  rw [Snapshot.get?, SortedMap.get?_eq_some_iff, entries_snapshot]
  simp only [List.mem_map, Prod.mk.injEq, Path.compare_eq_iff, Has]
  constructor
  · rintro ⟨_, ⟨⟨k, e⟩, h, rfl, rfl⟩, hp⟩
    exact ⟨k, e, h, hp, rfl⟩
  · rintro ⟨k, e, h, hp, rfl⟩
    exact ⟨k, ⟨(k, e), h, rfl, rfl⟩, hp⟩

theorem keys_snapshot (l : Ledger) (root entry : Path) :
    (l.snapshot root entry).nodes.keys = l.keys := by
  rw [SortedMap.keys, entries_snapshot, List.map_map]
  rfl

theorem contains_snapshot (l : Ledger) (root entry : Path) :
    (l.snapshot root entry).contains p = l.contains p := by
  rw [Bool.eq_iff_iff, contains_iff, Snapshot.contains, SortedMap.contains_iff_mem_keys,
    keys_snapshot]
  simp only [Path.compare_eq_iff]

end Ledger
end ImpactGraph
