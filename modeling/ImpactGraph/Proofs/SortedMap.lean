import Mathlib.Data.List.Sort
import ImpactGraph.SortedMap

/-!
# Looking up what was inserted

The laws of `SortedMap`.  `get?_eq_some_iff` and `contains_insert` say what is found in a map and
after an insertion; `entries_insert_of_contains` says that over a key that is there already only the
value changes, and `entries_ofList` that a list in key order is the entries of its own map.

Lists of entries need not be in order to be looked up and inserted into: `Entries.get?_insert` and
`Entries.get?_foldl_insert` hold of all of them.  Two maps are equal if all look-ups agree
(`SortedMap.ext_get?`).
-/

set_option autoImplicit false

namespace ImpactGraph

open Std

variable {κ ν : Type} {cmp : κ → κ → Ordering}

instance irrefl_compare_lt [ReflCmp cmp] : Irrefl fun a b ↦ cmp a b = .lt where
  irrefl a hlt := by
    have heq : cmp a a = .eq := ReflCmp.compare_self
    rw [heq] at hlt
    cases hlt

instance antisymm_compare_lt [OrientedCmp cmp] : Antisymm fun a b ↦ cmp a b = .lt where
  antisymm a b hab hba := by
    rw [OrientedCmp.gt_of_lt hba] at hab
    cases hab

namespace Entries

theorem find?_eq_some {k : κ} {es : List (κ × ν)} {e : κ × ν} (h : find? cmp k es = some e) :
    e ∈ es ∧ cmp k e.1 = .eq := by
  induction es with
  | nil => simp [find?] at h
  | cons x es ih =>
    rw [find?] at h
    split at h
    · next heq =>
      cases h
      exact ⟨List.mem_cons_self, heq⟩
    · exact ⟨List.mem_cons_of_mem _ (ih h).1, (ih h).2⟩

theorem mem_insert_of_find?_eq_none {k : κ} {v : ν} {es : List (κ × ν)}
    (hk : find? cmp k es = none) {e : κ × ν} :
    e ∈ insert cmp k v es ↔ e = (k, v) ∨ e ∈ es := by
  induction es with
  | nil => simp [insert]
  | cons x es ih =>
    rw [find?] at hk
    split at hk
    · cases hk
    · next hne =>
      rw [insert]
      split
      · simp
      · next heq => exact absurd heq hne
      · rw [List.mem_cons, ih hk, List.mem_cons]
        exact or_left_comm

/-- The value of a key. -/
def get? (cmp : κ → κ → Ordering) (k : κ) (es : List (κ × ν)) : Option ν :=
  (find? cmp k es).map Prod.snd

@[simp] theorem get?_nil {k : κ} : get? cmp k ([] : List (κ × ν)) = none := rfl

theorem get?_cons {k k' : κ} {v : ν} {es : List (κ × ν)} :
    get? cmp k ((k', v) :: es) = if cmp k k' = .eq then some v else get? cmp k es := by
  rw [get?, find?]
  split <;> rfl

theorem get?_append {k : κ} {es fs : List (κ × ν)} :
    get? cmp k (es ++ fs) = (get? cmp k es).or (get? cmp k fs) := by
  induction es with
  | nil => rfl
  | cons x es ih =>
    rw [List.cons_append, get?_cons, get?_cons, ih]
    split <;> rfl

theorem get?_map {μ : Type} (fn : ν → μ) {k : κ} {es : List (κ × ν)} :
    get? cmp k (es.map fun e ↦ (e.1, fn e.2)) = (get? cmp k es).map fn := by
  induction es with
  | nil => rfl
  | cons x es ih =>
    rw [List.map_cons, get?_cons, get?_cons, ih]
    split <;> rfl

theorem exists_mem_of_get? {k : κ} {v : ν} {es : List (κ × ν)} (h : get? cmp k es = some v) :
    ∃ k', (k', v) ∈ es ∧ cmp k k' = .eq := by
  obtain ⟨⟨k', _⟩, hfind, rfl⟩ := Option.map_eq_some_iff.1 h
  exact ⟨k', find?_eq_some hfind⟩

theorem get?_eq_none_iff {k : κ} {es : List (κ × ν)} :
    get? cmp k es = none ↔ ∀ e ∈ es, cmp k e.1 ≠ .eq := by
  induction es with
  | nil => simp
  | cons x es ih =>
    rw [get?_cons, List.forall_mem_cons, ← ih]
    split <;> simp_all

theorem mem_keys_iff (cmp : κ → κ → Ordering) [LawfulEqCmp cmp] {k : κ} {es : List (κ × ν)} :
    k ∈ es.map Prod.fst ↔ (get? cmp k es).isSome = true := by
  rw [← not_iff_not, Bool.not_eq_true, Option.isSome_eq_false_iff, Option.isNone_iff_eq_none,
    get?_eq_none_iff]
  simp only [List.mem_map, not_exists, not_and]
  exact forall₂_congr fun e he ↦ not_congr (eq_comm.trans LawfulEqCmp.compare_eq_iff_eq.symm)

theorem get?_eq_some_iff_of_nodup [LawfulEqCmp cmp] {k : κ} {v : ν}
    {es : List (κ × ν)} (hes : (es.map Prod.fst).Nodup) :
    get? cmp k es = some v ↔ (k, v) ∈ es := by
  constructor
  · intro hv
    obtain ⟨k', hmem, hk⟩ := exists_mem_of_get? hv
    rwa [LawfulEqCmp.eq_of_compare hk]
  · intro hmem
    have hk : k ∈ es.map Prod.fst := List.mem_map_of_mem hmem
    obtain ⟨w, hw⟩ := Option.isSome_iff_exists.1 ((mem_keys_iff cmp).1 hk)
    obtain ⟨k', hmem', hk'⟩ := exists_mem_of_get? hw
    rw [← LawfulEqCmp.eq_of_compare hk'] at hmem'
    rw [hw, (Prod.mk.inj (List.inj_on_of_nodup_map hes hmem hmem' rfl)).2]

/-- The order of entries does not count where no key comes twice. -/
theorem get?_perm [LawfulEqCmp cmp] {k : κ} {es fs : List (κ × ν)} (h : es.Perm fs)
    (hes : (es.map Prod.fst).Nodup) : get? cmp k es = get? cmp k fs := by
  ext v
  rw [get?_eq_some_iff_of_nodup hes,
    get?_eq_some_iff_of_nodup ((h.map Prod.fst).nodup_iff.1 hes), h.mem_iff]

/-- The first entry of a key is the one that counts. -/
theorem get?_eq_some_iff_append [LawfulEqCmp cmp] {k : κ} {v : ν} {es : List (κ × ν)} :
    get? cmp k es = some v ↔
      ∃ before after, es = before ++ (k, v) :: after ∧ k ∉ before.map Prod.fst := by
  induction es with
  | nil => simp
  | cons e es ih =>
    obtain ⟨k', v'⟩ := e
    rw [get?_cons]
    by_cases hk : cmp k k' = .eq
    · obtain rfl := LawfulEqCmp.eq_of_compare hk
      rw [if_pos hk, Option.some_inj]
      constructor
      · rintro rfl
        exact ⟨[], es, rfl, List.not_mem_nil⟩
      · rintro ⟨_ | ⟨first, before⟩, after, hes, hbefore⟩
        · cases hes
          rfl
        · cases hes
          exact absurd List.mem_cons_self hbefore
    · have hne : k ≠ k' := mt LawfulEqCmp.compare_eq_iff_eq.2 hk
      rw [if_neg hk, ih]
      constructor
      · rintro ⟨before, after, rfl, hbefore⟩
        exact ⟨(k', v') :: before, after, rfl, by simp_all⟩
      · rintro ⟨_ | ⟨first, before⟩, after, hes, hbefore⟩
        · cases hes
          exact absurd rfl hne
        · cases hes
          rw [List.map_cons, List.mem_cons, not_or] at hbefore
          exact ⟨before, after, rfl, hbefore.2⟩

/-- Of the entries whose keys pass, those of other keys are not found. -/
theorem get?_filter [LawfulEqCmp cmp] (passes : κ → Bool) {k : κ} {es : List (κ × ν)} :
    get? cmp k (es.filter fun e ↦ passes e.1) = if passes k then get? cmp k es else none := by
  induction es with
  | nil => simp
  | cons e es ih =>
    obtain ⟨k', v⟩ := e
    rw [List.filter_cons, get?_cons]
    by_cases hk : cmp k k' = .eq
    · obtain rfl := LawfulEqCmp.eq_of_compare hk
      by_cases hpasses : passes k
      · simp [hpasses, get?_cons, hk]
      · simp [hpasses, ih]
    · by_cases hpasses : passes k'
      · simp [hpasses, get?_cons, hk, ih]
      · simp [hpasses, hk, ih]

variable [TransCmp cmp]

theorem get?_insert {k k' : κ} {v : ν} {es : List (κ × ν)} :
    get? cmp k' (insert cmp k v es) = if cmp k' k = .eq then some v else get? cmp k' es := by
  induction es with
  | nil => exact get?_cons
  | cons x es ih =>
    obtain ⟨kx, vx⟩ := x
    rw [insert]
    split
    · exact get?_cons
    · next heq =>
      rw [get?_cons, get?_cons, TransCmp.congr_right heq]
      split <;> rfl
    · next hgt =>
      rw [get?_cons, get?_cons, ih]
      by_cases hx : cmp k' kx = .eq
      · -- the key at the front is not the one that is inserted
        have hk : cmp k' k ≠ .eq := fun hk ↦ by
          rw [TransCmp.eq_trans (OrientedCmp.eq_symm hk) hx] at hgt
          cases hgt
        rw [if_pos hx, if_neg hk, if_pos hx]
      · rw [if_neg hx, if_neg hx]

theorem mem_keys_insert [LawfulEqCmp cmp] {k k' : κ} {v : ν} {es : List (κ × ν)} :
    k' ∈ (insert cmp k v es).map Prod.fst ↔ k' = k ∨ k' ∈ es.map Prod.fst := by
  rw [mem_keys_iff cmp, mem_keys_iff cmp, get?_insert]
  by_cases h : cmp k' k = .eq
  · simp [LawfulEqCmp.eq_of_compare h, ReflCmp.compare_self]
  · have hne : k' ≠ k := mt LawfulEqCmp.compare_eq_iff_eq.2 h
    simp [h, hne]

theorem mem_keys_foldl_insert [LawfulEqCmp cmp] {k : κ} {es fs : List (κ × ν)} :
    k ∈ (es.foldl (fun m e ↦ insert cmp e.1 e.2 m) fs).map Prod.fst ↔
      k ∈ es.map Prod.fst ∨ k ∈ fs.map Prod.fst := by
  induction es generalizing fs with
  | nil => simp
  | cons e es ih =>
    rw [List.foldl_cons, ih, mem_keys_insert, List.map_cons, List.mem_cons]
    exact or_left_comm.trans or_assoc.symm

/-- A key below all others is not found. -/
theorem get?_eq_none_of_forall_lt {k k' : κ} {es : List (κ × ν)} (h : ∀ e ∈ es, cmp k' e.1 = .lt)
    (hk : cmp k k' = .eq) : get? cmp k es = none := by
  refine get?_eq_none_iff.2 fun e he heq ↦ ?_
  have hlt := TransCmp.lt_of_eq_of_lt hk (h e he)
  rw [heq] at hlt
  cases hlt

/-- Of the insertions of one key, the last one counts. -/
theorem get?_foldl_insert {k : κ} {es fs : List (κ × ν)} :
    get? cmp k (es.foldl (fun m e ↦ insert cmp e.1 e.2 m) fs) =
      (get? cmp k es.reverse).or (get? cmp k fs) := by
  induction es generalizing fs with
  | nil => rfl
  | cons e es ih =>
    rw [List.foldl_cons, ih, get?_insert, List.reverse_cons, get?_append, Option.or_assoc]
    congr 1
    rw [get?_cons]
    split <;> rfl

theorem find?_of_mem {es : List (κ × ν)} (hs : Sorted cmp es) {e : κ × ν} (h : e ∈ es) {k : κ}
    (hk : cmp k e.1 = .eq) : find? cmp k es = some e := by
  induction es with
  | nil => simp at h
  | cons x es ih =>
    obtain ⟨hx, hes⟩ := List.pairwise_cons.1 hs
    rw [find?]
    rcases List.mem_cons.1 h with rfl | h
    · rw [if_pos hk]
    · -- an earlier entry has a smaller key
      have hlt : cmp x.1 k = .lt := TransCmp.lt_of_lt_of_eq (hx e h) (OrientedCmp.eq_symm hk)
      rw [if_neg (by rw [OrientedCmp.gt_of_lt hlt]; simp)]
      exact ih hes h

/-- Over a key that is there already, an insertion changes the value and nothing else. -/
theorem insert_of_mem {es : List (κ × ν)} (hs : Sorted cmp es) {e : κ × ν} (h : e ∈ es) {k : κ}
    (hk : cmp k e.1 = .eq) (v : ν) :
    insert cmp k v es = es.map fun x ↦ (x.1, if cmp k x.1 = .eq then v else x.2) := by
  induction es with
  | nil => simp at h
  | cons x es ih =>
    obtain ⟨k', v'⟩ := x
    obtain ⟨hx, hes⟩ := List.pairwise_cons.1 hs
    rw [insert, List.map_cons]
    rcases List.mem_cons.1 h with rfl | h
    · have hrest : es.map (fun x ↦ (x.1, if cmp k x.1 = .eq then v else x.2)) = es := by
        refine (List.map_congr_left fun y hy ↦ ?_).trans (List.map_id es)
        have hlt : cmp k y.1 = .lt := TransCmp.lt_of_eq_of_lt hk (hx y hy)
        simp [hlt]
      simp [hk, hrest]
    · have hgt : cmp k k' = .gt := OrientedCmp.gt_of_lt
        (TransCmp.lt_of_lt_of_eq (hx e h) (OrientedCmp.eq_symm hk))
      simp [hgt, ih hes h]

/-- A key above all others goes to the end. -/
theorem insert_of_forall_lt {k : κ} {v : ν} {es : List (κ × ν)}
    (h : ∀ e ∈ es, cmp e.1 k = .lt) : insert cmp k v es = es ++ [(k, v)] := by
  induction es with
  | nil => rfl
  | cons x es ih =>
    have hgt : cmp k x.1 = .gt := OrientedCmp.gt_of_lt (h x List.mem_cons_self)
    rw [insert, hgt, List.cons_append]
    exact congrArg (x :: ·) (ih fun e he ↦ h e (List.mem_cons_of_mem _ he))

end Entries

namespace SortedMap

theorem pairwise_keys (m : SortedMap κ ν cmp) : m.keys.Pairwise fun a b ↦ cmp a b = .lt :=
  List.pairwise_map.2 m.sorted

theorem nodup_keys [ReflCmp cmp] (m : SortedMap κ ν cmp) : m.keys.Nodup :=
  m.pairwise_keys.nodup

theorem mem_keys_iff [LawfulEqCmp cmp] {m : SortedMap κ ν cmp} {k : κ} :
    k ∈ m.keys ↔ (m.get? k).isSome = true :=
  Entries.mem_keys_iff cmp

theorem isEmpty_of_mem_keys {m : SortedMap κ ν cmp} {k : κ} (h : k ∈ m.keys) :
    m.isEmpty = false := by
  obtain ⟨e, he, -⟩ := List.mem_map.1 h
  exact List.isEmpty_eq_false_iff_exists_mem.2 ⟨e, he⟩

variable [TransCmp cmp] {m : SortedMap κ ν cmp} {k k' : κ} {v : ν}

theorem find?_eq_some_iff {e : κ × ν} :
    m.find? k = some e ↔ e ∈ m.entries ∧ cmp k e.1 = .eq :=
  ⟨Entries.find?_eq_some, fun h ↦ Entries.find?_of_mem m.sorted h.1 h.2⟩

theorem get?_eq_some_iff : m.get? k = some v ↔ ∃ k', (k', v) ∈ m.entries ∧ cmp k k' = .eq := by
  rw [get?, Option.map_eq_some_iff]
  constructor
  · rintro ⟨⟨k', _⟩, h, rfl⟩
    exact ⟨k', find?_eq_some_iff.1 h⟩
  · rintro ⟨k', h⟩
    exact ⟨(k', v), find?_eq_some_iff.2 h, rfl⟩

/-- Keys that are equal as soon as they compare so stand before their values. -/
theorem get?_eq_some_iff_mem [LawfulEqCmp cmp] : m.get? k = some v ↔ (k, v) ∈ m.entries := by
  rw [get?_eq_some_iff]
  constructor
  · rintro ⟨k', hmem, hk⟩
    rwa [LawfulEqCmp.eq_of_compare hk]
  · exact fun hmem ↦ ⟨k, hmem, ReflCmp.compare_self⟩

/-- Maps in which every key has the same value are equal. -/
theorem ext_get? [LawfulEqCmp cmp] {n : SortedMap κ ν cmp} (h : ∀ k, m.get? k = n.get? k) :
    m = n := by
  -- the keys of both lists increase, so it is enough that they have the same entries
  have : Irrefl fun a b : κ × ν ↦ cmp a.1 b.1 = .lt := ⟨fun a ↦ irrefl_compare_lt.irrefl a.1⟩
  have : Antisymm fun a b : κ × ν ↦ cmp a.1 b.1 = .lt :=
    ⟨fun a b hab hba ↦ absurd (TransCmp.lt_trans hab hba) (irrefl_compare_lt.irrefl a.1)⟩
  refine ext (List.Pairwise.eq_of_mem_iff m.sorted n.sorted fun ⟨k, v⟩ ↦ ?_)
  rw [← get?_eq_some_iff_mem, ← get?_eq_some_iff_mem, h]

theorem contains_iff : m.contains k = true ↔ ∃ e ∈ m.entries, cmp k e.1 = .eq := by
  rw [contains, Option.isSome_iff_exists]
  exact exists_congr fun e ↦ find?_eq_some_iff

theorem contains_iff_mem_keys : m.contains k = true ↔ ∃ k' ∈ m.keys, cmp k k' = .eq := by
  rw [contains_iff, keys]
  simp

theorem get?_of_mem (h : (k', v) ∈ m.entries) (hk : cmp k k' = .eq) : m.get? k = some v :=
  get?_eq_some_iff.2 ⟨k', h, hk⟩

theorem entries_insert_of_contains (h : m.contains k = true) (v : ν) :
    (m.insert k v).entries = m.entries.map fun x ↦ (x.1, if cmp k x.1 = .eq then v else x.2) := by
  obtain ⟨e, he, hk⟩ := contains_iff.1 h
  exact Entries.insert_of_mem m.sorted he hk v

theorem contains_of_get?_eq_some (h : m.get? k = some v) : m.contains k = true := by
  obtain ⟨k', hmem, hk⟩ := get?_eq_some_iff.1 h
  exact contains_iff.2 ⟨(k', v), hmem, hk⟩

theorem get?_of_not_contains (h : m.contains k = false) : m.get? k = none := by
  rw [Option.eq_none_iff_forall_ne_some]
  intro v hv
  rw [contains_of_get?_eq_some hv] at h
  cases h

/-- Replacing the value of a key by what is made of it. -/
theorem mem_entries_insert_of_get? {f : ν → ν} {w : ν} (h : m.get? k = some w) :
    (k', v) ∈ (m.insert k (f w)).entries ↔
      ∃ w', (k', w') ∈ m.entries ∧ v = if cmp k k' = .eq then f w' else w' := by
  rw [entries_insert_of_contains (contains_of_get?_eq_some h), List.mem_map]
  constructor
  · rintro ⟨⟨k'', w'⟩, hmem, heq⟩
    obtain ⟨rfl, rfl⟩ := Prod.mk.inj heq
    refine ⟨w', hmem, ?_⟩
    split
    · next hk => rw [Option.some_inj.1 (h.symm.trans (get?_of_mem hmem hk))]
    · rfl
  · rintro ⟨w', hmem, rfl⟩
    refine ⟨(k', w'), hmem, Prod.ext rfl ?_⟩
    show (if cmp k k' = .eq then f w else w') = _
    split
    · next hk => rw [Option.some_inj.1 (h.symm.trans (get?_of_mem hmem hk))]
    · rfl

theorem mem_entries_insert_of_not_contains (h : m.contains k = false) {e : κ × ν} :
    e ∈ (m.insert k v).entries ↔ e = (k, v) ∨ e ∈ m.entries := by
  refine Entries.mem_insert_of_find?_eq_none ?_
  rw [contains, Option.isSome_eq_false_iff, Option.isNone_iff_eq_none] at h
  exact h

theorem mem_keys_insert_of_not_contains (h : m.contains k = false) :
    k' ∈ (m.insert k v).keys ↔ k' = k ∨ k' ∈ m.keys := by
  simp only [keys, List.mem_map, mem_entries_insert_of_not_contains h]
  constructor
  · rintro ⟨e, rfl | he, rfl⟩
    · exact .inl rfl
    · exact .inr ⟨e, he, rfl⟩
  · rintro (rfl | ⟨e, he, rfl⟩)
    · exact ⟨_, .inl rfl, rfl⟩
    · exact ⟨e, .inr he, rfl⟩

theorem keys_insert_of_contains (h : m.contains k = true) (v : ν) :
    (m.insert k v).keys = m.keys := by
  rw [keys, entries_insert_of_contains h, List.map_map]
  rfl

theorem contains_insert :
    (m.insert k v).contains k' = true ↔ m.contains k' = true ∨ cmp k' k = .eq := by
  simp only [contains_iff_mem_keys]
  cases h : m.contains k with
  | false =>
    simp only [mem_keys_insert_of_not_contains h]
    constructor
    · rintro ⟨x, rfl | hx, hk⟩
      · exact .inr hk
      · exact .inl ⟨x, hx, hk⟩
    · rintro (⟨x, hx, hk⟩ | hk)
      · exact ⟨x, .inr hx, hk⟩
      · exact ⟨k, .inl rfl, hk⟩
  | true =>
    rw [keys_insert_of_contains h]
    obtain ⟨x, hx, hkx⟩ := contains_iff_mem_keys.1 h
    exact ⟨.inl, fun h ↦ h.elim id fun hk ↦ ⟨x, hx, TransCmp.eq_trans hk hkx⟩⟩

theorem get?_insert : (m.insert k v).get? k' = if cmp k' k = .eq then some v else m.get? k' :=
  Entries.get?_insert

/-! ## One map over another -/

/-- A map over another one, which counts where it has no value itself. -/
def overlay (lower upper : SortedMap κ ν cmp) : SortedMap κ ν cmp :=
  upper.entries.foldl (fun m e ↦ m.insert e.1 e.2) lower

theorem get?_overlay {lower upper : SortedMap κ ν cmp} :
    (lower.overlay upper).get? k = (upper.get? k).or (lower.get? k) := by
  obtain ⟨es, hes⟩ := upper
  show (es.foldl (fun m e ↦ m.insert e.1 e.2) lower).get? k = (Entries.get? cmp k es).or _
  induction es generalizing lower with
  | nil => rfl
  | cons e es ih =>
    obtain ⟨he, hes⟩ := List.pairwise_cons.1 hes
    rw [List.foldl_cons, ih hes, get?_insert, Entries.get?_cons]
    by_cases hk : cmp k e.1 = .eq
    · rw [if_pos hk, if_pos hk, Entries.get?_eq_none_of_forall_lt he hk]
      rfl
    · rw [if_neg hk, if_neg hk]

/-! ## Maps of lists -/

theorem entries_foldl_insert {es : List (κ × ν)} (h : Entries.Sorted cmp (m.entries ++ es)) :
    (es.foldl (fun m e ↦ m.insert e.1 e.2) m).entries = m.entries ++ es := by
  induction es generalizing m with
  | nil => simp
  | cons e es ih =>
    have hlast : (m.insert e.1 e.2).entries = m.entries ++ [e] :=
      Entries.insert_of_forall_lt fun x hx ↦
        (List.pairwise_append.1 h).2.2 x hx e List.mem_cons_self
    rw [List.foldl_cons, ih (by rw [hlast]; simpa using h), hlast]
    simp

/-- A list in key order is the entries of its own map. -/
theorem entries_ofList {es : List (κ × ν)} (h : Entries.Sorted cmp es) :
    (ofList es : SortedMap κ ν cmp).entries = es :=
  entries_foldl_insert (m := ∅) h

theorem entries_foldl (es : List (κ × ν)) (m : SortedMap κ ν cmp) :
    (es.foldl (fun m e ↦ m.insert e.1 e.2) m).entries =
      es.foldl (fun fs e ↦ Entries.insert cmp e.1 e.2 fs) m.entries := by
  induction es generalizing m with
  | nil => rfl
  | cons e es ih => exact ih _

/-- Of the entries of one key, the last one counts. -/
theorem get?_ofList {es : List (κ × ν)} :
    (ofList es : SortedMap κ ν cmp).get? k = Entries.get? cmp k es.reverse := by
  show Entries.get? cmp k (ofList es).entries = _
  rw [ofList, entries_foldl, Entries.get?_foldl_insert]
  exact Option.or_none

variable [LawfulEqCmp cmp]

theorem mem_keys_ofList {es : List (κ × ν)} :
    k ∈ (ofList es : SortedMap κ ν cmp).keys ↔ k ∈ es.map Prod.fst := by
  rw [mem_keys_iff, get?_ofList, ← Entries.mem_keys_iff cmp, List.map_reverse, List.mem_reverse]

theorem mem_of_get?_ofList {es : List (κ × ν)}
    (h : (ofList es : SortedMap κ ν cmp).get? k = some v) : (k, v) ∈ es := by
  rw [get?_ofList] at h
  obtain ⟨k', hmem, hk⟩ := Entries.exists_mem_of_get? h
  rw [LawfulEqCmp.eq_of_compare hk]
  exact List.mem_reverse.1 hmem

/-- A key has the value of its last entry. -/
theorem get?_ofList_eq_some_iff {es : List (κ × ν)} :
    (ofList es : SortedMap κ ν cmp).get? k = some v ↔
      ∃ before after, es = before ++ (k, v) :: after ∧ k ∉ after.map Prod.fst := by
  rw [get?_ofList, Entries.get?_eq_some_iff_append]
  constructor
  · rintro ⟨after, before, hes, hk⟩
    refine ⟨before.reverse, after.reverse, List.reverse_injective ?_, ?_⟩
    · simp [hes]
    · simpa using hk
  · rintro ⟨before, after, rfl, hk⟩
    exact ⟨after.reverse, before.reverse, by simp, by simpa using hk⟩

/-- A list that follows another one is a map over the map of that one. -/
theorem ofList_append {es fs : List (κ × ν)} :
    (ofList (es ++ fs) : SortedMap κ ν cmp) = (ofList es).overlay (ofList fs) := by
  refine ext_get? fun k ↦ ?_
  rw [get?_overlay, get?_ofList, get?_ofList, get?_ofList, List.reverse_append, Entries.get?_append]

/-- The entries of a map make the map, in whatever order they come. -/
theorem ofList_of_perm {es : List (κ × ν)} (h : es.Perm m.entries) : ofList es = m := by
  refine ext_get? fun k ↦ ?_
  have hperm : es.reverse.Perm m.entries := (List.reverse_perm es).trans h
  have hnodup : (es.reverse.map Prod.fst).Nodup :=
    (hperm.map Prod.fst).nodup_iff.2 (nodup_keys m)
  rw [get?_ofList]
  exact Entries.get?_perm hperm hnodup

end SortedMap
end ImpactGraph
