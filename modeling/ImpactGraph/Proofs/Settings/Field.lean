import Mathlib.Data.List.Pairwise
import ImpactGraph.Proofs.SortedMap
import ImpactGraph.Settings.Basic

/-!
# Fields among entries

Keys may spell fields, under two spellings each.  `Field.spelled` are the fields that the keys of
entries spell, and `Field.value?` looks a field up under either of its spellings.  Where a field
`GoesBy` one key among the entries, the latter is a look-up by that key (`value?_eq_get?`).
-/

set_option autoImplicit false

namespace ImpactGraph
namespace Field

variable {α β : Type} {f g : Field} {key : String} {es : List (String × α)}

/-! ## Spellings -/

@[simp] theorem ofSpelling?_name (f : Field) : ofSpelling? f.name = some f := by
  cases f <;> decide

theorem canonical_of_ofSpelling? (h : ofSpelling? key = some f) : canonical key = f.name := by
  rw [canonical, h]

theorem canonical_of_ofSpelling?_eq_none (h : ofSpelling? key = none) : canonical key = key := by
  rw [canonical, h]

@[simp] theorem ofSpelling?_canonical (key : String) :
    ofSpelling? (canonical key) = ofSpelling? key := by
  cases h : ofSpelling? key with
  | none => rw [canonical_of_ofSpelling?_eq_none h, h]
  | some f => rw [canonical_of_ofSpelling? h, ofSpelling?_name]

/-! ## Entries -/

/-- The fields that the keys spell, one for each key that spells one. -/
def spelled (es : List (String × α)) : List Field := es.filterMap fun e ↦ ofSpelling? e.1

/-- What stands under the first spelling of a field. -/
def value? (f : Field) (es : List (String × α)) : Option α :=
  (es.find? fun e ↦ ofSpelling? e.1 = some f).map Prod.snd

/-- The field is spelled in one way, wherever it is spelled. -/
def GoesBy (f : Field) (key : String) (es : List (String × α)) : Prop :=
  ∀ k ∈ es.map Prod.fst, ofSpelling? k = some f → k = key

/-- Every field is spelled by its name. -/
def Named (es : List (String × α)) : Prop := ∀ f : Field, f.GoesBy f.name es

theorem mem_spelled : f ∈ spelled es ↔ ∃ e ∈ es, ofSpelling? e.1 = some f :=
  List.mem_filterMap

theorem mem_spelled_iff : f ∈ spelled es ↔ ∃ k ∈ es.map Prod.fst, ofSpelling? k = some f := by
  rw [mem_spelled]
  simp

theorem name_mem_keys_iff (h : Named es) : f.name ∈ es.map Prod.fst ↔ f ∈ spelled es := by
  rw [mem_spelled_iff]
  constructor
  · exact fun hname ↦ ⟨f.name, hname, ofSpelling?_name f⟩
  · rintro ⟨k, hk, hf⟩
    rwa [← h f k hk hf]

@[simp] theorem value?_nil : f.value? ([] : List (String × α)) = none := rfl

theorem value?_cons {e : String × α} :
    f.value? (e :: es) = if ofSpelling? e.1 = some f then some e.2 else f.value? es := by
  rw [value?, List.find?_cons]
  by_cases h : ofSpelling? e.1 = some f <;> simp [h, value?]

theorem value?_map (fn : α → β) :
    f.value? (es.map fun e ↦ (e.1, fn e.2)) = (f.value? es).map fn := by
  induction es with
  | nil => rfl
  | cons e es ih =>
    rw [List.map_cons, value?_cons, value?_cons, ih]
    split <;> rfl

theorem value?_eq_none_iff : f.value? es = none ↔ f ∉ spelled es := by
  simp [value?, mem_spelled]

/-- Entries that spell one field are the same where no field is spelled twice. -/
theorem eq_of_ofSpelling? (hes : (spelled es).Nodup) {e e' : String × α} (he : e ∈ es)
    (he' : e' ∈ es) (h : ofSpelling? e.1 = some f) (h' : ofSpelling? e'.1 = some f) : e = e' := by
  by_contra hne
  have : Std.Symm fun a b : String × α ↦
      ∀ g, ofSpelling? a.1 = some g → ∀ g', ofSpelling? b.1 = some g' → g ≠ g' :=
    ⟨fun a b hab g hg g' hg' ↦ (hab g' hg' g hg).symm⟩
  exact (List.pairwise_filterMap.1 hes).forall he he' hne f h f h' rfl

theorem value?_eq_some_iff (hes : (spelled es).Nodup) {a : α} :
    f.value? es = some a ↔ ∃ key, (key, a) ∈ es ∧ ofSpelling? key = some f := by
  constructor
  · intro h
    obtain ⟨⟨key, _⟩, hfind, rfl⟩ := Option.map_eq_some_iff.1 h
    exact ⟨key, List.mem_of_find?_eq_some hfind, by simpa using List.find?_some hfind⟩
  · rintro ⟨key, hmem, hkey⟩
    cases hvalue : f.value? es with
    | none => exact absurd (mem_spelled.2 ⟨_, hmem, hkey⟩) (value?_eq_none_iff.1 hvalue)
    | some b =>
      obtain ⟨⟨key', _⟩, hfind, rfl⟩ := Option.map_eq_some_iff.1 hvalue
      have hkey' : ofSpelling? key' = some f := by simpa using List.find?_some hfind
      have heq := eq_of_ofSpelling? hes (List.mem_of_find?_eq_some hfind) hmem hkey' hkey
      rw [heq]

/-- The order of entries does not count where no field is spelled twice. -/
theorem value?_perm {fs : List (String × α)} (h : es.Perm fs) (hes : (spelled es).Nodup) :
    f.value? es = f.value? fs := by
  have hfs : (spelled fs).Nodup := (h.filterMap _).nodup_iff.1 hes
  ext a
  rw [value?_eq_some_iff hes, value?_eq_some_iff hfs]
  simp only [h.mem_iff]

theorem value?_append {fs : List (String × α)} :
    f.value? (es ++ fs) = (f.value? es).or (f.value? fs) := by
  induction es with
  | nil => rfl
  | cons e es ih =>
    rw [List.cons_append, value?_cons, value?_cons, ih]
    split <;> rfl

/-! ## Entries with every field under its name -/

/-- The entries, with every field under its name. -/
def renamed (es : List (String × α)) : List (String × α) := es.map fun e ↦ (canonical e.1, e.2)

theorem named_renamed : Named (renamed es) := by
  intro f k hk hf
  rw [renamed, List.map_map] at hk
  obtain ⟨e, -, rfl⟩ := List.mem_map.1 hk
  rw [Function.comp_apply, ofSpelling?_canonical] at hf
  exact canonical_of_ofSpelling? hf

@[simp] theorem value?_renamed : f.value? (renamed es) = f.value? es := by
  induction es with
  | nil => rfl
  | cons e es ih =>
    rw [renamed, List.map_cons, value?_cons, value?_cons, ofSpelling?_canonical]
    exact congrArg _ ih

@[simp] theorem spelled_renamed : spelled (renamed es) = spelled es := by
  rw [renamed, spelled, List.filterMap_map]
  exact congrArg (List.filterMap · es) (funext fun e ↦ ofSpelling?_canonical e.1)

/-! ## Fields that go by one key -/

/-- A field that goes by one key is looked up by it. -/
theorem value?_eq_get? (hkey : ofSpelling? key = some f) (h : f.GoesBy key es) :
    f.value? es = Entries.get? compare key es := by
  induction es with
  | nil => rfl
  | cons e es ih =>
    have hiff : ofSpelling? e.1 = some f ↔ compare key e.1 = .eq := by
      rw [Std.LawfulEqCmp.compare_eq_iff_eq]
      exact ⟨fun he ↦ (h e.1 List.mem_cons_self he).symm, fun he ↦ he ▸ hkey⟩
    rw [value?_cons, Entries.get?_cons, ih fun k hk ↦ h k (List.mem_cons_of_mem e.1 hk)]
    simp only [hiff]

/-- Where keys increase and every field goes by one key, no field is spelled twice. -/
theorem nodup_spelled (hes : Entries.Sorted compare es) (h : ∀ f : Field, ∃ key, f.GoesBy key es) :
    (spelled es).Nodup := by
  refine List.pairwise_filterMap.2 (hes.imp_of_mem ?_)
  rintro e e' he he' hlt f hf f' hf' rfl
  obtain ⟨key, hkey⟩ := h f
  rw [hkey e.1 (List.mem_map_of_mem he) hf, hkey e'.1 (List.mem_map_of_mem he') hf'] at hlt
  exact irrefl_compare_lt.irrefl key hlt

end Field
end ImpactGraph
