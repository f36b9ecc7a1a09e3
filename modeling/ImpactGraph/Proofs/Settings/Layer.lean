import ImpactGraph.Proofs.Settings.Field
import ImpactGraph.Settings.Layer

/-!
# Looking up what layers set

In a layer over another one, a key has the value of the layer that sets it, and where both do the
upper value over the lower one: `Setting.get?_mergeLayers` says so in terms of `Option.merge`, and
`Layer.value?_merge` says the same of fields that go by one key in both layers.

The layers that are made from sources are `Layer.Tidy`: their keys increase, and so do those of the
tables in them.  Tables may nest deeper, but no field is read from there.
-/

set_option autoImplicit false

namespace ImpactGraph

open Std

variable {rule : ListRule} {origin : Origin} {lower upper : Layer} {key : String} {f : Field}

namespace Setting

/-! ## Keys -/

theorem mem_keys_mergeLayers :
    key ∈ (mergeLayers rule lower upper).map Prod.fst ↔
      key ∈ lower.map Prod.fst ∨ key ∈ upper.map Prod.fst := by
  induction upper generalizing lower with
  | nil => simp [mergeLayers]
  | cons x upper ih =>
    rw [mergeLayers, ih, Entries.mem_keys_insert, List.map_cons, List.mem_cons]
    exact or_assoc.trans or_left_comm

theorem sorted_mergeLayers (h : Entries.Sorted compare lower) :
    Entries.Sorted compare (mergeLayers rule lower upper) := by
  induction upper generalizing lower with
  | nil => rwa [mergeLayers]
  | cons x upper ih =>
    rw [mergeLayers]
    exact ih (Entries.sorted_insert _ _ h)

theorem mem_keys_layerOfJson {members : List (String × Json)} :
    key ∈ (layerOfJson origin members).map Prod.fst ↔ key ∈ members.map Prod.fst := by
  induction members with
  | nil => rw [layerOfJson]; rfl
  | cons m members ih =>
    rw [layerOfJson, Entries.mem_keys_insert, ih, List.map_cons, List.mem_cons]

theorem sorted_layerOfJson {members : List (String × Json)} :
    Entries.Sorted compare (layerOfJson origin members) := by
  induction members with
  | nil =>
    rw [layerOfJson]
    exact List.Pairwise.nil
  | cons m members ih =>
    rw [layerOfJson]
    exact Entries.sorted_insert _ _ ih

/-! ## Look-ups -/

/-- Where both layers have a value for a key, the upper one is laid over the lower one. -/
theorem get?_mergeLayers (h : Entries.Sorted compare upper) :
    Entries.get? compare key (mergeLayers rule lower upper) =
      Option.merge (merge rule) (Entries.get? compare key lower)
        (Entries.get? compare key upper) := by
  induction upper generalizing lower with
  | nil => rw [mergeLayers, Entries.get?_nil, Option.merge_none_right]
  | cons x upper ih =>
    obtain ⟨top, value⟩ := x
    obtain ⟨hx, hupper⟩ := List.pairwise_cons.1 h
    rw [mergeLayers, ih hupper, Entries.get?_insert, Entries.get?_cons]
    by_cases hkey : compare key top = .eq
    · rw [if_pos hkey, if_pos hkey, Entries.get?_eq_none_of_forall_lt hx hkey,
        ← LawfulEqCmp.eq_of_compare hkey, Entries.get?]
      cases Entries.find? compare key lower <;> rfl
    · rw [if_neg hkey, if_neg hkey]

theorem get?_layerOfJson {members : List (String × Json)} :
    Entries.get? compare key (layerOfJson origin members) =
      (Entries.get? compare key members).map (ofJson origin) := by
  induction members with
  | nil => rw [layerOfJson]; rfl
  | cons m members ih =>
    rw [layerOfJson, Entries.get?_insert, Entries.get?_cons, ih]
    split <;> rfl

/-! ## Tables in key order -/

/-- The keys of a table increase. -/
def Tidy : Setting → Prop
  | table _ entries => Entries.Sorted compare entries
  | _ => True

theorem tidy_merge {below above : Setting} (hbelow : below.Tidy) (habove : above.Tidy) :
    (merge rule below above).Tidy := by
  cases above with
  | table s entries =>
    cases below with
    | table t below =>
      rw [merge_table]
      exact sorted_mergeLayers hbelow
    | _ => exact habove
  | list s items => cases below <;> cases rule <;> trivial
  | _ => trivial

theorem tidy_ofJson (value : Json) : (ofJson origin value).Tidy := by
  cases value with
  | object members => rw [ofJson]; exact sorted_layerOfJson
  | _ => rw [ofJson]; trivial

end Setting

namespace Layer

/-- The keys of a layer increase, and so do those of its tables. -/
structure Tidy (layer : Layer) : Prop where
  sorted : Entries.Sorted compare layer
  tidy_of_get? : ∀ key value, Entries.get? compare key layer = some value → value.Tidy

theorem Tidy.nil : Tidy [] := ⟨List.Pairwise.nil, fun _ _ h ↦ nomatch h⟩

theorem Tidy.singleton {value : Setting} (h : value.Tidy) : Tidy [(key, value)] where
  sorted := List.pairwise_singleton _ _
  tidy_of_get? k v hv := by
    rw [Entries.get?_cons] at hv
    split at hv
    · cases hv
      exact h
    · cases hv

theorem Tidy.merge (hlower : Tidy lower) (hupper : Tidy upper) : Tidy (merge rule lower upper) where
  sorted := Setting.sorted_mergeLayers hlower.sorted
  tidy_of_get? key value h := by
    rw [Layer.merge, Setting.get?_mergeLayers hupper.sorted] at h
    cases hl : Entries.get? compare key lower with
    | none =>
      rw [hl, Option.merge_none_left] at h
      exact hupper.tidy_of_get? key value h
    | some below =>
      cases hu : Entries.get? compare key upper with
      | none =>
        rw [hl, hu, Option.merge_none_right] at h
        exact hlower.tidy_of_get? key value (hl.trans h)
      | some above =>
        rw [hl, hu, Option.merge_some_some] at h
        cases h
        exact Setting.tidy_merge (hlower.tidy_of_get? key below hl)
          (hupper.tidy_of_get? key above hu)

theorem tidy_layerOfJson {members : List (String × Json)} :
    Tidy (Setting.layerOfJson origin members) where
  sorted := Setting.sorted_layerOfJson
  tidy_of_get? key value h := by
    rw [Setting.get?_layerOfJson, Option.map_eq_some_iff] at h
    obtain ⟨json, -, rfl⟩ := h
    exact Setting.tidy_ofJson json

/-! ## Fields -/

theorem goesBy_merge (hlower : f.GoesBy key lower) (hupper : f.GoesBy key upper) :
    f.GoesBy key (merge rule lower upper) := fun k hk hf ↦
  (Setting.mem_keys_mergeLayers.1 hk).elim (hlower k · hf) (hupper k · hf)

theorem goesBy_layerOfJson {members : List (String × Json)} :
    f.GoesBy key (Setting.layerOfJson origin members) ↔ f.GoesBy key members :=
  forall_congr' fun _ ↦ imp_congr_left Setting.mem_keys_layerOfJson

theorem named_merge (hlower : Field.Named lower) (hupper : Field.Named upper) :
    Field.Named (merge rule lower upper) := fun f ↦ goesBy_merge (hlower f) (hupper f)

/-- What is set for a field by the members of an object. -/
theorem value?_layerOfJson {members : List (String × Json)} (hkey : Field.ofSpelling? key = some f)
    (h : f.GoesBy key members) :
    f.value? (Setting.layerOfJson origin members) =
      (f.value? members).map (Setting.ofJson origin) := by
  rw [Field.value?_eq_get? hkey (goesBy_layerOfJson.2 h), Field.value?_eq_get? hkey h,
    Setting.get?_layerOfJson]

/-- What is set for a field by a layer over another one. -/
theorem value?_merge (hkey : Field.ofSpelling? key = some f) (h : Entries.Sorted compare upper)
    (hlower : f.GoesBy key lower) (hupper : f.GoesBy key upper) :
    f.value? (merge rule lower upper) =
      Option.merge (Setting.merge rule) (f.value? lower) (f.value? upper) := by
  rw [Field.value?_eq_get? hkey (goesBy_merge hlower hupper), Field.value?_eq_get? hkey hlower,
    Field.value?_eq_get? hkey hupper, merge, Setting.get?_mergeLayers h]

end Layer
end ImpactGraph
