import ImpactGraph.Proofs.Settings.Layer
import ImpactGraph.Settings.Variables

/-!
# What variables set together

A variable is a layer of its own, with one key (`Variables.ofVariable`), and variables together are
those layers over one another (`layer_eq_foldl`).  So a field that goes by one key in all of them is
set to what each of them makes of the variables before it (`value?_layer`).
-/

set_option autoImplicit false

namespace ImpactGraph
namespace Variables

variable {environment : List (String × String)} {key : String} {f : Field}

/-! ## Values that are read -/

theorem tidy_of_readEntries? {value : ValueReader} {fuel : Nat} {read : Layer}
    {text rest : List Char} {found : Setting} (hread : Entries.Sorted compare read)
    (h : readEntries? value fuel read text = some (found, rest)) : found.Tidy := by
  induction fuel generalizing read text with
  | zero => cases h
  | succ fuel ih =>
    unfold readEntries? at h
    split at h
    · cases h
      exact hread
    · split at h
      · cases h
      · split at h
        · split at h
          · cases h
          · -- an entry was read, and is inserted into the ones before it
            dsimp only at h
            split at h
            · exact ih (Entries.sorted_insert _ _ hread) h
            · cases h
              exact Entries.sorted_insert _ _ hread
            · cases h
        · cases h

theorem tidy_of_readItems? {value : ValueReader} {fuel : Nat} {read : List Setting}
    {text rest : List Char} {found : Setting}
    (h : readItems? value fuel read text = some (found, rest)) : found.Tidy := by
  induction fuel generalizing read text with
  | zero => cases h
  | succ fuel ih =>
    unfold readItems? at h
    split at h
    · cases h
      trivial
    · split at h
      · cases h
      · split at h
        · exact ih h
        · cases h
          trivial
        · cases h

theorem tidy_loose (text : List Char) : (loose text).Tidy := by
  rw [loose]
  split
  · trivial
  · split <;> trivial

theorem tidy_of_readValue? {size depth : Nat} {text rest : List Char} {found : Setting}
    (h : readValue? size depth text = some (found, rest)) : found.Tidy := by
  cases depth with
  | zero => cases h
  | succ depth =>
    rw [readValue?] at h
    split at h
    · cases h
      trivial
    · cases h
      trivial
    · obtain ⟨⟨value, text⟩, hread, heq⟩ := Option.map_eq_some_iff.1 h
      cases heq
      exact tidy_of_readEntries? List.Pairwise.nil hread
    · obtain ⟨⟨value, text⟩, hread, heq⟩ := Option.map_eq_some_iff.1 h
      cases heq
      exact tidy_of_readItems? hread
    · obtain ⟨⟨value, text⟩, hread, heq⟩ := Option.map_eq_some_iff.1 h
      obtain ⟨_, -, hvalue⟩ := Option.map_eq_some_iff.1 hread
      cases hvalue
      cases heq
      trivial
    · split at h
      · cases h
        trivial
      · cases h
    · cases h
      exact tidy_loose _

theorem tidy_value (text : String) : (value text).Tidy := by
  rw [value]
  split
  · next h => exact tidy_of_readValue? h
  · trivial

theorem tidy_nest {value : Setting} (h : value.Tidy) (keys : List String) :
    (nest value keys).Tidy := by
  cases keys with
  | nil => exact h
  | cons key keys => exact List.pairwise_singleton _ _

/-! ## Variables as layers -/

/-- What one variable sets. -/
def ofVariable (v : String × String) : Layer :=
  match keys v.1 with
  | [] => []
  | key :: keys => [(key, nest (value v.2) keys)]

theorem mem_keys_ofVariable {v : String × String} :
    key ∈ (ofVariable v).map Prod.fst ↔ key ∈ (keys v.1).head? := by
  rw [ofVariable]
  cases keys v.1 with
  | nil => simp
  | cons k keys => simp [eq_comm]

theorem tidy_ofVariable (v : String × String) : (ofVariable v).Tidy := by
  rw [ofVariable]
  split
  · exact Layer.Tidy.nil
  · exact Layer.Tidy.singleton (tidy_nest (tidy_value v.2) _)

theorem layer_eq_foldl :
    layer environment =
      environment.foldl (fun set v ↦ Layer.merge .replace set (ofVariable v)) [] := by
  rw [layer]
  congr 1
  funext set ⟨name, text⟩
  rw [ofVariable]
  dsimp only
  cases keys name with
  | nil => rw [Layer.merge, Setting.mergeLayers]
  | cons key keys => rfl

theorem tidy_layer (environment : List (String × String)) : (layer environment).Tidy := by
  rw [layer_eq_foldl]
  exact List.foldlRecOn environment _ Layer.Tidy.nil
    fun set hset v _ ↦ hset.merge (tidy_ofVariable v)

theorem mem_keys_layer :
    key ∈ (layer environment).map Prod.fst ↔ ∃ v ∈ environment, key ∈ (keys v.1).head? := by
  rw [layer_eq_foldl]
  suffices hbase : ∀ base : Layer,
      key ∈ (environment.foldl (fun set v ↦ Layer.merge .replace set (ofVariable v)) base).map
        Prod.fst ↔ key ∈ base.map Prod.fst ∨ ∃ v ∈ environment, key ∈ (keys v.1).head? by
    simpa using hbase []
  intro base
  induction environment generalizing base with
  | nil => simp
  | cons v environment ih =>
    rw [List.foldl_cons, ih, Layer.merge, Setting.mem_keys_mergeLayers, mem_keys_ofVariable,
      List.exists_mem_cons_iff, or_assoc]

theorem goesBy_layer (h : ∀ v ∈ environment, f.GoesBy key (ofVariable v)) :
    f.GoesBy key (layer environment) := by
  intro k hk hf
  obtain ⟨v, hv, hk⟩ := mem_keys_layer.1 hk
  exact h v hv k (mem_keys_ofVariable.2 hk) hf

/-- Every field is set under its name. -/
def Named (environment : List (String × String)) : Prop :=
  ∀ v ∈ environment, ∀ key ∈ (keys v.1).head?, ∀ f ∈ Field.ofSpelling? key, key = f.name

instance : Decidable (Named environment) := inferInstanceAs (Decidable (∀ _ ∈ _, _))

theorem Named.ofVariable (h : Named environment) {v : String × String} (hv : v ∈ environment) :
    Field.Named (ofVariable v) := fun f k hk hf ↦ h v hv k (mem_keys_ofVariable.1 hk) f hf

theorem named_layer (h : Named environment) : Field.Named (layer environment) := fun f ↦
  goesBy_layer fun _ hv ↦ h.ofVariable hv f

/-- What variables set for a field that goes by one key in all of them. -/
theorem value?_layer (hkey : Field.ofSpelling? key = some f)
    (h : ∀ v ∈ environment, f.GoesBy key (ofVariable v)) :
    f.value? (layer environment) =
      (environment.map fun v ↦ f.value? (ofVariable v)).foldl
        (Option.merge (Setting.merge .replace)) none := by
  rw [layer_eq_foldl, List.foldl_map]
  suffices hbase : ∀ base : Layer, f.GoesBy key base →
      f.value? (environment.foldl (fun set v ↦ Layer.merge .replace set (ofVariable v)) base) =
        environment.foldl (fun found v ↦ Option.merge (Setting.merge .replace) found
          (f.value? (ofVariable v))) (f.value? base) from
    hbase [] fun k hk ↦ nomatch hk
  intro base hbase
  induction environment generalizing base with
  | nil => rfl
  | cons v environment ih =>
    obtain ⟨hv, hrest⟩ := List.forall_mem_cons.1 h
    rw [List.foldl_cons, List.foldl_cons, ih hrest _ (Layer.goesBy_merge hbase hv),
      Layer.value?_merge hkey (tidy_ofVariable v).sorted hbase hv]

end Variables
end ImpactGraph
