import Mathlib.Logic.Function.Basic
import ImpactGraph.Proofs.Settings.Layer
import ImpactGraph.Settings.Decode

/-!
# Settings, field by field

Every field has a type of values, `Field.Value`, and settings are a value of each field
(`Settings.ofValues`).  `Setting.read?` reads a value of a field, whatever the keys are under which
it stands, and `Settings.ofLayer_eq_ok_iff` says what is read from a layer: each field that is
spelled is spelled once and has the value that is read there, and the others have their defaults.

A value over another one is read as the two values over one another, `Field.overlay`
(`Setting.read?_merge`); `Layer.Gives.merge` says so of whole layers.
-/

set_option autoImplicit false

namespace ImpactGraph

/-! ## Values of fields -/

/-- The type of the values of a field. -/
abbrev Field.Value : Field → Type
  | .entry => Option Path
  | .external | .extensions | .scriptExtensions => List String
  | .aliases => SortedMap String Path
  | .marker => String
  | .maxConcurrency => Nat
  | .followDynamic | .followReExports => Bool

deriving instance DecidableEq for Settings

namespace Settings

/-- The value of a field. -/
def value (settings : Settings) : (f : Field) → f.Value
  | .entry => settings.entry
  | .external => settings.external
  | .aliases => settings.aliases
  | .extensions => settings.extensions
  | .scriptExtensions => settings.scriptExtensions
  | .marker => settings.marker
  | .maxConcurrency => settings.maxConcurrency
  | .followDynamic => settings.followDynamic
  | .followReExports => settings.followReExports

/-- The settings with these values. -/
def ofValues (values : (f : Field) → f.Value) : Settings where
  entry := values .entry
  external := values .external
  aliases := values .aliases
  extensions := values .extensions
  scriptExtensions := values .scriptExtensions
  marker := values .marker
  maxConcurrency := values .maxConcurrency
  followDynamic := values .followDynamic
  followReExports := values .followReExports

@[simp] theorem value_ofValues (values : (f : Field) → f.Value) (f : Field) :
    (ofValues values).value f = values f := by
  cases f <;> rfl

@[simp] theorem ofValues_value (settings : Settings) : ofValues settings.value = settings := rfl

theorem ext_value {s t : Settings} (h : ∀ f, s.value f = t.value f) : s = t := by
  rw [← ofValues_value s, ← ofValues_value t, funext h]

end Settings

/-! ## Reading a value -/

namespace Setting

/-- Reads a value of a field that stands under some keys. -/
def read (keys : List String) (value : Setting) : (f : Field) → Except SettingsFault f.Value
  | .entry => value.asPath? keys
  | .external | .extensions | .scriptExtensions => value.asTexts keys
  | .aliases => value.asPaths keys
  | .marker => value.asText keys
  | .maxConcurrency => value.asNat keys
  | .followDynamic | .followReExports => value.asBool keys

/-- The value of a field, if this is one. -/
def read? (value : Setting) (f : Field) : Option f.Value := (value.read [] f).toOption

/-- The text, if this is one. -/
def text? : Setting → Option String
  | text _ value => some value
  | _ => none

theorem toOption_asText (keys : List String) (value : Setting) :
    (value.asText keys).toOption = value.text? := by
  cases value <;> rfl

theorem toOption_textsOf (keys : List String) (index : Nat) (items : List Setting) :
    (textsOf keys index items).toOption = items.mapM text? := by
  induction items generalizing index with
  | nil => rfl
  | cons item items ih =>
    rw [textsOf, List.mapM_cons, ← toOption_asText (keys ++ [toString index]), ← ih (index + 1)]
    cases item.asText (keys ++ [toString index]) with
    | error fault => rfl
    | ok value => cases textsOf keys (index + 1) items <;> rfl

theorem toOption_pathsOf (keys : List String) (paths : SortedMap String Path) (entries : Layer) :
    (pathsOf keys paths entries).toOption =
      entries.foldlM (fun paths e ↦ e.2.text?.map fun dir ↦ paths.insert e.1 (.ofText dir))
        paths := by
  induction entries generalizing paths with
  | nil => rfl
  | cons e entries ih =>
    rw [pathsOf, List.foldlM_cons, ← toOption_asText (keys ++ [e.1])]
    cases e.2.asText (keys ++ [e.1]) with
    | error fault => rfl
    | ok dir => exact ih _

/-- Whether a value is one of a field does not depend on where it stands. -/
theorem toOption_read (keys : List String) (value : Setting) (f : Field) :
    (value.read keys f).toOption = value.read? f := by
  cases f with
  | entry => cases value <;> rfl
  | external | extensions | scriptExtensions =>
    cases value with
    | list s items =>
      exact (toOption_textsOf keys 0 items).trans (toOption_textsOf [] 0 items).symm
    | _ => rfl
  | aliases =>
    cases value with
    | table s entries =>
      exact (toOption_pathsOf keys ∅ entries).trans (toOption_pathsOf [] ∅ entries).symm
    | _ => rfl
  | marker => cases value <;> rfl
  | maxConcurrency =>
    cases value with
    | number s n =>
      cases n with
      | int n =>
        rw [read?, read, read, asNat, asNat]
        split <;> rfl
      | float bits => rfl
    | _ => rfl
  | followDynamic | followReExports => cases value <;> rfl

end Setting

namespace Settings

theorem set_eq_map_read (settings : Settings) (f : Field) (keys : List String) (value : Setting) :
    settings.set f keys value =
      (value.read keys f).map fun x ↦ ofValues (Function.update settings.value f x) := by
  cases f <;> exact bind_pure_comp (m := Except SettingsFault) _ _

theorem set_eq_ok_iff {s t : Settings} {g : Field} {keys : List String} {value : Setting} :
    s.set g keys value = .ok t ↔
      value.read? g = some (t.value g) ∧ ∀ f, f ≠ g → t.value f = s.value f := by
  rw [set_eq_map_read, ← Setting.toOption_read keys]
  cases value.read keys g with
  | error fault => simp [Except.map, Except.toOption]
  | ok x =>
    simp only [Except.map, Except.toOption, Except.ok.injEq, Option.some_inj]
    constructor
    · rintro rfl
      simp only [value_ofValues, Function.update_self, true_and]
      exact fun f hf ↦ Function.update_of_ne hf _ _
    · rintro ⟨rfl, hrest⟩
      refine ext_value fun f ↦ ?_
      rw [value_ofValues]
      by_cases hf : f = g
      · subst hf
        exact Function.update_self ..
      · rw [Function.update_of_ne hf, hrest f hf]

theorem read?_of_set_eq_error {s : Settings} {g : Field} {keys : List String} {value : Setting}
    {fault : SettingsFault} (h : s.set g keys value = .error fault) : value.read? g = none := by
  rw [set_eq_map_read] at h
  rw [← Setting.toOption_read keys]
  cases hread : value.read keys g with
  | error fault => rfl
  | ok x =>
    rw [hread] at h
    cases h

/-- A field of a layer is set once its first key is, and keeps its value: the rest of the layer does
not spell it again. -/
theorem elim_value?_cons {s s' : Settings} {g : Field} {key : String} {value : Setting}
    {layer : Layer} (hkey : Field.ofSpelling? key = some g) (hset : s.set g [key] value = .ok s')
    (hg : g ∉ Field.spelled layer) (f : Field) :
    (f.value? ((key, value) :: layer)).elim (some (s.value f)) (·.read? f) =
      (f.value? layer).elim (some (s'.value f)) (·.read? f) := by
  obtain ⟨hread, hrest⟩ := set_eq_ok_iff.1 hset
  rw [Field.value?_cons, hkey]
  by_cases hf : f = g
  · subst hf
    rw [Field.value?_eq_none_iff.2 hg, if_pos rfl, Option.elim_none, Option.elim_some, hread]
  · rw [if_neg fun h ↦ hf (Option.some_inj.1 h).symm, hrest f hf]

/-- What is set by the keys of a layer: each field that they spell is spelled once, is none of those
that are set already and gets the value that is read; the other fields stay as they are. -/
theorem setAll_eq_ok_iff {s t : Settings} {done : List Field} {layer : Layer} :
    s.setAll done layer = .ok t ↔
      (Field.spelled layer).Nodup ∧ (∀ f ∈ Field.spelled layer, f ∉ done) ∧
        ∀ f, (f.value? layer).elim (some (s.value f)) (·.read? f) = some (t.value f) := by
  induction layer generalizing s done with
  | nil =>
    simp only [setAll, Field.spelled, List.filterMap_nil, List.nodup_nil, List.not_mem_nil,
      Field.value?_nil, Option.elim_none, Option.some_inj, Except.ok.injEq, false_imp_iff,
      implies_true, true_and]
    exact ⟨fun h _ ↦ h ▸ rfl, ext_value⟩
  | cons e layer ih =>
    obtain ⟨key, value⟩ := e
    rw [setAll]
    cases hkey : Field.ofSpelling? key with
    | none =>
      simp only [ih, Field.value?_cons, Field.spelled, List.filterMap_cons, hkey, reduceCtorEq,
        if_false]
    | some g =>
      have hspelled : Field.spelled ((key, value) :: layer) = g :: Field.spelled layer := by
        rw [Field.spelled, List.filterMap_cons, hkey]
        rfl
      rw [hspelled]
      dsimp only
      by_cases hdone : g ∈ done
      · rw [if_pos (List.contains_iff_mem.2 hdone)]
        refine ⟨fun h ↦ ?_, fun h ↦ absurd hdone (h.2.1 g List.mem_cons_self)⟩
        cases h
      rw [if_neg (mt List.contains_iff_mem.1 hdone)]
      cases hset : s.set g [key] value with
      | error fault =>
        constructor
        · intro h
          cases h
        · intro h
          have hread := h.2.2 g
          rw [Field.value?_cons, if_pos hkey, Option.elim_some, read?_of_set_eq_error hset] at hread
          cases hread
      | ok s' =>
        -- the field that is set now may not be spelled again in the rest of the layer
        rw [ih, List.nodup_cons]
        constructor
        · rintro ⟨hnodup, hfresh, hvalues⟩
          have hg : g ∉ Field.spelled layer := fun hg ↦ hfresh g hg List.mem_cons_self
          refine ⟨⟨hg, hnodup⟩, List.forall_mem_cons.2 ⟨hdone, fun f hf h ↦ ?_⟩, fun f ↦ ?_⟩
          · exact hfresh f hf (List.mem_cons_of_mem g h)
          · exact (elim_value?_cons hkey hset hg f).trans (hvalues f)
        · rintro ⟨⟨hg, hnodup⟩, hfresh, hvalues⟩
          refine ⟨hnodup, fun f hf h ↦ ?_, fun f ↦
            (elim_value?_cons hkey hset hg f).symm.trans (hvalues f)⟩
          rcases List.mem_cons.1 h with rfl | h
          · exact hg hf
          · exact hfresh f (List.mem_cons_of_mem g hf) h

/-- The settings of a layer: no field is spelled twice, and each has the value that is read or its
default. -/
theorem ofLayer_eq_ok_iff {t : Settings} {layer : Layer} :
    ofLayer layer = .ok t ↔
      (Field.spelled layer).Nodup ∧
        ∀ f, (f.value? layer).elim (some (default.value f)) (·.read? f) = some (t.value f) := by
  rw [ofLayer, setAll_eq_ok_iff]
  simp

end Settings

end ImpactGraph
