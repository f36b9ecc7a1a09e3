import ImpactGraph.Proofs.Settings.Merge

/-!
# What the command line sets

A value of a field that is written as JSON is read back (`Setting.read?_toJson`).  The command line
is written as the members of an object, one for each field that is set on it, so that as a layer it
gives what is set on it (`Overrides.gives_toMembers`).
-/

set_option autoImplicit false

namespace ImpactGraph

variable {f : Field} {overrides : Overrides}

/-! ## Values that are written -/

/-- A value of a field as JSON. -/
def Field.toJson : (f : Field) → f.Value → Json
  | .entry => fun entry ↦ entry.elim .null fun path ↦ .string path.text
  | .external | .extensions | .scriptExtensions => Json.strings
  | .aliases => Overrides.aliasesToJson
  | .marker => Json.string
  | .maxConcurrency => Json.nat
  | .followDynamic | .followReExports => Json.bool

namespace Setting

theorem mapM_text?_itemsOfJson (origin : Origin) (texts : List String) :
    (itemsOfJson origin (texts.map .string)).mapM text? = some texts := by
  induction texts with
  | nil => rfl
  | cons text texts ih =>
    rw [List.map_cons, itemsOfJson, List.mapM_cons, ih, ofJson]
    rfl

theorem read?_strings (origin : Origin) (texts : List String) :
    (asTexts [] (ofJson origin (Json.strings texts))).toOption = some texts := by
  rw [Json.strings, ofJson]
  exact (toOption_textsOf [] 0 _).trans (mapM_text?_itemsOfJson origin texts)

theorem read?_aliasesToJson (origin : Origin) (aliases : SortedMap String Path) :
    (ofJson origin (Overrides.aliasesToJson aliases)).read? .aliases = some aliases := by
  rw [Overrides.aliasesToJson, ofJson, read?_aliases_eq_some_iff sorted_layerOfJson]
  intro key
  rw [get?_layerOfJson]
  refine (congrArg (Option.map path?) (congrArg (Option.map (ofJson origin))
    (Entries.get?_map (fun dir : Path ↦ Json.string dir.text)))).trans ?_
  rw [Option.map_map, Option.map_map]
  refine congrArg (Option.map · (aliases.get? key)) (funext fun dir ↦ ?_)
  exact congrArg some dir.ofText_text

/-- A value that is written is read back. -/
theorem read?_toJson {origin : Origin} (f : Field) (x : f.Value) :
    (ofJson origin (f.toJson x)).read? f = some x := by
  cases f with
  | entry =>
    cases x with
    | none => rfl
    | some path => exact congrArg some (congrArg some path.ofText_text)
  | external | extensions | scriptExtensions => exact read?_strings origin x
  | aliases => exact read?_aliasesToJson origin x
  | maxConcurrency => simp [Field.toJson, Json.nat, ofJson, Setting.read?, read, asNat,
      Except.toOption]
  | marker | followDynamic | followReExports => rfl

end Setting

/-! ## The command line -/

namespace Overrides

/-- What the command line sets; a list or a table without entries sets nothing. -/
def given (overrides : Overrides) : Given
  | .entry => overrides.entry.map some
  | .external => if overrides.external.isEmpty then .none else some overrides.external
  | .aliases => if overrides.aliases.isEmpty then .none else some overrides.aliases
  | .extensions | .scriptExtensions => .none
  | .marker => overrides.marker
  | .maxConcurrency => overrides.maxConcurrency
  | .followDynamic => overrides.followDynamic
  | .followReExports => overrides.followReExports

theorem mem_member {α : Type} {field : Field} {value : Option α} {toJson : α → Json}
    {e : String × Json} (h : e ∈ member field value toJson) : e.1 = field.name := by
  cases value with
  | none => cases h
  | some value => rw [List.mem_singleton.1 h]

theorem value?_member {α : Type} {field : Field} {value : Option α} {toJson : α → Json} :
    f.value? (member field value toJson) = if field = f then value.map toJson else .none := by
  cases value with
  | none => simp [member]
  | some value => simp [member, Field.value?_cons]

theorem named_toMembers (overrides : Overrides) : Field.Named overrides.toMembers := by
  have hname : ∀ e ∈ overrides.toMembers, ∃ field : Field, e.1 = field.name := by
    simp only [toMembers, List.mem_append]
    rintro e ((((((h | h) | h) | h) | h) | h) | h) <;> exact ⟨_, mem_member h⟩
  intro f k hk hf
  obtain ⟨e, he, rfl⟩ := List.mem_map.1 hk
  obtain ⟨field, hfield⟩ := hname e he
  rw [hfield, Field.ofSpelling?_name, Option.some_inj] at hf
  rw [hfield, hf]

theorem named_toLayer (overrides : Overrides) :
    Field.Named (Setting.layerOfJson .given overrides.toMembers) := fun f ↦
  Layer.goesBy_layerOfJson.2 (named_toMembers overrides f)

theorem value?_toMembers : f.value? overrides.toMembers = (overrides.given f).map f.toJson := by
  simp only [toMembers, Field.value?_append, value?_member]
  cases f with
  | entry => cases h : overrides.entry <;> simp [given, h, Field.toJson]
  | external | aliases => simp [given, Field.toJson]
  | _ => simp [given, Field.toJson]

/-- The command line as a layer gives what is set on it. -/
theorem gives_toMembers (overrides : Overrides) :
    Layer.Gives (Setting.layerOfJson .given overrides.toMembers) overrides.given := by
  intro f
  rw [Layer.value?_layerOfJson (Field.ofSpelling?_name f) (named_toMembers overrides f),
    value?_toMembers, Option.map_map, Option.map_map]
  exact congrArg (Option.map · (overrides.given f)) (funext fun x ↦ Setting.read?_toJson f x)

end Overrides
end ImpactGraph
