import ImpactGraph.Proofs.Settings.Decode

/-!
# Layers whose values have the types of their fields

`Layer.Gives layer given` says that what a layer sets for a field is a value of the field, and which
one.  A value over another one is read as the two values over one another, `Field.overlay`: lists
are replaced or continued, directories by alias are laid over one another, and of all else the upper
value is taken (`Setting.read?_merge`).  So a layer over another one gives both (`Gives.merge`), and
the settings of a layer are what it gives, and the defaults (`Gives.ofLayer`).
-/

set_option autoImplicit false

namespace ImpactGraph

variable {rule : ListRule} {origin : Origin} {f : Field} {key : String}

/-- A value of a field over another one. -/
def Field.overlay (rule : ListRule) : (f : Field) → f.Value → f.Value → f.Value
  | .external | .extensions | .scriptExtensions => fun lower upper ↦
    match rule with
    | .replace => upper
    | .append => lower ++ upper
  | .aliases => SortedMap.overlay
  | .entry | .marker | .maxConcurrency | .followDynamic | .followReExports => fun _ upper ↦ upper

namespace Setting

/-! ## Tables of paths -/

/-- The path that is written, if this is a text. -/
def path? (value : Setting) : Option Path := value.text?.map .ofText

/-- Adds the path of an entry. -/
def addPath? (paths : SortedMap String Path) (e : String × Setting) :
    Option (SortedMap String Path) :=
  e.2.path?.map (paths.insert e.1)

theorem read?_aliases {entries : Layer} :
    (table origin entries).read? .aliases = entries.foldlM addPath? ∅ := by
  refine (toOption_pathsOf [] ∅ entries).trans ?_
  congr 1
  funext paths e
  rw [addPath?, path?, Option.map_map]
  rfl

theorem exists_foldlM_addPath? {entries : Layer} (paths : SortedMap String Path)
    (h : ∀ e ∈ entries, e.2.path?.isSome) : ∃ m, entries.foldlM addPath? paths = some m := by
  induction entries generalizing paths with
  | nil => exact ⟨paths, rfl⟩
  | cons e entries ih =>
    obtain ⟨he, hrest⟩ := List.forall_mem_cons.1 h
    obtain ⟨dir, hdir⟩ := Option.isSome_iff_exists.1 he
    obtain ⟨m, hm⟩ := ih (paths.insert e.1 dir) hrest
    refine ⟨m, ?_⟩
    rw [List.foldlM_cons, addPath?, hdir]
    exact hm

theorem get?_of_foldlM_addPath? {entries : Layer} {paths m : SortedMap String Path}
    (hs : Entries.Sorted compare entries) (h : entries.foldlM addPath? paths = some m) :
    (m.get? key).map some =
      ((Entries.get? compare key entries).map path?).or ((paths.get? key).map some) := by
  induction entries generalizing paths with
  | nil =>
    cases h
    rfl
  | cons e entries ih =>
    obtain ⟨he, hs⟩ := List.pairwise_cons.1 hs
    rw [List.foldlM_cons, Option.bind_eq_bind, Option.bind_eq_some_iff] at h
    obtain ⟨paths', hadd, hrest⟩ := h
    obtain ⟨dir, hdir, rfl⟩ := Option.map_eq_some_iff.1 hadd
    rw [ih hs hrest, SortedMap.get?_insert, Entries.get?_cons]
    by_cases hkey : compare key e.1 = .eq
    · rw [if_pos hkey, if_pos hkey, Entries.get?_eq_none_of_forall_lt he hkey,
        Option.map_some (a := e.2), hdir]
      rfl
    · rw [if_neg hkey, if_neg hkey]

/-- A table of paths has a path for every key that it has a value for. -/
theorem read?_aliases_eq_some_iff {entries : Layer} (hs : Entries.Sorted compare entries)
    {m : SortedMap String Path} :
    (table origin entries).read? .aliases = some m ↔
      ∀ key, (Entries.get? compare key entries).map path? = (m.get? key).map some := by
  rw [read?_aliases]
  constructor
  · intro h key
    rw [get?_of_foldlM_addPath? hs h]
    exact (Option.or_none).symm
  · intro h
    have htyped : ∀ e ∈ entries, e.2.path?.isSome := by
      intro e he
      have hmem : Entries.get? compare e.1 entries = some e.2 :=
        SortedMap.get?_eq_some_iff_mem (m := ⟨entries, hs⟩).2 he
      have heq := h e.1
      rw [hmem, Option.map_some] at heq
      obtain ⟨dir, -, hdir⟩ := Option.map_eq_some_iff.1 heq.symm
      rw [← hdir]
      rfl
    obtain ⟨m', hm'⟩ := exists_foldlM_addPath? ∅ htyped
    have heq : m' = m := SortedMap.ext_get? fun key ↦ by
      refine Option.map_injective (Option.some_injective Path) ?_
      rw [get?_of_foldlM_addPath? hs hm', h key]
      exact Option.or_none
    rw [hm', heq]

/-! ## Values over one another -/

/-- A text takes the place of what is below it. -/
theorem merge_of_path? {below value : Setting} {dir : Path} (h : value.path? = some dir) :
    merge rule below value = value := by
  cases value with
  | text s value => rw [merge]
  | _ => cases h

/-- A table of paths over another one has the path of either, and that of the upper one first. -/
theorem read?_mergeLayers {lower upper : Layer} {x y : SortedMap String Path}
    (hlower : Entries.Sorted compare lower) (hupper : Entries.Sorted compare upper)
    (hx : (table origin lower).read? .aliases = some x)
    (hy : (table origin upper).read? .aliases = some y) :
    (table origin (mergeLayers rule lower upper)).read? .aliases = some (x.overlay y) := by
  rw [read?_aliases_eq_some_iff hlower] at hx
  rw [read?_aliases_eq_some_iff hupper] at hy
  refine (read?_aliases_eq_some_iff (sorted_mergeLayers hlower)).2 fun key ↦ ?_
  rw [get?_mergeLayers hupper, SortedMap.get?_overlay]
  have hkey := hy key
  cases hget : Entries.get? compare key upper with
  | none =>
    rw [hget] at hkey
    rw [Option.map_eq_none_iff.1 hkey.symm, Option.merge_none_right, hx, Option.none_or]
  | some value =>
    rw [hget] at hkey
    obtain ⟨dir, hdir, hvalue⟩ := Option.map_eq_some_iff.1 hkey.symm
    rw [hdir, Option.some_or, Option.map_some, hvalue]
    cases Entries.get? compare key lower with
    | none => rfl
    | some below =>
      rw [Option.merge_some_some, merge_of_path? hvalue.symm]
      rfl

/-- Two values of a field over one another are a value of the field. -/
theorem read?_merge {below above : Setting} {x y : f.Value} (hbelow : below.Tidy)
    (habove : above.Tidy) (hx : below.read? f = some x) (hy : above.read? f = some y) :
    (merge rule below above).read? f = some (f.overlay rule x y) := by
  cases f with
  | external | extensions | scriptExtensions =>
    cases below with
    | list s items =>
      cases above with
      | list t more =>
        have hitems : items.mapM text? = some x := (toOption_textsOf [] 0 items).symm.trans hx
        have hmore : more.mapM text? = some y := (toOption_textsOf [] 0 more).symm.trans hy
        rw [merge_list]
        refine (toOption_textsOf [] 0 _).trans ?_
        cases rule with
        | replace => exact hmore
        | append =>
          rw [List.mapM_append, hitems, hmore]
          rfl
      | _ => cases hy
    | _ => cases hx
  | aliases =>
    cases below with
    | table s lower =>
      cases above with
      | table t upper =>
        rw [merge_table]
        exact read?_mergeLayers hbelow habove hx hy
      | _ => cases hy
    | _ => cases hx
  | entry | marker | maxConcurrency | followDynamic | followReExports =>
    cases above with
    | table t upper => cases hy
    | list t items => cases hy
    | _ => rw [merge]; exact hy

end Setting

/-! ## Layers -/

/-- Values of some of the fields. -/
abbrev Given := (f : Field) → Option f.Value

/-- Values over other ones. -/
def Given.overlay (rule : ListRule) (lower upper : Given) : Given := fun f ↦
  Option.merge (f.overlay rule) (lower f) (upper f)

namespace Layer

variable {layer lower upper : Layer} {given below above : Given}

/-- What is set for a field is a value of the field, and the one that is given. -/
def Gives (layer : Layer) (given : Given) : Prop :=
  ∀ f : Field, (f.value? layer).map (·.read? f) = (given f).map some

theorem Gives.merge (hlower : lower.Tidy) (hupper : upper.Tidy) (nlower : Field.Named lower)
    (nupper : Field.Named upper) (glower : lower.Gives below) (gupper : upper.Gives above) :
    (Layer.merge rule lower upper).Gives (below.overlay rule above) := by
  intro f
  have hname := Field.ofSpelling?_name f
  have hbelow := glower f
  have habove := gupper f
  rw [value?_merge hname hupper.sorted (nlower f) (nupper f), Given.overlay]
  rw [Field.value?_eq_get? hname (nlower f)] at hbelow ⊢
  rw [Field.value?_eq_get? hname (nupper f)] at habove ⊢
  cases hu : Entries.get? compare f.name upper with
  | none =>
    rw [hu] at habove
    rw [Option.merge_none_right, hbelow, Option.map_eq_none_iff.1 habove.symm,
      Option.merge_none_right]
  | some v =>
    rw [hu] at habove
    obtain ⟨y, hy, hread⟩ := Option.map_eq_some_iff.1 habove.symm
    cases hl : Entries.get? compare f.name lower with
    | none =>
      rw [hl] at hbelow
      rw [Option.merge_none_left, habove, Option.map_eq_none_iff.1 hbelow.symm,
        Option.merge_none_left]
    | some w =>
      rw [hl] at hbelow
      obtain ⟨x, hx, hread'⟩ := Option.map_eq_some_iff.1 hbelow.symm
      rw [hx, hy]
      exact congrArg some (Setting.read?_merge (hlower.tidy_of_get? f.name w hl)
        (hupper.tidy_of_get? f.name v hu) hread'.symm hread.symm)

/-- The settings of a layer are the values that it gives, and the defaults of the other fields. -/
theorem Gives.ofLayer (h : layer.Gives given) (hspelled : (Field.spelled layer).Nodup) :
    Settings.ofLayer layer =
      .ok (Settings.ofValues fun f ↦ (given f).getD (Settings.default.value f)) := by
  refine Settings.ofLayer_eq_ok_iff.2 ⟨hspelled, fun f ↦ ?_⟩
  rw [Settings.value_ofValues]
  have hf := h f
  cases hgiven : given f with
  | none =>
    rw [hgiven] at hf
    rw [Option.map_eq_none_iff.1 hf]
    rfl
  | some x =>
    rw [hgiven] at hf
    obtain ⟨value, hvalue, hread⟩ := Option.map_eq_some_iff.1 hf
    rw [hvalue]
    exact hread

end Layer
end ImpactGraph
