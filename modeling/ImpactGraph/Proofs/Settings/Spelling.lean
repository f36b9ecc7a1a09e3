import ImpactGraph.Proofs.Settings.Load

/-!
# Where the spelling of a field counts

A section is renamed before it is a layer, so that it does not matter how fields are spelled in it
(`Settings.layerOfMembers_eq_of_perm`).  Variables are not renamed.  A field that they set under its
other spelling is read all the same as long as they are the only ones to set it; where the section
or the command line sets the field too, it goes by two keys and nothing is loaded
(`SettingsSource.load_respelled`).
-/

set_option autoImplicit false

namespace ImpactGraph

variable {members members' : List (String × Json)} {f : Field}
  {environment environment' : List (String × String)} {overrides : Overrides}

/-! ## Sections -/

/-- The order of the members and the spelling of the fields do not count. -/
theorem Settings.layerOfMembers_eq_of_perm
    (h : (Field.renamed members).Perm (Field.renamed members'))
    (hkeys : ((Field.renamed members).map Prod.fst).Nodup) :
    layerOfMembers members = layerOfMembers members' := by
  have hkeys' := ((h.map Prod.fst).nodup_iff).1 hkeys
  have heq : (⟨layerOfMembers members, Setting.sorted_layerOfJson⟩ : SortedMap String Setting) =
      ⟨layerOfMembers members', Setting.sorted_layerOfJson⟩ := by
    refine SortedMap.ext_get? fun key ↦ ?_
    show Entries.get? compare key (layerOfMembers members) =
      Entries.get? compare key (layerOfMembers members')
    rw [get?_layerOfMembers, get?_layerOfMembers,
      Entries.get?_perm ((List.reverse_perm _).trans (h.trans (List.reverse_perm _).symm))]
    rw [List.map_reverse]
    exact List.nodup_reverse.2 hkeys
  exact congrArg SortedMap.entries heq

/-- Layers that set the same for every field give the same settings. -/
theorem Settings.toOption_ofLayer_congr {layer layer' : Layer} (h : (Field.spelled layer).Nodup)
    (h' : (Field.spelled layer').Nodup) (hvalue : ∀ f : Field, f.value? layer = f.value? layer') :
    (ofLayer layer).toOption = (ofLayer layer').toOption := by
  have hiff (settings : Settings) :
      ofLayer layer = .ok settings ↔ ofLayer layer' = .ok settings := by
    simp only [ofLayer_eq_ok_iff, h, h', hvalue]
  cases hl : ofLayer layer with
  | ok settings => rw [(hiff settings).1 hl]
  | error fault =>
    cases hl' : ofLayer layer' with
    | ok settings => rw [(hiff settings).2 hl'] at hl; cases hl
    | error fault' => rfl

/-! ## Variables -/

namespace Variables

/-- Two variables with the same text, whose names may spell the field differently. -/
def Respelled (v w : String × String) : Prop :=
  v.2 = w.2 ∧ (keys v.1).tail = (keys w.1).tail ∧
    (keys v.1).head?.map Field.canonical = (keys w.1).head?.map Field.canonical

/-- Every field is set under one spelling. -/
def Uniform (environment : List (String × String)) : Prop :=
  ∀ f : Field, ∃ key, ∀ v ∈ environment, ∀ k ∈ (keys v.1).head?,
    Field.ofSpelling? k = some f → k = key

/-- A field is set under a spelling that is not its name. -/
def Strays (f : Field) (environment : List (String × String)) : Prop :=
  ∃ v ∈ environment, ∃ k ∈ (keys v.1).head?, Field.ofSpelling? k = some f ∧ k ≠ f.name

theorem Respelled.value?_eq {v w : String × String} (h : Respelled v w) :
    f.value? (ofVariable v) = f.value? (ofVariable w) := by
  obtain ⟨htext, htail, hhead⟩ := h
  rw [ofVariable, ofVariable]
  cases hv : keys v.1 with
  | nil =>
    rw [hv] at hhead
    rw [List.head?_eq_none_iff.1 (Option.map_eq_none_iff.1 hhead.symm)]
  | cons k ks =>
    cases hw : keys w.1 with
    | nil =>
      rw [hv, hw] at hhead
      cases hhead
    | cons k' ks' =>
      rw [hv, hw] at hhead htail
      have hk : Field.ofSpelling? k = Field.ofSpelling? k' := by
        rw [← Field.ofSpelling?_canonical k, ← Field.ofSpelling?_canonical k']
        exact congrArg _ (Option.some_inj.1 hhead)
      obtain rfl : ks = ks' := htail
      dsimp only
      rw [Field.value?_cons, Field.value?_cons, hk, htext]

/-- A field that variables set under one spelling goes by one of its spellings. -/
theorem Uniform.exists_goesBy (h : Uniform environment) (f : Field) :
    ∃ key, Field.ofSpelling? key = some f ∧ ∀ v ∈ environment, f.GoesBy key (ofVariable v) := by
  obtain ⟨key, hkey⟩ := h f
  by_cases hset : ∃ v ∈ environment, ∃ k ∈ (keys v.1).head?, Field.ofSpelling? k = some f
  · obtain ⟨v, hv, k, hk, hf⟩ := hset
    obtain rfl := hkey v hv k hk hf
    exact ⟨k, hf, fun v hv k' hk' ↦ hkey v hv k' (mem_keys_ofVariable.1 hk')⟩
  · refine ⟨f.name, Field.ofSpelling?_name f, fun v hv k hk hf ↦ absurd ?_ hset⟩
    exact ⟨v, hv, k, mem_keys_ofVariable.1 hk, hf⟩

theorem map_value?_eq_of_respelled (h : List.Forall₂ Respelled environment environment') :
    (environment.map fun v ↦ f.value? (ofVariable v)) =
      environment'.map fun v ↦ f.value? (ofVariable v) := by
  induction h with
  | nil => rfl
  | cons hvw _ ih => rw [List.map_cons, List.map_cons, hvw.value?_eq, ih]

/-- What variables set for a field does not depend on its spelling. -/
theorem value?_layer_eq_of_respelled (h : List.Forall₂ Respelled environment environment')
    (huniform : Uniform environment) (hnames : Named environment') :
    f.value? (layer environment) = f.value? (layer environment') := by
  obtain ⟨key, hkey, hgoes⟩ := huniform.exists_goesBy f
  rw [value?_layer hkey hgoes, value?_layer (Field.ofSpelling?_name f) fun v hv ↦
    hnames.ofVariable hv f]
  congr 1
  exact map_value?_eq_of_respelled h

end Variables

/-! ## Layers -/

namespace SettingsSource

variable {file : Layer}

theorem mem_keys_layers {key : String} :
    key ∈ (layers file environment overrides).map Prod.fst ↔
      key ∈ file.map Prod.fst ∨ key ∈ (Variables.layer environment).map Prod.fst ∨
        key ∈ overrides.toMembers.map Prod.fst := by
  rw [layers, Layer.merge, Layer.merge, Setting.mem_keys_mergeLayers, Setting.mem_keys_mergeLayers,
    Setting.mem_keys_layerOfJson, or_assoc]

theorem value?_layers {key : String} (hkey : Field.ofSpelling? key = some f)
    (hfile : f.GoesBy key file) (henv : f.GoesBy key (Variables.layer environment))
    (hflags : f.GoesBy key overrides.toMembers) :
    f.value? (layers file environment overrides) =
      Option.merge (Setting.merge .append)
        (Option.merge (Setting.merge .replace) (f.value? file)
          (f.value? (Variables.layer environment)))
        (f.value? (Setting.layerOfJson .given overrides.toMembers)) := by
  rw [layers, Layer.value?_merge hkey Setting.sorted_layerOfJson (Layer.goesBy_merge hfile henv)
    (Layer.goesBy_layerOfJson.2 hflags),
    Layer.value?_merge hkey (Variables.tidy_layer environment).sorted hfile henv]

/-- A field that is set by variables under another spelling than its name, and elsewhere too. -/
def Clashes (members : List (String × Json)) (environment : List (String × String))
    (overrides : Overrides) : Prop :=
  ∃ f, Variables.Strays f environment ∧
    (f ∈ Field.spelled members ∨ f ∈ Field.spelled overrides.toMembers)

/-- A field that is set under two spellings goes by two keys. -/
theorem not_nodup_of_clashes (h : Clashes members environment overrides) :
    ¬(Field.spelled (layers (Settings.layerOfMembers members) environment overrides)).Nodup := by
  obtain ⟨f, ⟨v, hv, k, hk, hf, hne⟩, hother⟩ := h
  intro hnodup
  have hstray : k ∈ (layers (Settings.layerOfMembers members) environment overrides).map
      Prod.fst :=
    mem_keys_layers.2 (.inr (.inl (Variables.mem_keys_layer.2 ⟨v, hv, hk⟩)))
  have hname : f.name ∈ (layers (Settings.layerOfMembers members) environment overrides).map
      Prod.fst := by
    rcases hother with hmem | hmem
    · refine mem_keys_layers.2 (.inl (Settings.mem_keys_layerOfMembers.2 ?_))
      rwa [Field.name_mem_keys_iff Field.named_renamed, Field.spelled_renamed]
    · refine mem_keys_layers.2 (.inr (.inr ?_))
      rwa [Field.name_mem_keys_iff (Overrides.named_toMembers overrides)]
  obtain ⟨e, he, rfl⟩ := List.mem_map.1 hstray
  obtain ⟨e', he', hname'⟩ := List.mem_map.1 hname
  have heq := Field.eq_of_ofSpelling? hnodup he he' hf (hname' ▸ Field.ofSpelling?_name f)
  exact hne (heq ▸ hname')

/-- Where nothing clashes, every field goes by one key in all layers. -/
theorem exists_goesBy (huniform : Variables.Uniform environment)
    (hclash : ¬Clashes members environment overrides) (f : Field) :
    ∃ key, Field.ofSpelling? key = some f ∧
      f.GoesBy key (Settings.layerOfMembers members) ∧
        f.GoesBy key (Variables.layer environment) ∧ f.GoesBy key overrides.toMembers := by
  by_cases hstrays : Variables.Strays f environment
  · obtain ⟨key, hkey, hgoes⟩ := huniform.exists_goesBy f
    refine ⟨key, hkey, fun k hk hf ↦ absurd ⟨f, hstrays, .inl ?_⟩ hclash,
      Variables.goesBy_layer hgoes, fun k hk hf ↦ absurd ⟨f, hstrays, .inr ?_⟩ hclash⟩
    · rw [← Field.spelled_renamed]
      exact Field.mem_spelled_iff.2 ⟨k, Settings.mem_keys_layerOfMembers.1 hk, hf⟩
    · exact Field.mem_spelled_iff.2 ⟨k, hk, hf⟩
  · refine ⟨f.name, Field.ofSpelling?_name f, Settings.named_layerOfMembers members f,
      fun k hk hf ↦ ?_, Overrides.named_toMembers overrides f⟩
    obtain ⟨v, hv, hkv⟩ := Variables.mem_keys_layer.1 hk
    exact not_not.1 fun hne ↦ hstrays ⟨v, hv, k, hkv, hf, hne⟩

theorem nodup_spelled_layers (h : ∀ f : Field, ∃ key,
      f.GoesBy key (Settings.layerOfMembers members) ∧
        f.GoesBy key (Variables.layer environment) ∧ f.GoesBy key overrides.toMembers) :
    (Field.spelled (layers (Settings.layerOfMembers members) environment overrides)).Nodup := by
  refine Field.nodup_spelled (tidy_layers (Settings.tidy_layerOfMembers members)).sorted fun f ↦ ?_
  obtain ⟨key, hfile, henv, hflags⟩ := h f
  exact ⟨key, Layer.goesBy_merge (Layer.goesBy_merge hfile henv)
    (Layer.goesBy_layerOfJson.2 hflags)⟩

/-- Variables that clash with nothing may as well set every field under its name. -/
theorem toOption_ofLayer_layers (huniform : Variables.Uniform environment)
    (hnames : Variables.Named environment')
    (hrespelled : List.Forall₂ Variables.Respelled environment environment')
    (hclash : ¬Clashes members environment overrides) :
    (Settings.ofLayer (layers (Settings.layerOfMembers members) environment overrides)).toOption =
      (Settings.ofLayer
        (layers (Settings.layerOfMembers members) environment' overrides)).toOption := by
  have hgoes := exists_goesBy huniform hclash
  have hgoes' (f : Field) : f.GoesBy f.name (Settings.layerOfMembers members) ∧
      f.GoesBy f.name (Variables.layer environment') ∧ f.GoesBy f.name overrides.toMembers :=
    ⟨Settings.named_layerOfMembers members f, Variables.named_layer hnames f,
      Overrides.named_toMembers overrides f⟩
  refine Settings.toOption_ofLayer_congr
    (nodup_spelled_layers fun f ↦ (hgoes f).imp fun key h ↦ h.2)
    (nodup_spelled_layers fun f ↦ ⟨f.name, hgoes' f⟩) fun f ↦ ?_
  obtain ⟨key, hkey, hfile, henv, hflags⟩ := hgoes f
  obtain ⟨hfile', henv', hflags'⟩ := hgoes' f
  rw [value?_layers hkey hfile henv hflags,
    value?_layers (Field.ofSpelling?_name f) hfile' henv' hflags',
    Variables.value?_layer_eq_of_respelled hrespelled huniform hnames]

variable {source other : SettingsSource} {answers answers' : (q : DiskQuestion) → q.Answer}

/-- **Only variables that clash depend on their spelling.**  Two sources whose sections differ in
the spelling of fields load the same settings, or fail alike.  If their variables differ so too,
those of the second one under names, they load the same settings unless a field of the first one
clashes; then the first one loads none. -/
theorem load_respelled (overrides : Overrides) (hreads : source.Reads answers members)
    (hreads' : other.Reads answers' members')
    (hkeys : ((Field.renamed members).map Prod.fst).Nodup)
    (hmembers : (Field.renamed members).Perm (Field.renamed members')) :
    (source.environment = other.environment →
      (source.load overrides).run answers = (other.load overrides).run answers') ∧
    (Variables.Uniform source.environment → Variables.Named other.environment →
      List.Forall₂ Variables.Respelled source.environment other.environment →
        (¬Clashes members source.environment overrides →
          ((source.load overrides).run answers).toOption =
            ((other.load overrides).run answers').toOption) ∧
        (Clashes members source.environment overrides →
          ∃ fault, (source.load overrides).run answers = .error fault)) := by
  rw [run_load_of_reads hreads, run_load_of_reads hreads',
    ← Settings.layerOfMembers_eq_of_perm hmembers hkeys]
  refine ⟨fun henv ↦ by rw [henv], fun huniform hnames hrespelled ↦ ⟨fun hclash ↦
    toOption_ofLayer_layers huniform hnames hrespelled hclash, fun hclash ↦ ?_⟩⟩
  cases hload : Settings.ofLayer
      (layers (Settings.layerOfMembers members) source.environment overrides) with
  | error fault => exact ⟨fault, rfl⟩
  | ok settings =>
    exact absurd (Settings.ofLayer_eq_ok_iff.1 hload).1 (not_nodup_of_clashes hclash)

/-- A repository, and a variable of this name that sets a directory by alias. -/
def Aliased.repository (name : String) : SettingsSource where
  root := .ofText "r"
  file := none
  environment := [(name, "\x7bx=y\x7d")]

theorem Aliased.not_clashes : ¬Clashes [("maxConcurrency", .nat 4)]
    (repository "DEPSCOPE_ALIAS").environment .none := by
  rintro ⟨f, ⟨v, hv, k, hk, hf, -⟩, hother⟩
  obtain rfl := List.mem_singleton.1 hv
  have hkey : (Variables.keys "DEPSCOPE_ALIAS").head? = some "alias" := by decide
  have hfield : Field.ofSpelling? "alias" = some .aliases := by decide
  obtain rfl := Option.some_inj.1 (hkey.symm.trans hk)
  obtain rfl := Option.some_inj.1 (hfield.symm.trans hf)
  exact absurd hother (by decide)

theorem load_respelled_aliased :
    (((Aliased.repository "DEPSCOPE_ALIAS").load .none).run
      (diskOf "maxConcurrency = 4")).toOption =
        (((Aliased.repository "DEPSCOPE_ALIASES").load .none).run
          (diskOf "max_concurrency = 4")).toOption := by
  have hreads : (Aliased.repository "DEPSCOPE_ALIAS").Reads (diskOf "maxConcurrency = 4")
      [("maxConcurrency", .nat 4)] :=
    .file rfl (.own (by decide) rfl (by decide +kernel))
  have hreads' : (Aliased.repository "DEPSCOPE_ALIASES").Reads (diskOf "max_concurrency = 4")
      [("max_concurrency", .nat 4)] :=
    .file rfl (.own (by decide) rfl (by decide +kernel))
  have huniform : Variables.Uniform (Aliased.repository "DEPSCOPE_ALIAS").environment := fun f ↦
    ⟨if f = .aliases then "alias" else f.name, by cases f <;> decide⟩
  exact ((load_respelled .none hreads hreads' (by decide) (by decide)).2 huniform
    (by decide) (.cons ⟨rfl, by decide, by decide⟩ .nil)).1
    Aliased.not_clashes

/-- A settings file with a directory by alias. -/
def Aliased.text : String := "entry = \"a.js\"\n[aliases]\n\"@\" = \"src\"\n"

/-- Here the other spelling is refused, and the name is not. -/
theorem unreadable_of_aliased :
    Variables.Respelled ("DEPSCOPE_ALIAS", "\x7bx=y\x7d") ("DEPSCOPE_ALIASES", "\x7bx=y\x7d") ∧
      ((Aliased.repository "DEPSCOPE_ALIAS").load .none).run (diskOf Aliased.text) =
        .error .unreadable ∧
      ((Aliased.repository "DEPSCOPE_ALIASES").load .none).run (diskOf Aliased.text) =
        .ok { Settings.default with
          entry := some (.ofText "a.js")
          aliases := .ofList [("@", .ofText "src"), ("x", .ofText "y")] } :=
  ⟨⟨rfl, by decide, by decide⟩, by decide +kernel, by decide +kernel⟩

end SettingsSource
end ImpactGraph
