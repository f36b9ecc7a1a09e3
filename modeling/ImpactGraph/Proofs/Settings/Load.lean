import ImpactGraph.Proofs.Json
import ImpactGraph.Proofs.Settings.Overrides
import ImpactGraph.Proofs.Settings.Section
import ImpactGraph.Proofs.Settings.Variables

/-!
# What the settings are made of

Settings are loaded from a section, variables and a command line.  Where the values of all three
have the types of their fields, the settings are fixed by what each of them gives, field by field
(`SettingsSource.load_of_gives`).
-/

set_option autoImplicit false

namespace ImpactGraph

variable {members : List (String × Json)} {f : Field} {answers : (q : DiskQuestion) → q.Answer}
  {source : SettingsSource} {overrides : Overrides}

theorem Settings.gives_layerOfMembers {file : Given} (hspelled : (Field.spelled members).Nodup)
    (h : Layer.Gives (members.map fun m ↦ (m.1, Setting.ofJson .given m.2)) file) :
    (layerOfMembers members).Gives file := by
  intro f
  rw [value?_layerOfMembers hspelled, ← Field.value?_map]
  exact h f

/-! ## Values from several layers -/

namespace Given

variable {file environment : Given}

/-- What a file, variables and the command line give together. -/
def together (file environment : Given) (overrides : Overrides) : Given :=
  (file.overlay .replace environment).overlay .append overrides.given

theorem merge_upper {α : Type} (lower upper : Option α) :
    Option.merge (fun _ u ↦ u) lower upper = (upper <|> lower) := by
  cases lower <;> cases upper <;> rfl

theorem merge_upper_upper {α : Type} (lowest lower upper : Option α) :
    Option.merge (fun _ u ↦ u) (Option.merge (fun _ u ↦ u) lowest lower) upper =
      (upper <|> lower <|> lowest) := by
  rw [merge_upper, merge_upper]

/-- A list of the command line continues the one below it. -/
theorem getD_external_together :
    (together file environment overrides .external).getD [] =
      (environment .external <|> file .external).getD [] ++ overrides.external := by
  show (Option.merge (· ++ ·) (Option.merge (fun _ u ↦ u) _ _)
    (if overrides.external.isEmpty then _ else _)).getD [] = _
  rw [merge_upper]
  cases hlist : overrides.external with
  | nil => simp
  | cons name names => cases (environment .external <|> file .external) <;> simp

theorem bind_get?_merge {lower upper : Option (SortedMap String Path)} {key : String} :
    (Option.merge SortedMap.overlay lower upper).bind (·.get? key) =
      (upper.bind (·.get? key) <|> lower.bind (·.get? key)) := by
  cases lower <;> cases upper <;> simp [SortedMap.get?_overlay]

theorem bind_get?_given {key : String} :
    (overrides.given .aliases).bind (·.get? key) = overrides.aliases.get? key := by
  rw [Overrides.given]
  split
  · next hempty =>
    rw [SortedMap.isEmpty, List.isEmpty_iff] at hempty
    rw [SortedMap.get?, SortedMap.find?, hempty]
    rfl
  · rfl

/-- An alias stands for the directory of the highest layer that has it. -/
theorem get?_aliases_together {key : String} :
    ((together file environment overrides .aliases).getD ∅).get? key =
      (overrides.aliases.get? key <|>
        (environment .aliases).bind (·.get? key) <|> (file .aliases).bind (·.get? key)) := by
  have hempty (found : Option (SortedMap String Path)) :
      (found.getD ∅).get? key = found.bind (·.get? key) := by
    cases found <;> rfl
  rw [hempty]
  show (Option.merge SortedMap.overlay (Option.merge SortedMap.overlay _ _) _).bind _ = _
  rw [bind_get?_merge, bind_get?_merge, bind_get?_given]

end Given

/-! ## All layers together -/

namespace SettingsSource

variable {file environment : Given}

theorem tidy_layers {layer : Layer} {vars : List (String × String)} (h : layer.Tidy) :
    (layers layer vars overrides).Tidy :=
  (h.merge (Variables.tidy_layer vars)).merge Layer.tidy_layerOfJson

theorem named_layers (hnames : Variables.Named source.environment) :
    Field.Named (layers (Settings.layerOfMembers members) source.environment overrides) :=
  Layer.named_merge
    (Layer.named_merge (Settings.named_layerOfMembers members) (Variables.named_layer hnames))
    (Overrides.named_toLayer overrides)

theorem gives_layers (hspelled : (Field.spelled members).Nodup)
    (hfile : Layer.Gives (members.map fun m ↦ (m.1, Setting.ofJson .given m.2)) file)
    (hnames : Variables.Named source.environment)
    (henv : (Variables.layer source.environment).Gives environment) :
    (layers (Settings.layerOfMembers members) source.environment overrides).Gives
      (Given.together file environment overrides) := by
  have tfile := Settings.tidy_layerOfMembers members
  have tenv := Variables.tidy_layer source.environment
  have nfile := Settings.named_layerOfMembers members
  have nenv := Variables.named_layer hnames
  have hbelow : (Layer.merge .replace (Settings.layerOfMembers members)
      (Variables.layer source.environment)).Gives (file.overlay .replace environment) :=
    Layer.Gives.merge tfile tenv nfile nenv (Settings.gives_layerOfMembers hspelled hfile) henv
  exact hbelow.merge (tfile.merge tenv) Layer.tidy_layerOfJson (Layer.named_merge nfile nenv)
    (Overrides.named_toLayer overrides) (Overrides.gives_toMembers overrides)

/-- **The highest layer counts.**  The settings that are loaded from a section, variables that set
fields under their names and a command line, all with values of the types of their fields: lists of
the command line are appended, directories by alias are those of all layers, and else the highest
layer that sets a field has set it. -/
theorem load_of_gives (overrides : Overrides) (hreads : source.Reads answers members)
    (hspelled : (Field.spelled members).Nodup)
    (hfile : Layer.Gives (members.map fun m ↦ (m.1, Setting.ofJson .given m.2)) file)
    (hnames : Variables.Named source.environment)
    (henv : (Variables.layer source.environment).Gives environment) :
    ∃ aliases : SortedMap String Path,
      (∀ key, aliases.get? key =
        (overrides.aliases.get? key <|>
          (environment .aliases).bind (·.get? key) <|> (file .aliases).bind (·.get? key))) ∧
      (source.load overrides).run answers = .ok
        { entry := (overrides.entry.map some <|> environment .entry <|> file .entry).getD none
          external := (environment .external <|> file .external).getD [] ++ overrides.external
          aliases
          extensions := (environment .extensions <|> file .extensions).getD
            ScanConfig.defaultExtensions
          scriptExtensions := (environment .scriptExtensions <|> file .scriptExtensions).getD
            ScanConfig.defaultScriptExtensions
          marker := (overrides.marker <|> environment .marker <|> file .marker).getD
            Descriptor.defaultMarker
          maxConcurrency :=
            (overrides.maxConcurrency <|> environment .maxConcurrency <|>
              file .maxConcurrency).getD ScanConfig.defaultMaxConcurrency
          followDynamic :=
            (overrides.followDynamic <|> environment .followDynamic <|>
              file .followDynamic).getD true
          followReExports :=
            (overrides.followReExports <|> environment .followReExports <|>
              file .followReExports).getD false } := by
  refine ⟨(Given.together file environment overrides .aliases).getD ∅,
    fun key ↦ Given.get?_aliases_together, ?_⟩
  rw [run_load_of_reads hreads, (gives_layers hspelled hfile hnames henv).ofLayer
    (Field.nodup_spelled (tidy_layers (Settings.tidy_layerOfMembers members)).sorted fun f ↦
      ⟨f.name, named_layers hnames f⟩)]
  refine congrArg Except.ok (Settings.ext_value fun f ↦ ?_)
  rw [Settings.value_ofValues]
  -- only the command line appends, and it cannot set the lists of extensions
  cases f with
  | external => exact Given.getD_external_together
  | aliases => rfl
  | extensions | scriptExtensions =>
    exact congrArg (Option.getD · _) ((Option.merge_none_right).trans (Given.merge_upper _ _))
  | _ => exact congrArg (Option.getD · _) (Given.merge_upper_upper _ _ _)

/-- A settings file with two fields under their other spellings. -/
def Layered.text : String := "maxConcurrency = 4\n[alias]\nx = \"a\"\ny = \"b\"\n"

/-- The section in it. -/
def Layered.inFile : List (String × Json) :=
  [("alias", .object [("x", .string "a"), ("y", .string "b")]), ("maxConcurrency", .nat 4)]

/-- What the section gives. -/
def Layered.fromFile : Given
  | .aliases => some (.ofList [("x", .ofText "a"), ("y", .ofText "b")])
  | .maxConcurrency => some 4
  | _ => none

/-- A repository, and variables that set a list and an alias. -/
def Layered.repository : SettingsSource where
  root := .ofText "r"
  file := none
  environment := [("DEPSCOPE_EXTERNAL", "[vue]"), ("DEPSCOPE_ALIASES.y", "c"), ("PATH", "/bin")]

/-- What the variables give. -/
def Layered.fromVariables : Given
  | .external => some ["vue"]
  | .aliases => some (.ofList [("y", .ofText "c")])
  | _ => none

/-- A command line with a name for the list, and a number. -/
def Layered.flags : Overrides :=
  { Overrides.none with external := ["axios"], maxConcurrency := some 8 }

theorem load_layered :
    ∃ settings, (Layered.repository.load Layered.flags).run (diskOf Layered.text) = .ok settings ∧
      settings.maxConcurrency = 8 ∧ settings.external = ["vue", "axios"] ∧
        settings.aliases.get? "x" = some (.ofText "a") ∧
          settings.aliases.get? "y" = some (.ofText "c") ∧
            settings.marker = Descriptor.defaultMarker := by
  have hreads : Layered.repository.Reads (diskOf Layered.text) Layered.inFile :=
    .file rfl (.own (by decide) rfl (by decide +kernel))
  have hfile : Layer.Gives (Layered.inFile.map fun m ↦ (m.1, Setting.ofJson .given m.2))
      Layered.fromFile := by
    intro f
    cases f <;> decide
  have henv : (Variables.layer Layered.repository.environment).Gives Layered.fromVariables := by
    intro f
    cases f <;> decide
  obtain ⟨aliases, haliases, hload⟩ :=
    load_of_gives Layered.flags hreads (by decide) hfile (by decide) henv
  refine ⟨_, hload, rfl, rfl, ?_, ?_, rfl⟩
  · rw [haliases]
    decide
  · rw [haliases]
    decide

end SettingsSource
end ImpactGraph
