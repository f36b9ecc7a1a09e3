import ImpactGraph.Json.Value
import ImpactGraph.Scan.Config

/-!
# Settings

`Settings` are what a user can set for a repository: everything of a `ScanConfig` but the root.  An
`Overrides` value holds what is set on the command line, where everything may be left out.

Each setting is a `Field`, which has a name and may have a second spelling.
-/

set_option autoImplicit false

namespace ImpactGraph

/-- What a user can set. -/
inductive Field
  /-- The file that a scan starts from. -/
  | entry
  /-- The names of external packages. -/
  | external
  /-- Directories by alias. -/
  | aliases
  /-- The extensions that are tried. -/
  | extensions
  /-- The extensions of scripts. -/
  | scriptExtensions
  /-- The text that picks the descriptor comment. -/
  | marker
  /-- The most files at a time. -/
  | maxConcurrency
  /-- Whether calls of `import` are followed. -/
  | followDynamic
  /-- Whether exports from other modules are followed. -/
  | followReExports
  deriving DecidableEq, Repr, Inhabited

namespace Field

/-- All fields, in the order in which they are written. -/
def all : List Field :=
  [.entry, .external, .aliases, .extensions, .scriptExtensions, .marker, .maxConcurrency,
    .followDynamic, .followReExports]

/-- The name of a field. -/
def name : Field → String
  | .entry => "entry"
  | .external => "external"
  | .aliases => "aliases"
  | .extensions => "extensions"
  | .scriptExtensions => "script_extensions"
  | .marker => "marker"
  | .maxConcurrency => "max_concurrency"
  | .followDynamic => "follow_dynamic_imports"
  | .followReExports => "follow_reexports"

/-- The second spelling of a field, if it has one. -/
def otherName? : Field → Option String
  | .aliases => some "alias"
  | .scriptExtensions => some "scriptExtensions"
  | .maxConcurrency => some "maxConcurrency"
  | .followDynamic => some "followDynamicImports"
  | .followReExports => some "followReexports"
  | _ => none

/-- The field that is spelled like this. -/
def ofSpelling? (spelling : String) : Option Field :=
  all.find? fun field ↦ field.name == spelling || field.otherName? == some spelling

/-- The name of the field that is spelled like this; any other spelling stays as it is. -/
def canonical (spelling : String) : String :=
  match ofSpelling? spelling with
  | some field => field.name
  | none => spelling

end Field

/-- What a user has set, with defaults for the rest. -/
structure Settings where
  /-- The file that a scan starts from, taken from the root. -/
  entry : Option Path
  /-- The names of external packages, which are not followed. -/
  external : List String
  /-- Directories by alias; a relative one is taken from the root. -/
  aliases : SortedMap String Path
  /-- The extensions that are tried, in order, where a specifier does not name a file. -/
  extensions : List String
  /-- The extensions of files that are parsed and walked. -/
  scriptExtensions : List String
  /-- The text that picks the descriptor comment. -/
  marker : String
  /-- The most files that are loaded and parsed at a time. -/
  maxConcurrency : Nat
  /-- Whether calls of `import` are followed. -/
  followDynamic : Bool
  /-- Whether exports from other modules are followed. -/
  followReExports : Bool
  deriving Inhabited

namespace Settings

/-- The settings when nothing is set. -/
def default : Settings where
  entry := none
  external := []
  aliases := ∅
  extensions := ScanConfig.defaultExtensions
  scriptExtensions := ScanConfig.defaultScriptExtensions
  marker := Descriptor.defaultMarker
  maxConcurrency := ScanConfig.defaultMaxConcurrency
  followDynamic := true
  followReExports := false

/-- What a scan of the repository at `root` is told, if there is an entry. -/
def toScanConfig? (settings : Settings) (root : Path) : Option ScanConfig :=
  settings.entry.map fun entry ↦
    { root, entry
      external := settings.external
      aliases := settings.aliases
      extensions := settings.extensions
      scriptExtensions := settings.scriptExtensions
      marker := settings.marker
      maxConcurrency := settings.maxConcurrency
      followDynamic := settings.followDynamic
      followReExports := settings.followReExports }

end Settings

/-- What is set on the command line. -/
structure Overrides where
  /-- The file that a scan starts from. -/
  entry : Option Path
  /-- Names of external packages, added to those that are set already. -/
  external : List String
  /-- Directories by alias, added to those that are set already. -/
  aliases : SortedMap String Path
  /-- The text that picks the descriptor comment. -/
  marker : Option String
  /-- The most files at a time. -/
  maxConcurrency : Option Nat
  /-- Whether calls of `import` are followed. -/
  followDynamic : Option Bool
  /-- Whether exports from other modules are followed. -/
  followReExports : Option Bool
  deriving Inhabited

namespace Overrides

/-- Nothing is set. -/
def none : Overrides := ⟨.none, [], ∅, .none, .none, .none, .none⟩

/-- The member of a field, unless it is left out. -/
def member {α : Type} (field : Field) (value : Option α) (toJson : α → Json) :
    List (String × Json) :=
  match value with
  | some value => [(field.name, toJson value)]
  | .none => []

/-- Directories by alias as JSON. -/
def aliasesToJson (aliases : SortedMap String Path) : Json :=
  .object (aliases.entries.map fun (name, dir) ↦ (name, .string dir.text))

/-- What is set, as the members of an object in the order of their names. -/
def toMembers (o : Overrides) : List (String × Json) :=
  member .aliases (if o.aliases.isEmpty then .none else some o.aliases) aliasesToJson ++
    member .entry o.entry (fun path ↦ .string path.text) ++
    member .external (if o.external.isEmpty then .none else some o.external) Json.strings ++
    member .followDynamic o.followDynamic .bool ++
    member .followReExports o.followReExports .bool ++
    member .marker o.marker .string ++
    member .maxConcurrency o.maxConcurrency Json.nat

/-- What is set, as JSON. -/
def toJson (o : Overrides) : Json := .object o.toMembers

end Overrides

/-- Settings as JSON; an entry that is not set is left out. -/
def Settings.toJson (settings : Settings) : Json :=
  .object
    (Overrides.member .entry settings.entry (fun path ↦ .string path.text) ++
      [(Field.external.name, .strings settings.external),
        (Field.aliases.name, Overrides.aliasesToJson settings.aliases),
        (Field.extensions.name, .strings settings.extensions),
        (Field.scriptExtensions.name, .strings settings.scriptExtensions),
        (Field.marker.name, .string settings.marker),
        (Field.maxConcurrency.name, .nat settings.maxConcurrency),
        (Field.followDynamic.name, .bool settings.followDynamic),
        (Field.followReExports.name, .bool settings.followReExports)])

end ImpactGraph
