import ImpactGraph.Files.Disk
import ImpactGraph.Settings.Decode
import ImpactGraph.Settings.Variables
import ImpactGraph.Toml.Document

/-!
# Loading settings

The settings of a repository stand in a file of its own in the root, or else under a field of the
package file there.  `SettingsSource.load` lays what variables set over what the file sets, and what
the command line sets over both; the lists of the command line are appended to the ones below.
-/

set_option autoImplicit false

namespace ImpactGraph
namespace Settings

/-- The name of the settings file. -/
def fileName : String := "depscope.toml"

/-- The name of the package file. -/
def packageFileName : String := "package.json"

/-- The field of the package file that holds settings. -/
def packageField : String := "depscope"

/-! ## Files -/

/-- The settings in a package file, if there are any. -/
def packageSection (path : Path) : Disk (Except SettingsFault (Option Json)) := do
  match ← Disk.text path with
  | .error error => return .error (.io error)
  | .ok text =>
    match Json.parse? text with
    | none =>
      return .error (.invalidValue packageFileName ("invalid JSON: " ++ SettingsFault.loadDetail))
    | some value =>
      match value.member? packageField with
      | none | some .null => return .ok none
      | some value => return .ok (some value)

/-- The settings file of the repository at `root`: the one of its own, or else the package file if
it holds settings. -/
def findFile (root : Path) : Disk (Option Path) := do
  let own := root.join (.ofText fileName)
  if ← Disk.isFile own then return some own
  let package := root.join (.ofText packageFileName)
  if ← Disk.isFile package then
    if let .ok (some _) := ← packageSection package then return some package
  return none

/-- The layer of a section, in which every field goes by its name.  Of two spellings of a field the
one that comes later in the order of texts is taken. -/
def layerOfSection? : Json → Option Layer
  | .object members =>
    let named := Json.ofMembers (members.map fun (key, value) ↦ (Field.canonical key, value))
    some (Setting.layerOfJson .given (named.members?.getD []))
  | _ => none

/-- The layer of a settings file, by its extension. -/
def layerOfFile (path : Path) : Disk (Except SettingsFault Layer) := do
  let ofSection (value : Json) : Except SettingsFault Layer :=
    match layerOfSection? value with
    | some layer => .ok layer
    | none => .error .unreadable
  match path.extension? with
  | some "toml" =>
    match ← Disk.text path with
    | .error _ => return .error .unreadable
    | .ok text =>
      match Toml.parse? text with
      | some value => return ofSection value
      | none => return .error .unreadable
  | some "json" =>
    match ← packageSection path with
    | .error fault => return .error fault
    | .ok (some value) => return ofSection value
    | .ok none =>
      return .error (.invalidValue packageField s!"'{path.text}' has no '{packageField}' field")
  | _ => return .error (.unsupportedFormat path)

end Settings

/-! ## Sources -/

/-- Where the settings of a repository are taken from. -/
structure SettingsSource where
  /-- The root of the repository. -/
  root : Path
  /-- A settings file, taken from the root, in place of the one that would be found. -/
  file : Option Path
  /-- The names and texts of the variables, later ones over earlier. -/
  environment : List (String × String)
  deriving Inhabited

namespace SettingsSource

/-- The settings file. -/
def settingsFile (source : SettingsSource) : Disk (Except SettingsFault (Option Path)) := do
  match source.file with
  | none => return .ok (← Settings.findFile source.root)
  | some file =>
    let path := source.root.join file
    if ← Disk.isFile path then return .ok (some path) else return .error (.notFound path)

/-- The layer of the settings file; without a file it is empty. -/
def fileLayer (source : SettingsSource) : Disk (Except SettingsFault Layer) := do
  match ← source.settingsFile with
  | .error fault => return .error fault
  | .ok none => return .ok []
  | .ok (some path) => Settings.layerOfFile path

/-- What a file, variables and the command line set together. -/
def layers (file : Layer) (environment : List (String × String)) (overrides : Overrides) : Layer :=
  Layer.merge .append (Layer.merge .replace file (Variables.layer environment))
    (Setting.layerOfJson .given overrides.toMembers)

/-- The settings of a repository, with overrides. -/
def load (source : SettingsSource) (overrides : Overrides) :
    Disk (Except SettingsFault Settings) := do
  match ← source.fileLayer with
  | .error fault => return .error fault
  | .ok file => return Settings.ofLayer (layers file source.environment overrides)

end SettingsSource
end ImpactGraph
