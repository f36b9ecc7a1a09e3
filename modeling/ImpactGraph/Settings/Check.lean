import ImpactGraph.Files.Disk
import ImpactGraph.Settings.Basic
import ImpactGraph.Settings.Fault
import ImpactGraph.Text.Blank

/-!
# Checking settings before a scan

`Settings.fault?` finds the first value that no scan can be run with.  `Settings.check` goes on to
look whether the root is a directory and the entry a file.
-/

set_option autoImplicit false

namespace ImpactGraph
namespace Settings

/-- Whether nothing but blanks is left of a text. -/
def isBlank (text : String) : Bool := (Text.trim text.toList).isEmpty

/-- Whether an alias is empty or has more than one segment. -/
def badAlias (name : String) : Bool := name.isEmpty || name.toList.contains '/'

/-- The fault of the first bad extension of a field. -/
def extensionFault? (field : Field) (extensions : List String) : Option SettingsFault :=
  (extensions.find? ScanConfig.badExtension).map fun extension ↦
    .invalidValue field.name s!"'{extension}' must be non-empty and written without a leading dot"

/-- The first value that no scan can be run with. -/
def fault? (settings : Settings) : Option SettingsFault :=
  if settings.entry.all (·.text.isEmpty) then some .noEntry
  else if settings.maxConcurrency = 0 then
    some (.invalidValue Field.maxConcurrency.name "must be at least 1")
  else if isBlank settings.marker then
    some (.invalidValue Field.marker.name "cannot be empty")
  else if settings.external.any isBlank then
    some (.invalidValue Field.external.name "package names cannot be empty")
  else if settings.aliases.keys.any badAlias then
    some (.invalidValue Field.aliases.name
      "alias prefixes must be a single non-empty path segment")
  else
    (extensionFault? .extensions settings.extensions).or
      (extensionFault? .scriptExtensions settings.scriptExtensions)

/-- Looks for everything that keeps a scan of the repository at `root` from starting. -/
def check (settings : Settings) (root : Path) : Disk (Except SettingsFault Unit) := do
  if let some fault := settings.fault? then return .error fault
  if !(← Disk.isDirectory root) then return .error (.rootNotFound root)
  match settings.entry with
  | none => return .ok ()
  | some entry =>
    let path := root.join entry
    if ← Disk.isFile path then return .ok () else return .error (.entryNotFound path)

end Settings
end ImpactGraph
