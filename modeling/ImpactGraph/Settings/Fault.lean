import ImpactGraph.Files.SystemError
import ImpactGraph.Path.Basic
import ImpactGraph.Settings.Layer

/-!
# What can be wrong with settings

A `Blame` is a value of the wrong type: where it comes from, and the keys that lead to it.
-/

set_option autoImplicit false

namespace ImpactGraph

/-- A value of the wrong type. -/
structure Blame where
  /-- Where the value comes from. -/
  origin : Origin
  /-- The keys that lead to it; the index of an item of a list is a key. -/
  keys : List String
  deriving DecidableEq, Repr, Inhabited

namespace Blame

/-- A text in upper case, as far as letters have one in ASCII. -/
def upper (text : String) : String := String.ofList (text.toList.map Char.toUpper)

/-- How a value is called: by the name of its variable, or by its keys in the default profile. -/
def text (blame : Blame) : String :=
  match blame.origin with
  | .given => ".".intercalate ("default" :: blame.keys)
  | .variable => ".".intercalate (blame.keys.map upper)

end Blame

/-- What can be wrong with settings. -/
inductive SettingsFault
  /-- There is no root. -/
  | rootNotFound (path : Path)
  /-- There is no entry file. -/
  | entryNotFound (path : Path)
  /-- There is no settings file. -/
  | notFound (path : Path)
  /-- The settings file has an unknown extension. -/
  | unsupportedFormat (path : Path)
  /-- The settings cannot be read. -/
  | load (detail : String) (blame : Option Blame)
  /-- No entry is set. -/
  | noEntry
  /-- A value is not allowed. -/
  | invalidValue (field detail : String)
  /-- The settings file cannot be read. -/
  | io (error : SystemError)
  deriving DecidableEq, Repr, Inhabited

namespace SettingsFault

/-- The text of a fault. -/
def message : SettingsFault → String
  | rootNotFound path => "repository root not found: " ++ path.text
  | entryNotFound path => "entry file not found: " ++ path.text
  | notFound path => "config file not found: " ++ path.text
  | unsupportedFormat path => "unsupported configuration format: " ++ path.text
  | load detail _ => "failed to load configuration: " ++ detail
  | noEntry => "no entry file specified"
  | invalidValue field detail => s!"invalid value for '{field}': {detail}"
  | io error => "I/O error: " ++ error.message

/-- What is wrong with settings that cannot be read. -/
def loadDetail : String := "<detail>"

/-- Settings that cannot be read as a whole. -/
def unreadable : SettingsFault := load loadDetail none

/-- A value of the wrong type. -/
def wrongType (value : Setting) (keys : List String) : SettingsFault :=
  load loadDetail (some ⟨value.origin, keys⟩)

end SettingsFault
end ImpactGraph
