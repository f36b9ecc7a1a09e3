import ImpactGraph.Component.Script
import ImpactGraph.Files.Basic
import ImpactGraph.Source.Dialect

/-!
# Loading the text of a module

The text of a module is the text of its file; of a component file it is the text of the script
blocks, with a blank line between them.  A file over `Component.maxFileSize` bytes is not read, or,
if its size was not known before, not used.
-/

set_option autoImplicit false

namespace ImpactGraph
namespace Source

/-- A text ready to be parsed. -/
structure LoadedText where
  /-- The text. -/
  text : String
  /-- The dialect it is written in. -/
  dialect : Dialect
  deriving DecidableEq, Repr, Inhabited

/-- Why the text of a module cannot be had. -/
inductive LoadFault
  /-- The file cannot be read. -/
  | read (path : Path) (fault : FileFault)
  /-- The file takes more bytes than are read. -/
  | tooLarge (path : Path) (size max : Nat)
  /-- The bytes are no text. -/
  | invalidText (path : Path)
  /-- The script blocks of a component cannot be told. -/
  | scripts (path : Path) (fault : Component.Fault)
  deriving Repr

/-- The text of a fault. -/
def LoadFault.message : LoadFault → String
  | .read path fault => s!"Failed to read '{path.text}': {fault.message}"
  | .tooLarge path size max =>
    s!"File '{path.text}' is too large: {size} bytes (max: {max} bytes)"
  | .invalidText path => s!"File '{path.text}' is not valid UTF-8"
  | .scripts path fault => s!"Failed to extract scripts from '{path.text}': {fault.message}"

/-- The text of script blocks: their bodies with blank lines between them, in the first dialect
that is not JavaScript. -/
def LoadedText.ofScripts (scripts : List Component.Script) : LoadedText where
  text := String.intercalate "\n\n" (scripts.map (·.text))
  dialect := ((scripts.map fun s ↦ Dialect.ofLang s.lang).find? (· ≠ .javaScript)).getD .javaScript

/-- The text of a module in a file with these contents. -/
def LoadedText.ofContents (path : Path) (contents : String) : Except LoadFault LoadedText :=
  match Component.scriptsOf? path contents with
  | none => .ok ⟨contents, .ofPath path⟩
  | some (.ok scripts) => .ok (.ofScripts scripts)
  | some (.error fault) => .error (.scripts path fault)

/-- The text in the bytes of a file of limited size. -/
def decodeText (path : Path) (bytes : ByteArray) : Except LoadFault String :=
  if Component.maxFileSize < bytes.size then
    .error (.tooLarge path bytes.size Component.maxFileSize)
  else
    match String.fromUTF8? bytes with
    | some text => .ok text
    | none => .error (.invalidText path)

/-- Asks for the text of a file of limited size. -/
def readText (path : Path) : Files (Except LoadFault String) := do
  match ← Files.metadata path with
  | .ok found =>
    if Component.maxFileSize < found.size then
      return .error (.tooLarge path found.size Component.maxFileSize)
  | .error _ => pure ()
  match ← Files.contents path with
  | .error fault => return .error (.read path fault)
  | .ok bytes => return decodeText path bytes

/-- Asks for the text of the module in a file. -/
def load (path : Path) : Files (Except LoadFault LoadedText) := do
  match ← readText path with
  | .error fault => return .error fault
  | .ok contents => return LoadedText.ofContents path contents

end Source
end ImpactGraph
