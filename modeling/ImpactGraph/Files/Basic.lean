import ImpactGraph.Dialogue
import ImpactGraph.Path.Basic

/-!
# Questions about files

Everything that is looked up in a file tree is a `FileQuestion`.  A file tree that does not change
is a function from questions to answers, a `FileTree`.
-/

set_option autoImplicit false

namespace ImpactGraph

/-- Why a question about a file has no answer. -/
inductive FileFault
  /-- There is no such file. -/
  | notFound (path : Path)
  /-- The file cannot be reached or read. -/
  | io (detail : String)
  /-- The surroundings failed otherwise. -/
  | other (detail : String)
  deriving DecidableEq, Repr, Inhabited

/-- The text of a fault. -/
def FileFault.message : FileFault → String
  | .notFound path => "File not found: " ++ path.text
  | .io detail => "I/O error: " ++ detail
  | .other detail => "Runtime error: " ++ detail

/-- What is known of a file before it is read. -/
structure Metadata where
  /-- The number of its bytes. -/
  size : Nat
  /-- Whether it is a regular file. -/
  isFile : Bool
  /-- Whether it is a directory. -/
  isDirectory : Bool
  deriving DecidableEq, Repr, Inhabited

/-- A question about files. -/
inductive FileQuestion
  /-- What a path leads to. -/
  | metadata (path : Path)
  /-- The absolute form of a path without links. -/
  | canonical (path : Path)
  /-- The bytes of a file. -/
  | contents (path : Path)
  /-- The directory that relative paths are taken from. -/
  | workingDirectory
  deriving DecidableEq, Repr, Inhabited

/-- The type of the answer to a question. -/
def FileQuestion.Answer : FileQuestion → Type
  | .metadata _ => Except FileFault Metadata
  | .canonical _ => Except FileFault Path
  | .contents _ => Except FileFault ByteArray
  | .workingDirectory => Except FileFault Path

/-- A computation that asks about files. -/
abbrev Files (α : Type) := Dialogue FileQuestion FileQuestion.Answer α

/-- A file tree that does not change: an answer to every question. -/
abbrev FileTree := (q : FileQuestion) → q.Answer

namespace Files

/-- Asks what a path leads to. -/
def metadata (path : Path) : Files (Except FileFault Metadata) :=
  .question (FileQuestion.metadata path)

/-- Asks for the absolute form of a path without links. -/
def canonical (path : Path) : Files (Except FileFault Path) :=
  .question (FileQuestion.canonical path)

/-- Asks for the bytes of a file. -/
def contents (path : Path) : Files (Except FileFault ByteArray) :=
  .question (FileQuestion.contents path)

/-- Asks for the directory that relative paths are taken from. -/
def workingDirectory : Files (Except FileFault Path) := .question FileQuestion.workingDirectory

/-- Asks whether a path leads to a regular file; a fault counts as no. -/
def isFile (path : Path) : Files Bool := do
  match ← metadata path with
  | .ok found => return found.isFile
  | .error _ => return false

@[simp] theorem run_metadata (files : FileTree) (path : Path) :
    (metadata path).run files = files (.metadata path) := rfl

@[simp] theorem run_canonical (files : FileTree) (path : Path) :
    (canonical path).run files = files (.canonical path) := rfl

@[simp] theorem run_contents (files : FileTree) (path : Path) :
    (contents path).run files = files (.contents path) := rfl

end Files
end ImpactGraph
