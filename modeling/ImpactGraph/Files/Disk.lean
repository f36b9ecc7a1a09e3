import ImpactGraph.Files.Stored

/-!
# Questions about a disk

Settings and change lists are read from a disk, whose answers are those of an operating system.  A
`Disk` computation asks what a path leads to and for the text of a file.
-/

set_option autoImplicit false

namespace ImpactGraph

/-- A question about a disk. -/
inductive DiskQuestion
  /-- What a path leads to. -/
  | metadata (path : Path)
  /-- The text of a file. -/
  | text (path : Path)
  deriving DecidableEq, Repr, Inhabited

/-- The type of the answer to a question. -/
def DiskQuestion.Answer : DiskQuestion → Type
  | .metadata _ => Except SystemError Metadata
  | .text _ => Except SystemError String

/-- A computation that asks about a disk. -/
abbrev Disk (α : Type) := Dialogue DiskQuestion DiskQuestion.Answer α

namespace Disk

/-- Asks what a path leads to. -/
def metadata (path : Path) : Disk (Except SystemError Metadata) :=
  .question (DiskQuestion.metadata path)

/-- Asks for the text of a file. -/
def text (path : Path) : Disk (Except SystemError String) := .question (DiskQuestion.text path)

/-- Asks whether a path leads to a regular file. -/
def isFile (path : Path) : Disk Bool := do
  match ← metadata path with
  | .ok found => return found.isFile
  | .error _ => return false

/-- Asks whether a path leads to a directory. -/
def isDirectory (path : Path) : Disk Bool := do
  match ← metadata path with
  | .ok found => return found.isDirectory
  | .error _ => return false

end Disk

/-- The answers of a stored tree to questions about a disk. -/
def StoredTree.diskAnswer (tree : StoredTree) (cwd : Place) : (q : DiskQuestion) → q.Answer
  | .metadata path =>
    match tree.entryAt cwd path with
    | .ok entry => .ok (metadataOf entry)
    | .error e => .error e
  | .text path => tree.readText cwd path

end ImpactGraph
