import ImpactGraph.Files.Basic
import ImpactGraph.Files.SystemError

/-!
# File trees kept in memory

A `StoredTree` lists what stands at each place of a file tree, a place being the names on the way
from the root.  `walkFrom` follows a path through the tree, links included; the two functions from
questions to answers differ in what they call a fault: `inMemory` knows missing files only, and
`onDisk` answers with the errors of an operating system.
-/

set_option autoImplicit false

namespace ImpactGraph

/-- What stands at a place of a file tree. -/
inductive TreeEntry
  /-- A file with its bytes. -/
  | file (bytes : ByteArray)
  /-- A link to a path, taken from the directory that holds the link. -/
  | link (target : Path)
  /-- A directory. -/
  | directory
  deriving Inhabited

/-- A place in a file tree: the names on the way from the root. -/
abbrev Place := List String

/-- The order of places. -/
def Place.compare (p q : Place) : Ordering := Ord.compare p q

instance : Std.TransCmp Place.compare :=
  inferInstanceAs (Std.TransCmp fun p q : List String ↦ Ord.compare p q)

/-- A file tree kept in memory. -/
structure StoredTree where
  /-- What stands at each place other than the root. -/
  entries : SortedMap Place TreeEntry Place.compare
  deriving Inhabited

/-- Why a path leads nowhere. -/
inductive WalkFault
  /-- A name on the way is missing. -/
  | missing
  /-- A step is taken from something that is no directory. -/
  | notDirectory
  /-- A name is too long. -/
  | nameTooLong
  /-- Too many links are followed. -/
  | tooManyLinks
  deriving DecidableEq, Repr

/-- The error of an operating system for a fault. -/
def WalkFault.error : WalkFault → SystemError
  | .missing => .noEntry
  | .notDirectory => .notDirectory
  | .nameTooLong => .nameTooLong
  | .tooManyLinks => .tooManyLinks

/-- A step of a walk. -/
inductive Step
  /-- To a name in the directory. -/
  | name (text : String)
  /-- To the directory above. -/
  | up
  /-- To the directory itself. -/
  | stay
  deriving DecidableEq, Repr

namespace Step

/-- The steps of a path, by its parts: only names and `..` count. -/
def ofParts (parts : List Part) : List Step := parts.filterMap fun part ↦
  match part with
  | .name text => some (.name text)
  | .parent => some .up
  | _ => none

/-- The steps that the text of a path spells out, `.` among them. -/
def spelled (text : String) : List Step := (text.toList.splitOn '/').filterMap fun segment ↦
  match segment with
  | [] => none
  | ['.'] => some .stay
  | ['.', '.'] => some .up
  | _ => some (.name (String.ofList segment))

/-- Whether the text of a path ends with a separator. -/
def endsOpen (text : String) : Bool := text.endsWith "/"

/-- The steps of a path, by its text: a `.` counts, and so does a separator at the end. -/
def ofText (text : String) : List Step :=
  if endsOpen text then spelled text ++ [.stay] else spelled text

end Step

namespace StoredTree

/-- What stands at a place. -/
def entry? (tree : StoredTree) (place : Place) : Option TreeEntry :=
  if place.isEmpty then some .directory else tree.entries.get? place

/-- Whether a directory stands at a place. -/
def isDirectory (tree : StoredTree) (place : Place) : Bool :=
  match tree.entry? place with
  | some .directory => true
  | _ => false

/-- Puts an entry at a place, and directories on the way to it. -/
def insert (tree : StoredTree) (place : Place) (entry : TreeEntry) : StoredTree :=
  let above := ((List.range place.length).map place.take).filter fun p ↦
    !p.isEmpty && !tree.entries.contains p
  ⟨(above.foldl (fun m p ↦ m.insert p .directory) tree.entries).insert place entry⟩

/-- The tree of entries at places. -/
def ofList (entries : List (Place × TreeEntry)) : StoredTree :=
  entries.foldl (fun tree (place, entry) ↦ tree.insert place entry) ⟨∅⟩

/-- The most links that are followed on one walk. -/
def maxLinks : Nat := 40

/-- The most bytes of a name on disk. -/
def maxName : Nat := 255

/-- Walks from a place by steps, following at most `links` links; the answer is the place reached
and the number of links that may still be followed.  `strict` says whether `..` and `.` are taken
from directories only and names are short. -/
def walkFrom (tree : StoredTree) (steps : Path → List Step) (strict : Bool) (links : Nat)
    (place : Place) (todo : List Step) : Except WalkFault (Place × Nat) :=
  match todo with
  | [] => .ok (place, links)
  | step :: todo =>
    match step with
    | .stay =>
      if strict && !tree.isDirectory place then .error .notDirectory
      else walkFrom tree steps strict links place todo
    | .up =>
      if strict && !tree.isDirectory place then .error .notDirectory
      else walkFrom tree steps strict links place.dropLast todo
    | .name text =>
      if !tree.isDirectory place then .error .notDirectory
      else if strict && maxName < text.utf8ByteSize then .error .nameTooLong
      else
        let next := place ++ [text]
        match tree.entry? next with
        | none => .error .missing
        | some (.link target) =>
          match links with
          | 0 => .error .tooManyLinks
          | links + 1 =>
            let start := if target.isAbsolute then [] else place
            walkFrom tree steps strict links start (steps target ++ todo)
        | some _ => walkFrom tree steps strict links next todo
  termination_by (links, todo.length)

/-- The path of a place. -/
def pathOf (place : Place) : Path := .ofText ("/" ++ String.intercalate "/" place)

/-- What is known of an entry. -/
def metadataOf : TreeEntry → Metadata
  | .file bytes => ⟨bytes.size, true, false⟩
  | .link _ => ⟨0, false, false⟩
  | .directory => ⟨0, false, true⟩

/-! ## Trees in memory -/

/-- Walks a path from the root. -/
def walk? (tree : StoredTree) (path : Path) : Option Place :=
  let steps (p : Path) : List Step := Step.ofParts p.parts
  ((tree.walkFrom steps false maxLinks [] (steps path)).toOption).map Prod.fst

/-- The answers of a tree in memory: every path is taken from the root, and what cannot be reached
is missing. -/
def inMemory (tree : StoredTree) (workingDirectory : Except FileFault Path) : FileTree
  | .metadata path =>
    match (tree.walk? path).bind tree.entry? with
    | some entry => .ok (metadataOf entry)
    | none => .error (.notFound path)
  | .canonical path =>
    match tree.walk? path with
    | some place => .ok (pathOf place)
    | none => .error (.notFound path)
  | .contents path =>
    match (tree.walk? path).bind tree.entry? with
    | some (.file bytes) => .ok bytes
    | some _ => .error (.io ("Is a directory: " ++ path.text))
    | none => .error (.notFound path)
  | .workingDirectory => workingDirectory

/-! ## Trees on disk -/

/-- The most bytes of a path on disk. -/
def maxPath : Nat := 4095

/-- What is wrong with the text of a path on disk, if anything is. -/
def textError? (path : Path) : Option SystemError :=
  if path.text.toList.contains '\x00' then some .endInPath
  else if path.text.isEmpty then some .noEntry
  else if maxPath < path.text.utf8ByteSize then some .nameTooLong
  else none

/-- Walks by the steps of a path from a working directory, following at most `links` links. -/
def reachBy (tree : StoredTree) (links : Nat) (cwd : Place) (path : Path) (todo : List Step) :
    Except SystemError (Place × Nat) :=
  match textError? path with
  | some e => .error e
  | none =>
    let start := if path.isAbsolute then [] else cwd
    match tree.walkFrom (fun p ↦ Step.ofText p.text) true links start todo with
    | .ok reached => .ok reached
    | .error fault => .error fault.error

/-- Walks a path from a working directory. -/
def reach (tree : StoredTree) (cwd : Place) (path : Path) : Except SystemError Place :=
  (tree.reachBy maxLinks cwd path (Step.ofText path.text)).map Prod.fst

/-- What stands where a path leads to. -/
def entryAt (tree : StoredTree) (cwd : Place) (path : Path) : Except SystemError TreeEntry :=
  match tree.reach cwd path with
  | .ok place => .ok ((tree.entry? place).getD .directory)
  | .error e => .error e

/-- The bytes of the file that a path leads to. -/
def readBytes (tree : StoredTree) (cwd : Place) (path : Path) : Except SystemError ByteArray :=
  match tree.entryAt cwd path with
  | .ok (.file bytes) => .ok bytes
  | .ok _ => .error .isDirectory
  | .error e => .error e

/-- The text of the file that a path leads to. -/
def readText (tree : StoredTree) (cwd : Place) (path : Path) : Except SystemError String :=
  match tree.readBytes cwd path with
  | .ok bytes =>
    match String.fromUTF8? bytes with
    | some text => .ok text
    | none => .error .invalidText
  | .error e => .error e

end StoredTree

/-- The fault of an operation on a file that the operating system refused. -/
def FileFault.ofSystem (action : String) (path : Path) (error : SystemError) : FileFault :=
  if error = .noEntry then .notFound path
  else .io (s!"Failed to {action} {path.text}: {error.message}")

/-- The answers of a tree on disk. -/
def StoredTree.onDisk (tree : StoredTree) (cwd : Place) : FileTree
  | .metadata path =>
    match tree.entryAt cwd path with
    | .ok entry => .ok (metadataOf entry)
    | .error e => .error (.ofSystem "get metadata for" path e)
  | .canonical path =>
    match tree.reach cwd path with
    | .ok place => .ok (pathOf place)
    | .error e => .error (.ofSystem "canonicalize" path e)
  | .contents path =>
    match tree.readBytes cwd path with
    | .ok bytes => .ok bytes
    | .error e => .error (.ofSystem "read" path e)
  | .workingDirectory => .ok (pathOf cwd)

end ImpactGraph
