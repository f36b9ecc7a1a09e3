import ImpactGraph.Files.Stored

/-!
# Writing to stored trees

`StoredTree.write` puts a file where a path leads to, through a link at its end, and
`StoredTree.createDirectories` makes the directories of a path that are missing.  Both fail where an
operating system does.
-/

set_option autoImplicit false

namespace ImpactGraph

namespace StoredTree

/-- Walks to the directory in which the last step of a path is taken, following at most `links`
links. -/
def directoryAbove (tree : StoredTree) (links : Nat) (cwd : Place) (path : Path) :
    Except SystemError (Place × Nat) :=
  match tree.reachBy links cwd path (Step.spelled path.text).dropLast with
  | .error e => .error e
  | .ok (place, links) =>
    if tree.isDirectory place then .ok (place, links) else .error .notDirectory

/-- Makes the last directory of a path; a path that ends in a step other than a name leads to a
directory that is there already. -/
def createDirectory (tree : StoredTree) (cwd : Place) (path : Path) :
    Except SystemError StoredTree :=
  match tree.directoryAbove maxLinks cwd path with
  | .error e => .error e
  | .ok (above, _) =>
    match (Step.spelled path.text).getLast? with
    | some (.name text) =>
      if maxName < text.utf8ByteSize then .error .nameTooLong
      else
        match tree.entry? (above ++ [text]) with
        | some _ => .error .alreadyExists
        | none => .ok (tree.insert (above ++ [text]) .directory)
    | _ => .error .alreadyExists

/-- Whether a path leads to a directory. -/
def leadsToDirectory (tree : StoredTree) (cwd : Place) (path : Path) : Bool :=
  match tree.entryAt cwd path with
  | .ok .directory => true
  | _ => false

/-- Makes the directories of a path that are missing, at most `depth` of them. -/
def createDirectoriesUpTo (tree : StoredTree) (cwd : Place) :
    Nat → Path → Except SystemError StoredTree
  | 0, _ => .error .noEntry
  | depth + 1, path =>
    if path.text.isEmpty then .ok tree
    else
      match tree.createDirectory cwd path with
      | .ok tree => .ok tree
      | .error e =>
        if e = .noEntry then
          match path.parent? with
          | none => .error e
          | some parent =>
            match tree.createDirectoriesUpTo cwd depth parent with
            | .error e => .error e
            | .ok tree =>
              match tree.createDirectory cwd path with
              | .ok tree => .ok tree
              | .error e => if tree.leadsToDirectory cwd path then .ok tree else .error e
        else if tree.leadsToDirectory cwd path then .ok tree
        else .error e

/-- Makes the directories of a path that are missing. -/
def createDirectories (tree : StoredTree) (cwd : Place) (path : Path) :
    Except SystemError StoredTree :=
  tree.createDirectoriesUpTo cwd (path.parts.length + 2) path

/-- The place where a file is written: the one that the path names, or the one that the links there
lead to.  A path that ends in a separator, or in a step other than a name, leads to a directory.  At
most `hops` paths are tried, and at most `links` links followed on the way. -/
def placeToWrite (tree : StoredTree) :
    (hops links : Nat) → Place → Path → Except SystemError Place
  | 0, _, _, _ => .error .tooManyLinks
  | hops + 1, links, cwd, path =>
    match tree.directoryAbove links cwd path with
    | .error e => .error e
    | .ok (above, links) =>
      match (Step.spelled path.text).getLast? with
      | some (.name text) =>
        if Step.endsOpen path.text then .error .isDirectory
        else if maxName < text.utf8ByteSize then .error .nameTooLong
        else
          match tree.entry? (above ++ [text]), links with
          | some (.link _), 0 => .error .tooManyLinks
          | some (.link target), links + 1 => placeToWrite tree hops links above target
          | some .directory, _ => .error .isDirectory
          | _, _ => .ok (above ++ [text])
      | _ => .error .isDirectory

/-- Writes a file. -/
def write (tree : StoredTree) (cwd : Place) (path : Path) (text : String) :
    Except SystemError StoredTree :=
  match tree.placeToWrite (maxLinks + 1) maxLinks cwd path with
  | .error e => .error e
  | .ok place => .ok (tree.insert place (.file text.toUTF8))

end StoredTree
end ImpactGraph
