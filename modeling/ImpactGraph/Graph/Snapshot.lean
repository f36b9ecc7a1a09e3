import ImpactGraph.Descriptor
import ImpactGraph.Path.Clean

/-!
# Snapshots of the import graph

A `Snapshot` says for every file that can be reached from an entry what its descriptor is and which
files import it.  `transitiveDependents` follows the importers as far as they lead, which is what a
change to a file may reach.
-/

set_option autoImplicit false

namespace ImpactGraph

/-- A set of paths, in path order; of equal paths the first spelling is kept. -/
abbrev PathSet := SortedMap Path Unit Path.compare

/-- Adds a path to a set. -/
def PathSet.add (paths : PathSet) (path : Path) : PathSet :=
  if paths.contains path then paths else SortedMap.insert paths path ()

/-- The paths of a set, in order. -/
def PathSet.toList (paths : PathSet) : List Path := paths.keys

/-- A file of the graph. -/
structure GraphNode where
  /-- The metadata from the descriptor comment of the file. -/
  descriptor : Descriptor
  /-- The files that import this one. -/
  dependents : List Path
  deriving DecidableEq, Inhabited

/-- The import graph of the files that can be reached from an entry. -/
structure Snapshot where
  /-- The root of the repository. -/
  root : Path
  /-- The file that the scan started from. -/
  entry : Path
  /-- The files of the graph. -/
  nodes : SortedMap Path GraphNode Path.compare
  deriving Inhabited

namespace Snapshot

/-- The number of files. -/
def size (s : Snapshot) : Nat := s.nodes.size

/-- Whether there is no file. -/
def isEmpty (s : Snapshot) : Bool := s.nodes.isEmpty

/-- The node of a path. -/
def get? (s : Snapshot) (path : Path) : Option GraphNode := s.nodes.get? path

/-- Whether a path has a node. -/
def contains (s : Snapshot) (path : Path) : Bool := s.nodes.contains path

/-- The key that a path written by another tool stands for: it is taken from the root, unless it is
absolute, and cleaned. -/
def keyOf (s : Snapshot) (path : Path) : Path :=
  if path.isAbsolute then path.clean else (s.root.join path).clean

/-- The node of a path written by another tool, with its key. -/
def lookup? (s : Snapshot) (path : Path) : Option (Path × GraphNode) := s.nodes.find? (s.keyOf path)

/-- A path as it is shown: taken from the root, if it lies inside it.  What becomes of characters that
stand for bytes is said by `Path.Units.shown`. -/
def display (s : Snapshot) (path : Path) : String := ((path.stripPrefix? s.root).getD path).text

/-- The files that a file imports. -/
def dependenciesOf (s : Snapshot) (path : Path) : List Path :=
  (s.nodes.entries.filter fun (_, node) ↦ node.dependents.any (·.same path)).map Prod.fst

/-- The dependents of a path, if it has a node. -/
def dependentsOf (s : Snapshot) (path : Path) : List Path :=
  match s.get? path with
  | some node => node.dependents
  | none => []

/-- Adds to `seen` those of `paths` that are new, and puts them at the end of the queue. -/
def enqueue (seen : PathSet) (queue : List Path) : List Path → PathSet × List Path
  | [] => (seen, queue)
  | path :: paths =>
    if seen.contains path then enqueue seen queue paths
    else enqueue (seen.add path) (queue ++ [path]) paths

/-- Follows the dependents of the queue, `fuel` paths of it. -/
def follow (s : Snapshot) : Nat → PathSet → List Path → PathSet
  | 0, seen, _ => seen
  | _ + 1, seen, [] => seen
  | fuel + 1, seen, path :: queue =>
    let (seen, queue) := enqueue seen queue (s.dependentsOf path)
    s.follow fuel seen queue

/-- How often a file is listed as a dependent. -/
def edgeCount (s : Snapshot) : Nat :=
  (s.nodes.entries.flatMap fun (_, node) ↦ node.dependents).length

/-- The files that reach a file by one import or more.  No file is put into the queue twice, so the
number of edges bounds the search. -/
def transitiveDependents (s : Snapshot) (path : Path) : PathSet :=
  s.follow (s.edgeCount + 1) ∅ [path]

end Snapshot
end ImpactGraph
