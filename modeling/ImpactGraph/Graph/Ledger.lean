import ImpactGraph.Graph.Snapshot

/-!
# The ledger of a scan

The `Ledger` is the table of files that the tasks of a scan share.  `claim` is the gate through
which a file is entered: it answers yes to the first task that asks, and to no other one.  The
first descriptor of a file stays, and importers of a file gather.
-/

set_option autoImplicit false

namespace ImpactGraph

/-- What is known of a file during a scan. -/
structure LedgerEntry where
  /-- The descriptor, once it is known. -/
  descriptor : Option Descriptor
  /-- The files that import this one. -/
  dependents : PathSet
  deriving DecidableEq, Inhabited

/-- The table of files that the tasks of a scan share. -/
structure Ledger where
  /-- The files entered so far. -/
  entries : SortedMap Path LedgerEntry Path.compare
  deriving DecidableEq, Inhabited

namespace Ledger

/-- The ledger without files. -/
def empty : Ledger := ⟨∅⟩

instance : EmptyCollection Ledger := ⟨empty⟩

/-- A file of which nothing is known. -/
def blank : LedgerEntry := ⟨none, ∅⟩

/-- Whether a file has been entered. -/
def contains (l : Ledger) (path : Path) : Bool := l.entries.contains path

/-- The number of files. -/
def size (l : Ledger) : Nat := l.entries.size

/-- Whether there is no file. -/
def isEmpty (l : Ledger) : Bool := l.entries.isEmpty

/-- Enters a file.  The answer is yes if it is new. -/
def claim (l : Ledger) (path : Path) : Bool × Ledger :=
  if l.contains path then (false, l) else (true, ⟨l.entries.insert path blank⟩)

/-- Sets the descriptor of a file that has been entered and has none.  The answer says whether it
was set. -/
def setDescriptor (l : Ledger) (path : Path) (d : Descriptor) : Bool × Ledger :=
  match l.entries.get? path with
  | some entry =>
    if entry.descriptor.isNone then
      (true, ⟨l.entries.insert path { entry with descriptor := some d }⟩)
    else (false, l)
  | none => (false, l)

/-- Notes that a file imports another one, which is entered if need be.  The answer says whether
this is new. -/
def addDependent (l : Ledger) (path importer : Path) : Bool × Ledger :=
  let entry := (l.entries.get? path).getD blank
  (!entry.dependents.contains importer,
    ⟨l.entries.insert path { entry with dependents := entry.dependents.add importer }⟩)

/-- The node of a file; a descriptor that was never set is empty. -/
def nodeOf (entry : LedgerEntry) : GraphNode where
  descriptor := entry.descriptor.getD ∅
  dependents := entry.dependents.toList

/-- The graph in the ledger. -/
def snapshot (l : Ledger) (root entry : Path) : Snapshot where
  root := root
  entry := entry
  nodes := SortedMap.ofList (l.entries.entries.map fun (path, e) ↦ (path, nodeOf e))

end Ledger
end ImpactGraph
