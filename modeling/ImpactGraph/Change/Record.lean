import ImpactGraph.Graph.Encoding

/-!
# Changed files

A `DiffRecord` is a file that some tool reports as changed, with whatever else the tool says of it.
As JSON, the path and the metadata are members of one object.
-/

set_option autoImplicit false

namespace ImpactGraph

/-- Metadata by name. -/
abbrev InfoTable := SortedMap String Json

/-- A changed file. -/
structure DiffRecord where
  /-- The path, taken from the root of the repository or absolute. -/
  path : String
  /-- What else is said of the file. -/
  info : InfoTable
  deriving Inhabited

namespace DiffRecord

/-- The record of a path of which nothing else is said. -/
def ofPath (path : String) : DiffRecord := ⟨path, ∅⟩

/-- Adds a value to what is said of the file. -/
def set (r : DiffRecord) (name : String) (value : Json) : DiffRecord :=
  { r with info := r.info.insert name value }

/-- A record as JSON. -/
def toJson (r : DiffRecord) : Json := .object (("path", .string r.path) :: r.info.entries)

/-- The record of an object with a path; all other members are metadata. -/
def ofJson? (value : Json) : Option DiffRecord := do
  let members ← value.members?
  let path ← (← value.member? "path").string?
  return ⟨path, SortedMap.ofList (members.filter fun (name, _) ↦ name != "path")⟩

end DiffRecord

/-- A changed file that is in the graph. -/
structure JoinedRecord where
  /-- The path as it was reported. -/
  path : String
  /-- What else is said of the file. -/
  info : InfoTable
  /-- The descriptor of the file. -/
  descriptor : Descriptor
  /-- The files that import it, as they are shown. -/
  dependents : List String
  deriving Inhabited

namespace JoinedRecord

/-- The members of a record as JSON, in their order. -/
def toMembers (r : JoinedRecord) : List (String × Json) :=
  ("path", .string r.path) :: r.info.entries ++
    [("descriptor", .ofTextMap r.descriptor), ("dependents", .strings r.dependents)]

/-- A record as JSON. -/
def toJson (r : JoinedRecord) : Json := .object r.toMembers

/-- The names of the members that are not metadata. -/
def ownNames : List String := ["path", "descriptor", "dependents"]

/-- The record of an object; members with other names are metadata. -/
def ofJson? (value : Json) : Option JoinedRecord := do
  let members ← value.members?
  let path ← (← value.member? "path").string?
  let descriptor ← (← value.member? "descriptor").textMap?
  let dependents ← (← value.member? "dependents").strings?
  let info := SortedMap.ofList (members.filter fun (name, _) ↦ !ownNames.contains name)
  return ⟨path, info, descriptor, dependents⟩

end JoinedRecord
end ImpactGraph
