import ImpactGraph.Change.Record

/-!
# Name-status listings

The output of `git diff --name-status -z` is a sequence of fields, each ended by a NUL: a status and
a path, or for renames and copies a status and two paths, the old one first.
-/

set_option autoImplicit false

namespace ImpactGraph
namespace NameStatus

/-- The fields of a listing; empty ones do not count. -/
def fields (listing : List Char) : List (List Char) :=
  (listing.splitOn '\x00').filter fun field ↦ !field.isEmpty

/-- What a status says of a file, by its first letter. -/
def changeType (letter : Char) : String :=
  match letter with
  | 'A' => "added"
  | 'M' => "modified"
  | 'D' => "deleted"
  | 'R' => "renamed"
  | 'C' => "copied"
  | 'T' => "type_changed"
  | 'U' => "unmerged"
  | _ => "unknown"

/-- Whether a status with this first letter is followed by two paths. -/
def hasOrigin (letter : Char) : Bool := letter == 'R' || letter == 'C'

/-- Why a listing cannot be read. -/
inductive Fault
  /-- A status has no letter. -/
  | emptyStatus
  /-- The listing ends after this status, or after the old path of two. -/
  | missingPath (status : String)
  deriving DecidableEq, Repr

/-- The text of a fault. -/
def Fault.message : Fault → String
  | .emptyStatus => "empty status"
  | .missingPath status => s!"missing path after '{status}'"

/-- The record of a path under a status with this first letter. -/
def record (letter : Char) (path : List Char) : DiffRecord :=
  (DiffRecord.ofPath (String.ofList path)).set "type" (.string (changeType letter))

/-- The records of fields. -/
def ofFields : List (List Char) → Except Fault (List DiffRecord)
  | [] => .ok []
  | [] :: _ => .error .emptyStatus
  | (letter :: more) :: rest =>
    if hasOrigin letter then
      match rest with
      | origin :: path :: rest =>
        let moved := (record letter path).set "from" (.string (String.ofList origin))
        (ofFields rest).map (moved :: ·)
      | _ => .error (.missingPath (String.ofList (letter :: more)))
    else
      match rest with
      | path :: rest => (ofFields rest).map (record letter path :: ·)
      | [] => .error (.missingPath (String.ofList (letter :: more)))

/-- The records of a listing. -/
def parse (listing : String) : Except Fault (List DiffRecord) := ofFields (fields listing.toList)

end NameStatus
end ImpactGraph
