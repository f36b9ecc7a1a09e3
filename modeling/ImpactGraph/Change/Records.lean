import ImpactGraph.Change.Record

/-!
# Change lists in JSON

A change list is an array of changed files, or an object with such an array under `files`.  An entry
is a path, or an object with the path under `path` or else `file`, whose other members are metadata.
-/

set_option autoImplicit false

namespace ImpactGraph

/-- Why an entry is no changed file. -/
inductive EntryFault
  /-- It is neither a string nor an object. -/
  | badShape
  /-- It has no path. -/
  | noPath
  /-- Its path is no string. -/
  | badPath
  deriving DecidableEq, Repr

/-- The text of a fault. -/
def EntryFault.message : EntryFault → String
  | .badShape => "expected a path string or an object"
  | .noPath => "missing 'path' (or 'file')"
  | .badPath => "path must be a string"

/-- Why a value is no change list. -/
inductive ListFault
  /-- It is neither an array nor an object. -/
  | badShape
  /-- What stands under `files` is no array. -/
  | badFiles
  /-- It is an object without `files`. -/
  | noFiles
  /-- One of its entries is no changed file. -/
  | entry (index : Nat) (fault : EntryFault)
  deriving DecidableEq, Repr

/-- The text of a fault. -/
def ListFault.message : ListFault → String
  | .badShape => "expected an array or an object"
  | .badFiles => "'files' must be an array"
  | .noFiles => "object has no 'files' array"
  | .entry index fault => s!"entry {index}: {fault.message}"

/-- The members of an object without those of a name. -/
def without (name : String) (members : List (String × Json)) : InfoTable :=
  SortedMap.ofList (members.filter fun (other, _) ↦ other != name)

/-- The changed file of an entry. -/
def DiffRecord.ofEntry (entry : Json) : Except EntryFault DiffRecord :=
  match entry with
  | .string path => .ok (.ofPath path)
  | .object members =>
    let named (name : String) (path : Json) : Except EntryFault DiffRecord :=
      match path with
      | .string path => .ok ⟨path, without name members⟩
      | _ => .error .badPath
    match entry.member? "path" with
    | some path => named "path" path
    | none =>
      match entry.member? "file" with
      | some path => named "file" path
      | none => .error .noPath
  | _ => .error .badShape

/-- The changed files of entries, of which the first has this index. -/
def DiffRecord.ofEntries (index : Nat) : List Json → Except ListFault (List DiffRecord)
  | [] => .ok []
  | entry :: entries =>
    match ofEntry entry with
    | .error fault => .error (.entry index fault)
    | .ok r =>
      match ofEntries (index + 1) entries with
      | .error fault => .error fault
      | .ok rs => .ok (r :: rs)

/-- The changed files of a change list. -/
def DiffRecord.ofList (value : Json) : Except ListFault (List DiffRecord) :=
  match value with
  | .array entries => ofEntries 0 entries
  | .object _ =>
    match value.member? "files" with
    | some (.array entries) => ofEntries 0 entries
    | some _ => .error .badFiles
    | none => .error .noFiles
  | _ => .error .badShape

end ImpactGraph
