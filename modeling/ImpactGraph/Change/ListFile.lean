import ImpactGraph.Change.Fault
import ImpactGraph.Change.Records
import ImpactGraph.Files.Disk
import ImpactGraph.Json.Reader

/-!
# Change lists in files
-/

set_option autoImplicit false

namespace ImpactGraph

/-- What is wrong with a text that is no JSON. -/
def ChangeFault.jsonDetail : String := "<detail>"

/-- The changed files that the text of a file lists. -/
def DiffRecord.ofText (path : Path) (text : String) : Except ChangeFault (List DiffRecord) :=
  match Json.parse? text with
  | none => .error (.format path ChangeFault.jsonDetail)
  | some value =>
    match ofList value with
    | .error fault => .error (.format path fault.message)
    | .ok records => .ok records

/-- The changed files that a file lists. -/
def DiffRecord.listedIn (path : Path) : Disk (Except ChangeFault (List DiffRecord)) := do
  match ← Disk.text path with
  | .error error => return .error (.read path error)
  | .ok text => return ofText path text

end ImpactGraph
