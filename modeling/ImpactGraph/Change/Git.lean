import ImpactGraph.Change.Fault
import ImpactGraph.Change.NameStatus
import ImpactGraph.Dialogue
import ImpactGraph.Text.Blank

/-!
# Changed files from git

A `Git` computation calls git in a directory.  The changes of a range are those of its head since it
left its base, as far as they lie in the directory.
-/

set_option autoImplicit false

namespace ImpactGraph

/-- A call of git. -/
structure GitCall where
  /-- The directory of the call. -/
  directory : Path
  /-- The arguments. -/
  arguments : List String
  deriving DecidableEq, Repr, Inhabited

/-- What git says when it has been called. -/
structure GitReply where
  /-- Whether it reports success. -/
  succeeded : Bool
  /-- What it writes. -/
  output : String
  /-- What it writes about failures. -/
  errors : String
  deriving DecidableEq, Repr, Inhabited

/-- A computation that calls git. -/
abbrev Git (α : Type) := Dialogue GitCall (fun _ ↦ Except SystemError GitReply) α

/-- Whether a text holds the character that ends the texts of a call. -/
def holdsEnd (text : String) : Bool := text.toList.contains '\x00'

/-- Calls git in a directory; a call that would end in the middle of a text is not made. -/
def Git.call (directory : Path) (arguments : List String) : Git (Except SystemError GitReply) :=
  if holdsEnd directory.text || arguments.any holdsEnd then pure (.error .endInCall)
  else .question ⟨directory, arguments⟩

/-- Asks whether a directory belongs to a repository. -/
def Git.isRepository (directory : Path) : Git Bool := do
  match ← Git.call directory ["rev-parse", "--is-inside-work-tree"] with
  | .ok reply => return reply.succeeded
  | .error _ => return false

/-- Two commits. -/
structure GitRange where
  /-- The commit from which the changes are taken. -/
  base : String
  /-- The commit with the changes. -/
  head : String
  deriving DecidableEq, Repr, Inhabited

namespace GitRange

/-- The text of a range. -/
def text (range : GitRange) : String := range.base ++ "..." ++ range.head

/-- The changed files that a reply lists. -/
def recordsOf (range : GitRange) (reply : GitReply) : Except ChangeFault (List DiffRecord) :=
  if reply.succeeded then
    match NameStatus.parse reply.output with
    | .ok records => .ok records
    | .error fault => .error (.gitListing fault.message)
  else .error (.gitFailed range.text (String.ofList (Text.trim reply.errors.toList)))

/-- The changed files of a range below a directory. -/
def changes (range : GitRange) (directory : Path) : Git (Except ChangeFault (List DiffRecord)) := do
  match ← Git.call directory ["diff", "--name-status", "-z", "--relative", range.text] with
  | .error error => return .error (.gitUnavailable error)
  | .ok reply => return range.recordsOf reply

end GitRange
end ImpactGraph
