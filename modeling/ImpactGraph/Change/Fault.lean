import ImpactGraph.Files.SystemError
import ImpactGraph.Path.Basic

/-!
# Why there is no change list
-/

set_option autoImplicit false

namespace ImpactGraph

/-- Why there is no change list. -/
inductive ChangeFault
  /-- Git cannot be run. -/
  | gitUnavailable (error : SystemError)
  /-- Git reports a failure. -/
  | gitFailed (range errors : String)
  /-- The listing that git writes cannot be read. -/
  | gitListing (detail : String)
  /-- The file with the change list cannot be read. -/
  | read (path : Path) (error : SystemError)
  /-- The file holds no change list. -/
  | format (path : Path) (detail : String)
  deriving DecidableEq, Repr, Inhabited

/-- A text with a hint below it. -/
def withHint (text hint : String) : String := s!"{text}\n\nHint: {hint}"

namespace ChangeFault

/-- The shapes of a change list. -/
def formatHint : String :=
  "Expected an array of \x7b\"path\": ...\x7d records or \x7b\"files\": [...]\x7d"

/-- The text of a fault. -/
def message : ChangeFault → String
  | gitUnavailable error =>
    withHint ("Failed to run git: " ++ error.message) "Make sure git is installed and on PATH"
  | gitFailed range errors =>
    withHint s!"git diff {range} failed: {errors}"
      "Check that both refs exist (git fetch may be needed)"
  | gitListing detail => "Unexpected git output: " ++ detail
  | read path error => s!"Failed to read diff file {path.text}: {error.message}"
  | format path detail => withHint s!"Invalid diff file {path.text}: {detail}" formatHint

end ChangeFault
end ImpactGraph
