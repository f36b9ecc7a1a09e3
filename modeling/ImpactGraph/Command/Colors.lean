/-!
# When colours are shown

Variables can turn colours off or on; where they say nothing, colours are shown on a terminal.
-/

set_option autoImplicit false

namespace ImpactGraph
namespace Colors

/-- The variable that turns colours off, whatever it holds. -/
def offName : String := "NO_COLOR"

/-- The variable that turns colours on for what is said on the way, whatever it holds. -/
def onName : String := "FORCE_COLOR"

/-- The variable that turns the colours of a terminal off when it holds a zero. -/
def terminalName : String := "CLICOLOR"

/-- The variable that turns colours on for reports unless it holds a zero. -/
def reportName : String := "CLICOLOR_FORCE"

/-- Whether what is said on the way is shown in colours. -/
def inNotes (environment : List (String × String)) (terminal : Bool) : Bool :=
  if (environment.lookup offName).isSome then false
  else (environment.lookup onName).isSome || terminal

/-- Whether a printed report is shown in colours. -/
def inReports (environment : List (String × String)) (terminal : Bool) : Bool :=
  if (environment.lookup offName).isSome then false
  else
    (terminal && (environment.lookup terminalName).getD "1" != "0") ||
      (environment.lookup reportName).getD "0" != "0"

end Colors
end ImpactGraph
