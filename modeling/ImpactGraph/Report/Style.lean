/-!
# Styled text

A report is written plain or with the colours of a terminal.
-/

set_option autoImplicit false

namespace ImpactGraph

/-- How a piece of text is shown on a terminal. -/
inductive Style
  /-- In bold letters. -/
  | bold
  /-- In faint letters. -/
  | dim
  /-- In green. -/
  | green
  /-- In cyan. -/
  | cyan
  deriving DecidableEq, Repr, Inhabited

namespace Style

/-- The number of a style in a control sequence. -/
def number : Style → Nat
  | bold => 1
  | dim => 2
  | green => 32
  | cyan => 36

/-- A text in a style, if styles are shown at all. -/
def paint (style : Style) (colored : Bool) (text : String) : String :=
  if colored then s!"\x1b[{style.number}m{text}\x1b[0m" else text

end Style

/-- How a report is written. -/
inductive ReportFormat
  /-- As lines for a reader. -/
  | text
  /-- As JSON over several lines. -/
  | json
  deriving DecidableEq, Repr, Inhabited

namespace ReportFormat

/-- All formats. -/
def all : List ReportFormat := [.text, .json]

/-- The name of a format. -/
def name : ReportFormat → String
  | text => "text"
  | json => "json"

/-- The format of a name. -/
def ofName? (name : String) : Option ReportFormat := all.find? (·.name == name)

end ReportFormat
end ImpactGraph
