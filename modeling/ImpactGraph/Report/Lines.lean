import ImpactGraph.Descriptor
import ImpactGraph.Report.Style

/-!
# Lines of a report

Below the name of a file come lines that say something about it: a label, dimmed or coloured, and
what stands after it.
-/

set_option autoImplicit false

namespace ImpactGraph
namespace Report

/-- A line with a dimmed label. -/
def labelled (colored : Bool) (label text : String) : String :=
  "  " ++ Style.dim.paint colored label ++ " " ++ text

/-- The line of an entry of a descriptor; an entry without a value is a flag. -/
def descriptorLine (colored : Bool) (key value : String) : String :=
  if value.isEmpty then "  " ++ Style.green.paint colored ("@" ++ key)
  else "  " ++ Style.green.paint colored ("@" ++ key ++ ":") ++ " " ++ value

/-- The lines of a descriptor. -/
def descriptorLines (colored : Bool) (descriptor : Descriptor) : List String :=
  descriptor.entries.map fun (key, value) ↦ descriptorLine colored key value

/-- Lines as a text. -/
def ofLines (lines : List String) : String := String.join (lines.map (· ++ "\n"))

end Report
end ImpactGraph
