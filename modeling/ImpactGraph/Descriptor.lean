import ImpactGraph.SortedMap
import ImpactGraph.Text.Blank
import ImpactGraph.Text.Cut

/-!
# Descriptors

A descriptor is the metadata that a file carries in one block comment:

```text
/**
 * @Description: order list page
 * @Author: lin
 */
```

The grammar is loose.  Blanks and `*` are noise and are dropped from the whole comment; what is
left is cut at every `@`, the stretch before the first `@` is ignored, and each other stretch is
read as `key` or `key:value`, cut at its first colon.  An empty key is dropped and the last value
of a key wins.
-/

set_option autoImplicit false

namespace ImpactGraph

/-- The metadata of one file: values by key, in key order. -/
abbrev Descriptor := SortedMap String String

namespace Descriptor

/-- The tag that picks the descriptor comment when no other is configured. -/
def defaultMarker : String := "@Description"

/-- Whether a character is dropped from a comment before it is read. -/
def isNoise (c : Char) : Bool := Text.isBlank c || c == '*'

/-- A comment without its noise. -/
def compact (comment : List Char) : List Char := comment.filter fun c ↦ !isNoise c

/-- Cuts a stretch at its first colon; without one the whole stretch is the key. -/
def keyValue (stretch : List Char) : List Char × List Char :=
  (Text.cutAtChar ':' stretch).getD (stretch, [])

/-- The key and value that a stretch after an `@` stands for, if it has a key. -/
def entry? (stretch : List Char) : Option (String × String) :=
  let (key, value) := keyValue stretch
  if key.isEmpty then none else some (String.ofList key, String.ofList value)

/-- The keys and values of a comment, in the order they are written. -/
def entriesOf (comment : List Char) : List (String × String) :=
  (((compact comment).splitOn '@').drop 1).filterMap entry?

/-- The descriptor written in a comment. -/
def parse (comment : String) : Descriptor := SortedMap.ofList (entriesOf comment.toList)

/-- The first comment that contains the marker. -/
def marked? (marker : String) (comments : List String) : Option String :=
  comments.find? fun comment ↦ Text.occursIn marker.toList comment.toList

/-- The descriptor of a file with these block comments; without a marked comment it is empty. -/
def ofComments (marker : String) (comments : List String) : Descriptor :=
  ((marked? marker comments).map parse).getD ∅

end Descriptor
end ImpactGraph
