import ImpactGraph.Path.Basic
import ImpactGraph.Text.Utf8

/-!
# Names that are no texts

The names of a file system are bytes, and the bytes of a name need not be those of a text.  Paths
are taken apart at `/` and `.` only, whose bytes are no part of any other character.  So a path with
such a name is the text that has one character for each byte, and all that is said of paths is said
of it as well.

What differs is how a path is shown (`Units.shown`), and which path a text stands for
(`Units.spelled`).
-/

set_option autoImplicit false

namespace ImpactGraph
namespace Path

/-- What the characters of paths stand for. -/
inductive Units
  /-- For themselves: the names are texts. -/
  | characters
  /-- Each for a byte: the names may be any bytes. -/
  | bytes
  deriving DecidableEq, Repr

namespace Units

/-- How a character of a text is written in a path. -/
def spellChar : Units → Char → List Char
  | characters, c => [c]
  | bytes, c => (String.utf8EncodeChar c).map Char.ofUInt8

/-- How characters of a text are written in a path. -/
def spell (u : Units) (text : List Char) : List Char := text.flatMap u.spellChar

/-- The text of a path that a text stands for. -/
def spelled (u : Units) (name : String) : String := String.ofList (u.spell name.toList)

/-- How the text of a path is shown.  What is no text of the names is shown as replacements. -/
def shown : Units → String → String
  | characters, text => text
  | bytes, text => String.ofList (Text.lossy (text.toList.map Char.toUInt8))

end Units
end Path
end ImpactGraph
