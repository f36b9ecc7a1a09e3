import ImpactGraph.Component.Tag
import ImpactGraph.Path.Basic

/-!
# The script blocks of a component file

Only the `<script>` blocks of a component take part in the import graph; markup and styles are
skipped unread.  `scripts` returns the blocks in document order, each with the byte offset of its
body.  A block written `<script … />` has an empty body.
-/

set_option autoImplicit false

namespace ImpactGraph
namespace Component

open Text

/-- A script block of a component file. -/
structure Script where
  /-- The body between the tags. -/
  text : String
  /-- Where the body starts, in bytes from the start of the file. -/
  offset : Nat
  /-- Whether the tag is marked `setup`. -/
  setup : Bool
  /-- The language that the tag names. -/
  lang : String
  deriving DecidableEq, Repr

/-- Why the script blocks of a component cannot be told. -/
inductive Fault
  /-- The file takes more bytes than are read. -/
  | fileTooLarge (size max : Nat)
  /-- There are more blocks than are read. -/
  | tooManyScripts (count max : Nat)
  /-- A tag at this byte is not closed, or its block is not. -/
  | unclosedScript (position : Nat)
  deriving DecidableEq, Repr

/-- The text of a fault. -/
def Fault.message : Fault → String
  | .fileTooLarge size max => s!"File too large: {size} bytes (max: {max} bytes)"
  | .tooManyScripts count max => s!"Too many script tags: {count} found (max: {max} allowed)"
  | .unclosedScript position => s!"Unclosed script tag starting at byte position {position}"

/-- The most bytes of a file that are read. -/
def maxFileSize : Nat := 10 * 1024 * 1024

/-- The most script blocks of a component that are read. -/
def maxScripts : Nat := 100

/-- The extension of component files. -/
def fileExtension : String := "vue"

/-- How an opening tag starts. -/
def openTag : List Char := "<script".toList

/-- How a block ends. -/
def closeTag : List Char := "</script>".toList

/-- Whether `<script` followed by this text is a tag, and not the start of a longer name. -/
def opensTag : List Char → Bool
  | [] => true
  | c :: _ => c == ' ' || c == '\t' || c == '\n' || c == '\r' || c == '>' || c == '/'

/-- The block with this tag and body. -/
def scriptOf (inside body : List Char) (offset : Nat) : Script :=
  let attrs := attributes inside
  ⟨String.ofList body, offset, hasSetup attrs, langOf attrs⟩

theorem closingAngleFrom_length {quote : Option Char} {inside text a b : List Char}
    (h : closingAngleFrom quote inside text = some (a, b)) : b.length < text.length := by
  induction text generalizing quote inside with
  | nil => simp [closingAngleFrom] at h
  | cons c text ih =>
    rw [closingAngleFrom] at h
    split at h
    · simp only [Option.some.injEq, Prod.mk.injEq] at h; simp [h.2]
    · exact Nat.lt_succ_of_lt (ih h)

theorem closingAngle?_length {text a b : List Char} (h : closingAngle? text = some (a, b)) :
    b.length < text.length := by
  rw [closingAngle?, Option.map_eq_some_iff] at h
  obtain ⟨⟨x, y⟩, hxy, he⟩ := h
  simp only [Prod.mk.injEq] at he
  exact he.2 ▸ closingAngleFrom_length hxy

/-- Adds the blocks of a text that starts at byte `offset` to those found so far, latest first. -/
def scriptsFrom (offset : Nat) (found : List Script) (text : List Char) :
    Except Fault (List Script) :=
  match hopen : cutAt openTag text with
  | none => .ok found.reverse
  | some (before, rest) =>
    have := length_of_cutAt hopen
    let start := offset + utf8Length before
    let inner := start + utf8Length openTag
    if opensTag rest then
      match hangle : closingAngle? rest with
      | none => .error (.unclosedScript start)
      | some (inside, body) =>
        have := closingAngle?_length hangle
        let bodyAt := inner + utf8Length inside + 1
        if inside.getLast? = some '/' then
          let found := scriptOf inside [] bodyAt :: found
          if maxScripts < found.length then .error (.tooManyScripts found.length maxScripts)
          else scriptsFrom bodyAt found body
        else
          match hclose : cutAt closeTag body with
          | none => .error (.unclosedScript start)
          | some (content, after) =>
            have := length_of_cutAt hclose
            let found := scriptOf inside content bodyAt :: found
            if maxScripts < found.length then .error (.tooManyScripts found.length maxScripts)
            else scriptsFrom (bodyAt + utf8Length content + utf8Length closeTag) found after
    else scriptsFrom inner found rest
  termination_by text.length
  decreasing_by
    all_goals
      have : openTag.length = 7 := by decide
      omega

/-- The script blocks of a component file, in document order. -/
def scripts (source : String) : Except Fault (List Script) :=
  if maxFileSize < source.utf8ByteSize then
    .error (.fileTooLarge source.utf8ByteSize maxFileSize)
  else scriptsFrom 0 [] source.toList

/-- The script blocks of a file, or `none` when the path does not name a component: then the whole
file is script. -/
def scriptsOf? (path : Path) (source : String) : Option (Except Fault (List Script)) :=
  if path.extension? = some fileExtension then some (scripts source) else none

end Component
end ImpactGraph
