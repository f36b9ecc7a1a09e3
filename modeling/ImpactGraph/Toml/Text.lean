import ImpactGraph.Json.Reader
import ImpactGraph.Text.Cut

/-!
# Blanks, strings and keys of TOML

A line ends at a line feed, with or without a carriage return before it; a carriage return alone is
nothing.  Strings are basic, with escapes, or literal, without, and both come in a form over several
lines, in which the line end right after the opening quotes does not count and every line end is a
line feed.
-/

set_option autoImplicit false

namespace ImpactGraph
namespace Toml

/-! ## Blanks and line ends -/

/-- Whether a character is a blank within a line. -/
def isBlank (c : Char) : Bool := c == ' ' || c == '\t'

/-- Whether a character may stand in a comment or in a literal string. -/
def isPlain (c : Char) : Bool := c == '\t' || (' ' ≤ c && c ≤ '~') || 0x80 ≤ c.toNat

/-- Skips blanks within a line. -/
def skipBlanks (text : List Char) : List Char := text.dropWhile isBlank

/-- What follows a line end. -/
def lineEnd? : List Char → Option (List Char)
  | '\n' :: text => some text
  | '\r' :: '\n' :: text => some text
  | _ => none

/-- Skips a comment, if there is one. -/
def skipComment : List Char → List Char
  | '#' :: text => text.dropWhile isPlain
  | text => text

/-- What follows the rest of a line on which nothing but blanks and a comment is left. -/
def restOfLine? (text : List Char) : Option (List Char) :=
  match skipComment (skipBlanks text) with
  | [] => some []
  | text => lineEnd? text

/-- Skips blanks, comments and line ends; `fuel` is more than the length of the text. -/
def skipLines : Nat → List Char → List Char
  | 0, text => text
  | fuel + 1, text =>
    let text := skipComment (skipBlanks text)
    match lineEnd? text with
    | some text => skipLines fuel text
    | none => text

/-! ## Strings -/

/-- The number that hexadecimal digits stand for. -/
def hexNumber? (digits : List Char) : Option Nat :=
  digits.foldlM (fun n c ↦ (Json.hexValue? c).map (n * 16 + ·)) 0

/-- Reads a character by its number in `count` hexadecimal digits. -/
def readCharCode? (count : Nat) (text : List Char) : Option (Char × List Char) := do
  if (text.take count).length < count then none
  let code ← hexNumber? (text.take count)
  if h : code.isValidChar then some (Char.ofNatAux code h, text.drop count) else none

/-- Reads what follows a backslash in a string. -/
def readEscape? : List Char → Option (Char × List Char)
  | [] => none
  | c :: text =>
    if c = 'b' then some ('\x08', text)
    else if c = 't' then some ('\t', text)
    else if c = 'n' then some ('\n', text)
    else if c = 'f' then some ('\x0c', text)
    else if c = 'r' then some ('\r', text)
    else if c = '"' then some ('"', text)
    else if c = '\\' then some ('\\', text)
    else if c = 'u' then readCharCode? 4 text
    else if c = 'U' then readCharCode? 8 text
    else none

/-- Reads the rest of a basic string on one line; `read` is what was read, latest first. -/
def readBasic? : Nat → List Char → List Char → Option (String × List Char)
  | 0, _, _ => none
  | _ + 1, _, [] => none
  | fuel + 1, read, c :: text =>
    if c = '"' then some (String.ofList read.reverse, text)
    else if c = '\\' then
      match readEscape? text with
      | some (c, text) => readBasic? fuel (c :: read) text
      | none => none
    else if isPlain c then readBasic? fuel (c :: read) text
    else none

/-- Reads the rest of a literal string on one line. -/
def readLiteral? (text : List Char) : Option (String × List Char) :=
  let inside (c : Char) : Bool := c != '\'' && isPlain c
  match text.dropWhile inside with
  | '\'' :: rest => some (String.ofList (text.takeWhile inside), rest)
  | _ => none

/-- The quotes that close a string over several lines: three of them, after at most two that belong
to the string. -/
def closeLines (quote : Char) (read text : List Char) : String × List Char :=
  let inside := min 2 ((text.takeWhile (· == quote)).length - 3)
  (String.ofList (List.replicate inside quote ++ read).reverse, text.drop (inside + 3))

/-- Whether three quotes stand first. -/
def startsWithThree (quote : Char) : List Char → Bool
  | a :: b :: c :: _ => a == quote && b == quote && c == quote
  | _ => false

/-- Skips blanks and line ends; `fuel` is more than the length of the text. -/
def skipSpace : Nat → List Char → List Char
  | 0, text => text
  | fuel + 1, text =>
    match lineEnd? (skipBlanks text) with
    | some text => skipSpace fuel text
    | none => skipBlanks text

/-- Reads the rest of a string over several lines.  A backslash is an escape in a basic string
only, and one that ends a line takes all blanks and line ends after it away. -/
def readManyLines? (quote : Char) : Nat → List Char → List Char → Option (String × List Char)
  | 0, _, _ => none
  | _ + 1, _, [] => none
  | fuel + 1, read, c :: text =>
    if startsWithThree quote (c :: text) then some (closeLines quote read (c :: text))
    else if c = '\\' ∧ quote = '"' then
      match lineEnd? (skipBlanks text) with
      | some rest => readManyLines? quote fuel read (skipSpace fuel rest)
      | none =>
        match readEscape? text with
        | some (c, text) => readManyLines? quote fuel (c :: read) text
        | none => none
    else
      match lineEnd? (c :: text) with
      | some rest => readManyLines? quote fuel ('\n' :: read) rest
      | none => if isPlain c then readManyLines? quote fuel (c :: read) text else none

/-- What follows the line end right after opening quotes, if there is one. -/
def skipFirstLineEnd (text : List Char) : List Char := (lineEnd? text).getD text

/-- Reads a string from its opening quote on. -/
def readString? (text : List Char) : Option (String × List Char) :=
  let fuel := text.length + 1
  match text with
  | '"' :: '"' :: '"' :: text => readManyLines? '"' fuel [] (skipFirstLineEnd text)
  | '"' :: text => readBasic? fuel [] text
  | '\'' :: '\'' :: '\'' :: text => readManyLines? '\'' fuel [] (skipFirstLineEnd text)
  | '\'' :: text => readLiteral? text
  | _ => none

/-! ## Keys -/

/-- Whether a character may stand in a key without quotes. -/
def isBare (c : Char) : Bool := c.isAlphanum || c == '_' || c == '-'

/-- Reads a single key. -/
def readKey? (text : List Char) : Option (String × List Char) :=
  match text with
  | '"' :: rest => readBasic? (rest.length + 1) [] rest
  | '\'' :: rest => readLiteral? rest
  | _ =>
    let key := text.takeWhile isBare
    if key.isEmpty then none else some (String.ofList key, text.drop key.length)

/-- Reads keys with dots between them, and the blanks around each. -/
def readKeys? : Nat → List Char → Option (List String × List Char)
  | 0, _ => none
  | fuel + 1, text => do
    let (key, text) ← readKey? (skipBlanks text)
    match skipBlanks text with
    | '.' :: text =>
      let (keys, text) ← readKeys? fuel text
      return (key :: keys, text)
    | text => return ([key], text)

end Toml
end ImpactGraph
