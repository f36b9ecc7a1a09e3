import ImpactGraph.Settings.Layer
import ImpactGraph.Text.Blank
import ImpactGraph.Toml.Scalar

/-!
# Settings in environment variables

A variable whose name starts with the prefix, in any case, sets the field that the rest of its name
spells in lower case; a dot in the name leads into a table.  Its text is read as a value: a truth
value, a number, a string in double quotes, a single character in single quotes, a list in brackets
or a table in braces.  Any other text stands for itself, without blanks at its ends if it holds no
bracket, brace or comma.
-/

set_option autoImplicit false

namespace ImpactGraph
namespace Variables

/-! ## Values -/

/-- Whether a character may be skipped around a value. -/
def isSpace (c : Char) : Bool := c == ' ' || c == '\t' || c == '\n' || c == '\r' || c == '\x0c'

/-- Skips white space. -/
def skip (text : List Char) : List Char := text.dropWhile isSpace

/-- Whether a character belongs to a value without quotes. -/
def isLoose (c : Char) : Bool := !(c == ',' || c == '{' || c == '}' || c == '[' || c == ']')

/-- Whether a character may stand in a key without quotes. -/
def isKeyChar (c : Char) : Bool := c.isAlphanum || c == '_' || c == '-'

/-- Reads the rest of a quoted string, in which control characters are escaped; `read` is what was
read, latest first. -/
def readQuoted? : Nat → List Char → List Char → Option (String × List Char)
  | 0, _, _ => none
  | _ + 1, _, [] => none
  | fuel + 1, read, c :: text =>
    if c = '"' then some (String.ofList read.reverse, text)
    else if c = '\\' then
      match Toml.readEscape? text with
      | some (c, text) => readQuoted? fuel (c :: read) text
      | none => none
    else if Toml.isPlain c then readQuoted? fuel (c :: read) text
    else none

/-- The double of a text with a point: digits on at least one side of it, and an exponent. -/
def float? (text : List Char) : Option Float := do
  let (negative, text) := Toml.takeSign text
  let mantissa := text.takeWhile (!Toml.isExponentLetter ·)
  let digits (text : List Char) : Option (List Char) :=
    if text.all Char.isDigit then some text else none
  let exponent ← match text.drop mantissa.length with
    | [] => some (0 : Int)
    | _ :: rest => do
      let (negative, rest) := Toml.takeSign rest
      let value : Int := Toml.numberOf 10 (← digits rest)
      if rest.isEmpty then none else some (if negative then -value else value)
  let (whole, fraction) ← Text.cutAtChar '.' mantissa
  let whole ← digits whole
  let fraction ← digits fraction
  if whole.isEmpty ∧ fraction.isEmpty then none
  let x := Toml.doubleOf (whole ++ fraction) (exponent - fraction.length)
  return if negative then -x else x

/-- The integer of a text: unsigned or, with a minus sign, signed in 64 bits. -/
def integer? (text : List Char) : Option Int := do
  let (negative, digits) := Toml.takeSign text
  if digits.isEmpty ∨ !digits.all Char.isDigit then none
  let value : Int := Toml.numberOf 10 digits
  let value := if negative then -value else value
  if JsonNumber.fits value then some value else none

/-- The value of a text without quotes or brackets. -/
def loose (text : List Char) : Setting :=
  let text := Text.trim text
  match if text.contains '.' then float? text else none with
  | some x => .number .variable (.ofFloat x)
  | none =>
    match integer? text with
    | some value => .number .variable (.int value)
    | none => .text .variable (String.ofList text)

/-- A reader of one value. -/
abbrev ValueReader := List Char → Option (Setting × List Char)

/-- Reads the items of a list up to its bracket; a comma may stand before the bracket. -/
def readItems? (value : ValueReader) :
    Nat → List Setting → List Char → Option (Setting × List Char)
  | 0, _, _ => none
  | fuel + 1, read, text =>
    match text with
    | ']' :: text => some (.list .variable read.reverse, text)
    | text =>
      match value text with
      | none => none
      | some (item, text) =>
        match text with
        | ',' :: text => readItems? value fuel (item :: read) text
        | ']' :: text => some (.list .variable (item :: read).reverse, text)
        | _ => none

/-- Reads a key. -/
def readKey? (text : List Char) : Option (String × List Char) :=
  match text with
  | '"' :: rest => readQuoted? (rest.length + 1) [] rest
  | _ =>
    let key := text.takeWhile isKeyChar
    if key.isEmpty then none else some (String.ofList key, text.drop key.length)

/-- Reads the entries of a table up to its brace; a comma may stand before the brace. -/
def readEntries? (value : ValueReader) : Nat → Layer → List Char → Option (Setting × List Char)
  | 0, _, _ => none
  | fuel + 1, read, text =>
    match text with
    | '}' :: text => some (.table .variable read, text)
    | text =>
      match readKey? (skip text) with
      | none => none
      | some (key, text) =>
        match skip text with
        | '=' :: text =>
          match value text with
          | none => none
          | some (item, text) =>
            let read := Entries.insert compare key item read
            match text with
            | ',' :: text => readEntries? value fuel read text
            | '}' :: text => some (.table .variable read, text)
            | _ => none
        | _ => none

/-- Reads a value and the white space around it; `depth` bounds how deep it nests. -/
def readValue? (size : Nat) : Nat → ValueReader
  | 0, _ => none
  | depth + 1, text =>
    let after (found : Option (Setting × List Char)) : Option (Setting × List Char) :=
      found.map fun (value, text) ↦ (value, skip text)
    match skip text with
    | 't' :: 'r' :: 'u' :: 'e' :: text => some (.bool .variable true, skip text)
    | 'f' :: 'a' :: 'l' :: 's' :: 'e' :: text => some (.bool .variable false, skip text)
    | '{' :: text => after (readEntries? (readValue? size depth) size [] text)
    | '[' :: text => after (readItems? (readValue? size depth) size [] text)
    | '"' :: text =>
      after ((readQuoted? size [] text).map fun (s, text) ↦ (.text .variable s, text))
    | '\'' :: text =>
      match text with
      | c :: '\'' :: text => some (.text .variable (String.ofList [c]), skip text)
      | _ => none
    | text =>
      let word := text.takeWhile isLoose
      some (loose word, skip (text.drop word.length))

/-- The value that a variable sets. -/
def value (text : String) : Setting :=
  let chars := text.toList
  match readValue? (chars.length + 1) (chars.length + 1) chars with
  | some (value, []) => value
  | _ => .text .variable text

/-! ## Names -/

/-- What the names of variables start with, in any case. -/
def namePrefix : String := "DEPSCOPE_"

/-- A text in lower case, as far as letters have one in ASCII. -/
def lower (text : List Char) : List Char := text.map Char.toLower

/-- The keys that a variable of this name leads to; one with an empty key among them sets
nothing. -/
def keys (name : String) : List String :=
  let name := Text.trim name.toList
  let start := namePrefix.toList
  if lower (name.take start.length) = lower start then
    let keys := (lower (Text.trim (name.drop start.length))).splitOn '.'
    if keys.any (·.isEmpty) then [] else keys.map String.ofList
  else []

/-- A value below keys. -/
def nest (value : Setting) : List String → Setting
  | [] => value
  | key :: keys => .table .variable [(key, nest value keys)]

/-- What variables set, the later ones over the earlier. -/
def layer (environment : List (String × String)) : Layer :=
  environment.foldl (fun set (name, text) ↦
    match keys name with
    | [] => set
    | key :: keys => Layer.merge .replace set [(key, nest (value text) keys)]) []

end Variables
end ImpactGraph
