import ImpactGraph.Json.Value

/-!
# Reading JSON

`Json.parse?` reads a text that is one JSON value with white space around it.  Values nest at most
127 deep, strings hold no bare control character and no lone surrogate, and the last of several
members with one name wins.

A number is an integer when it is written as one and fits in 64 bits.  Any other is a double: its
digits are gathered while they fit in 64 bits, further ones only scale it, and the double nearest
the gathered digits is multiplied or divided by a power of ten.
-/

set_option autoImplicit false

namespace ImpactGraph
namespace Json

/-! ## Numbers -/

/-- The largest integer that digits are gathered in. -/
def maxSignificand : Nat := 0xFFFFFFFFFFFFFFFF

/-- The value of a digit. -/
def digitValue (c : Char) : Nat := c.toNat - '0'.toNat

/-- Appends a digit, if the result still fits. -/
def pushDigit? (significand : Nat) (c : Char) : Option Nat :=
  let next := significand * 10 + digitValue c
  if next ≤ maxSignificand then some next else none

/-- Gathers the leading digits while they fit; also their count. -/
def gather (significand count : Nat) : List Char → Nat × Nat
  | [] => (significand, count)
  | c :: cs =>
    match pushDigit? significand c with
    | some next => gather next (count + 1) cs
    | none => (significand, count)

/-- The largest power of ten that a double holds. -/
def maxPower : Nat := 308

/-- The double nearest `10 ^ n`, for `n ≤ 308`. -/
def powerOfTen (n : Nat) : Float := Float.ofScientific 1 false n

/-- Divides by powers of ten, at most `maxPower` at a time. -/
def divideByPower : Nat → Float → Nat → Float
  | 0, x, _ => x
  | fuel + 1, x, n =>
    if n ≤ maxPower then x / powerOfTen n
    else if x == 0 then x
    else divideByPower fuel (x / powerOfTen maxPower) (n - maxPower)

/-- The double of digits scaled by a power of ten, unless it is too large. -/
def scaled? (significand : Nat) (exponent : Int) : Option Float :=
  let x := significand.toUInt64.toFloat
  if 0 ≤ exponent then
    if exponent.toNat ≤ maxPower then
      let y := x * powerOfTen exponent.toNat
      if y.isInf then none else some y
    else if x == 0 then some x
    else none
  else some (divideByPower ((-exponent).toNat / maxPower + 1) x (-exponent).toNat)

/-- The largest exponent that is told from an infinite one. -/
def maxExponent : Nat := 0x7FFFFFFF

/-- Keeps an exponent in 32 bits. -/
def clampExponent (e : Int) : Int := max (-0x80000000) (min maxExponent e)

/-- The parts of a written number. -/
structure NumberText where
  /-- Whether it starts with a minus sign. -/
  negative : Bool
  /-- The digits before the point. -/
  whole : List Char
  /-- The digits after the point, if there is one. -/
  fraction : Option (List Char)
  /-- The exponent, as its sign and digits, if there is one. -/
  exponent : Option (Bool × List Char)

/-- The double of a written number that is no integer of 64 bits. -/
def NumberText.float? (t : NumberText) : Option Float := do
  let (significand, used) := gather 0 0 t.whole
  let (significand, exponent) : Nat × Int :=
    match t.fraction with
    | none => (significand, ((t.whole.length - used : Nat) : Int))
    | some fraction =>
      let before : Int := ((t.whole.length - used : Nat) : Int)
      let (significand, places) := gather significand 0 fraction
      (significand, before - places)
  let x ← match t.exponent with
    | none => scaled? significand exponent
    | some (negative, digits) =>
      let e := digits.foldl (fun n c ↦ n * 10 + digitValue c) 0
      if maxExponent < e then
        if significand = 0 ∨ negative then some 0 else none
      else scaled? significand (clampExponent (if negative then exponent - e else exponent + e))
  return if t.negative then -x else x

/-- The number that is written. -/
def NumberText.value? (t : NumberText) : Option JsonNumber :=
  let whole := t.whole.foldl (fun n c ↦ n * 10 + digitValue c) 0
  match t.fraction, t.exponent with
  | none, none =>
    if t.negative then
      if 0 < whole ∧ JsonNumber.least ≤ -(whole : Int) then some (.int (-(whole : Int)))
      else t.float?.map .ofFloat
    else if whole ≤ maxSignificand then some (.int whole)
    else t.float?.map .ofFloat
  | _, _ => t.float?.map .ofFloat

/-- Splits off leading digits. -/
def takeDigits (text : List Char) : List Char × List Char :=
  (text.takeWhile Char.isDigit, text.dropWhile Char.isDigit)

/-- Splits off an optional fraction; a point without digits is an error. -/
def takeFraction? : List Char → Option (Option (List Char) × List Char)
  | '.' :: text =>
    match takeDigits text with
    | ([], _) => none
    | (digits, rest) => some (some digits, rest)
  | text => some (none, text)

/-- Splits off an optional exponent; a sign or letter without digits is an error. -/
def takeExponent? (text : List Char) : Option (Option (Bool × List Char) × List Char) :=
  match text with
  | c :: rest =>
    if c = 'e' ∨ c = 'E' then
      let (negative, rest) := match rest with
        | '+' :: rest => (false, rest)
        | '-' :: rest => (true, rest)
        | rest => (false, rest)
      match takeDigits rest with
      | ([], _) => none
      | (digits, rest) => some (some (negative, digits), rest)
    else some (none, text)
  | [] => some (none, [])

/-- Reads a number; a zero is not followed by a digit. -/
def readNumber? (text : List Char) : Option (JsonNumber × List Char) := do
  let (negative, text) := match text with
    | '-' :: text => (true, text)
    | text => (false, text)
  let (whole, text) := takeDigits text
  match whole with
  | [] => none
  | '0' :: _ :: _ => none
  | _ =>
    let (fraction, text) ← takeFraction? text
    let (exponent, text) ← takeExponent? text
    let value ← NumberText.value? ⟨negative, whole, fraction, exponent⟩
    return (value, text)

/-! ## Strings -/

/-- The value of a hexadecimal digit. -/
def hexValue? (c : Char) : Option Nat :=
  if '0' ≤ c ∧ c ≤ '9' then some (c.toNat - '0'.toNat)
  else if 'a' ≤ c ∧ c ≤ 'f' then some (c.toNat - 'a'.toNat + 10)
  else if 'A' ≤ c ∧ c ≤ 'F' then some (c.toNat - 'A'.toNat + 10)
  else none

/-- Reads four hexadecimal digits. -/
def readHex4? : List Char → Option (Nat × List Char)
  | a :: b :: c :: d :: text => do
    let a ← hexValue? a
    let b ← hexValue? b
    let c ← hexValue? c
    let d ← hexValue? d
    return (((a * 16 + b) * 16 + c) * 16 + d, text)
  | _ => none

/-- Reads what follows `\u`: a character, or the two halves of one. -/
def readUnicode? (text : List Char) : Option (Char × List Char) := do
  let (high, text) ← readHex4? text
  if 0xDC00 ≤ high ∧ high ≤ 0xDFFF then none
  else if 0xD800 ≤ high ∧ high ≤ 0xDBFF then
    match text with
    | '\\' :: 'u' :: text =>
      let (low, text) ← readHex4? text
      if 0xDC00 ≤ low ∧ low ≤ 0xDFFF then
        some (Char.ofNat (0x10000 + (high - 0xD800) * 0x400 + (low - 0xDC00)), text)
      else none
    | _ => none
  else some (Char.ofNat high, text)

/-- The character that a single letter after a backslash stands for. -/
def shortEscape? (c : Char) : Option Char :=
  if c = '"' then some '"'
  else if c = '\\' then some '\\'
  else if c = '/' then some '/'
  else if c = 'b' then some '\x08'
  else if c = 'f' then some '\x0c'
  else if c = 'n' then some '\n'
  else if c = 'r' then some '\r'
  else if c = 't' then some '\t'
  else none

/-- Reads the rest of a string up to its closing quote; `read` is what was read, latest first. -/
def readString? : Nat → List Char → List Char → Option (String × List Char)
  | 0, _, _ => none
  | _ + 1, _, [] => none
  | fuel + 1, read, c :: text =>
    if c = '"' then some (String.ofList read.reverse, text)
    else if c = '\\' then
      match text with
      | [] => none
      | e :: text =>
        if e = 'u' then
          match readUnicode? text with
          | none => none
          | some (c, text) => readString? fuel (c :: read) text
        else
          match shortEscape? e with
          | none => none
          | some c => readString? fuel (c :: read) text
    else if c.toNat < 0x20 then none
    else readString? fuel (c :: read) text

/-! ## Values -/

/-- Whether a character is white space between tokens. -/
def isSpace (c : Char) : Bool := c == ' ' || c == '\n' || c == '\t' || c == '\r'

/-- Skips white space. -/
def skip (text : List Char) : List Char := text.dropWhile isSpace

/-- A reader of one value. -/
abbrev ItemReader := List Char → Option (Json × List Char)

/-- Reads the items of an array after its bracket or a comma. -/
def readItems? (item : ItemReader) : Nat → List Json → List Char → Option (Json × List Char)
  | 0, _, _ => none
  | fuel + 1, read, text =>
    match item (skip text) with
    | none => none
    | some (value, text) =>
      match skip text with
      | ',' :: text => readItems? item fuel (value :: read) text
      | ']' :: text => some (.array (value :: read).reverse, text)
      | _ => none

/-- Reads the members of an object after its brace or a comma; `size` bounds the names. -/
def readMembers? (size : Nat) (item : ItemReader) :
    Nat → List (String × Json) → List Char → Option (Json × List Char)
  | 0, _, _ => none
  | fuel + 1, read, text =>
    match skip text with
    | '"' :: text =>
      match readString? size [] text with
      | none => none
      | some (name, text) =>
        match skip text with
        | ':' :: text =>
          match item (skip text) with
          | none => none
          | some (value, text) =>
            match skip text with
            | ',' :: text => readMembers? size item fuel ((name, value) :: read) text
            | '}' :: text => some (ofMembers ((name, value) :: read).reverse, text)
            | _ => none
        | _ => none
    | _ => none

/-- Reads a value whose arrays and objects nest fewer than `depth` deep; `size` is more than the
length of the text. -/
def readValue? (size : Nat) : Nat → ItemReader
  | 0, _ => none
  | depth + 1, text =>
    match text with
    | 'n' :: 'u' :: 'l' :: 'l' :: text => some (.null, text)
    | 't' :: 'r' :: 'u' :: 'e' :: text => some (.bool true, text)
    | 'f' :: 'a' :: 'l' :: 's' :: 'e' :: text => some (.bool false, text)
    | '"' :: text => (readString? size [] text).map fun (s, text) ↦ (.string s, text)
    | '[' :: text =>
      if depth = 0 then none
      else
        match skip text with
        | ']' :: text => some (.array [], text)
        | text => readItems? (readValue? size depth) size [] text
    | '{' :: text =>
      if depth = 0 then none
      else
        match skip text with
        | '}' :: text => some (.object [], text)
        | text => readMembers? size (readValue? size depth) size [] text
    | text => (readNumber? text).map fun (n, text) ↦ (.number n, text)

/-- How deep values nest at most, counting from one above the outermost. -/
def maxDepth : Nat := 128

/-- The value of a text. -/
def parse? (text : String) : Option Json :=
  match readValue? (text.utf8ByteSize + 1) maxDepth (skip text.toList) with
  | some (value, rest) => if (skip rest).isEmpty then some value else none
  | none => none

end Json
end ImpactGraph
