import ImpactGraph.Toml.Text

/-!
# Numbers, truth values and dates of TOML

A value without quotes or brackets is a *word*: digits, letters, signs, points and colons, and in a
date the one blank before a time.  The word as a whole is a truth value, an integer of 64 bits, a
float, or a date, a time or both.
-/

set_option autoImplicit false

namespace ImpactGraph
namespace Toml

/-! ## Numbers -/

/-- The digits of a text in which single underscores may stand between digits. -/
def digits? (isDigit : Char → Bool) : List Char → Option (List Char)
  | [] => none
  | [c] => if isDigit c then some [c] else none
  | c :: '_' :: rest => if isDigit c then (digits? isDigit rest).map (c :: ·) else none
  | c :: rest => if isDigit c then (digits? isDigit rest).map (c :: ·) else none

/-- Splits off a sign, and says whether it is a minus. -/
def takeSign : List Char → Bool × List Char
  | '-' :: text => (true, text)
  | '+' :: text => (false, text)
  | text => (false, text)

/-- The digits of a decimal integer, which has no zero before other digits. -/
def wholeDigits? (text : List Char) : Option (List Char) :=
  match digits? Char.isDigit text with
  | some ('0' :: _ :: _) => none
  | found => found

/-- The number of digits in a base. -/
def numberOf (base : Nat) (digits : List Char) : Nat :=
  digits.foldl (fun n c ↦ n * base + (Json.hexValue? c).getD 0) 0

/-- An integer that fits in 64 bits with a sign. -/
def fit? (value : Int) : Option Int :=
  if JsonNumber.least ≤ value ∧ value ≤ 0x7FFFFFFFFFFFFFFF then some value else none

/-- The integer of a word: decimal with a sign, or in another base without one. -/
def integer? (word : List Char) : Option Int := do
  let based (base : Nat) (isDigit : Char → Bool) (text : List Char) : Option Int := do
    fit? (numberOf base (← digits? isDigit text))
  match word with
  | '0' :: 'x' :: text => based 16 (fun c ↦ (Json.hexValue? c).isSome) text
  | '0' :: 'o' :: text => based 8 (fun c ↦ '0' ≤ c && c ≤ '7') text
  | '0' :: 'b' :: text => based 2 (fun c ↦ c == '0' || c == '1') text
  | _ =>
    let (negative, text) := takeSign word
    let value : Int := numberOf 10 (← wholeDigits? text)
    fit? (if negative then -value else value)

/-- A double from digits and a power of ten, infinite when it is too large. -/
def doubleOf (digits : List Char) (exponent : Int) : Float :=
  let significand := numberOf 10 digits
  let point := ((Nat.toDigits 10 significand).length : Int) + exponent
  if significand = 0 ∨ point < -400 then 0
  else if 400 < point then 1 / 0
  else if exponent < 0 then Float.ofScientific significand true exponent.natAbs
  else Float.ofScientific significand false exponent.natAbs

/-- The exponent of a float after its letter. -/
def exponent? (text : List Char) : Option Int := do
  let (negative, text) := takeSign text
  let value : Int := numberOf 10 (← digits? Char.isDigit text)
  return if negative then -value else value

/-- Whether a character starts the exponent of a float. -/
def isExponentLetter (c : Char) : Bool := c == 'e' || c == 'E'

/-- The float of a word: digits with a fraction, an exponent or both, an infinity, or no number.
One that is too large for a double is refused, unless it is negative. -/
def float? (word : List Char) : Option Float := do
  let (negative, text) := takeSign word
  match text with
  | ['i', 'n', 'f'] => return (if negative then -(1 / 0) else 1 / 0)
  | ['n', 'a', 'n'] => return 0 / 0
  | _ =>
    let mantissa := text.takeWhile (!isExponentLetter ·)
    let exponent ← match text.drop mantissa.length with
      | [] => some none
      | _ :: rest => (exponent? rest).map some
    let (whole, fraction) ← match Text.cutAtChar '.' mantissa with
      | none => if exponent.isNone then none else some (mantissa, [])
      | some (whole, fraction) => (digits? Char.isDigit fraction).map ((whole, ·))
    let whole ← wholeDigits? whole
    let x := doubleOf (whole ++ fraction) (exponent.getD 0 - fraction.length)
    if negative then some (-x) else if x.isInf then none else some x

/-! ## Dates -/

/-- The number of exactly `count` digits, which must not exceed a limit, and what follows. -/
def takeNumber? (count least most : Nat) (text : List Char) : Option (Nat × List Char) :=
  let digits := text.take count
  let value := numberOf 10 digits
  if digits.length = count ∧ digits.all Char.isDigit ∧ least ≤ value ∧ value ≤ most then
    some (value, text.drop count)
  else none

/-- What follows a character. -/
def take? (c : Char) : List Char → Option (List Char)
  | d :: text => if c = d then some text else none
  | [] => none

/-- The number of days of a month. -/
def daysOf (year month : Nat) : Nat :=
  if month = 2 then
    if year % 4 = 0 ∧ (year % 100 ≠ 0 ∨ year % 400 = 0) then 29 else 28
  else if month = 4 ∨ month = 6 ∨ month = 9 ∨ month = 11 then 30
  else 31

/-- What follows a date. -/
def afterDate? (text : List Char) : Option (List Char) := do
  let (year, text) ← takeNumber? 4 0 9999 text
  let (month, text) ← takeNumber? 2 1 12 (← take? '-' text)
  let (_, text) ← takeNumber? 2 1 (daysOf year month) (← take? '-' text)
  return text

/-- What follows a time to the second. -/
def afterTime? (text : List Char) : Option (List Char) := do
  let (_, text) ← takeNumber? 2 0 23 text
  let (_, text) ← takeNumber? 2 0 59 (← take? ':' text)
  let (_, text) ← takeNumber? 2 0 60 (← take? ':' text)
  return text

/-- The fraction of a second as it is shown: up to nine digits without zeros at the end. -/
def fractionText (digits : List Char) : List Char :=
  match ((digits.take 9).reverse.dropWhile (· == '0')).reverse with
  | [] => []
  | digits => '.' :: digits

/-- The text of a time, and what follows it. -/
def time? (text : List Char) : Option (List Char × List Char) := do
  let rest ← afterTime? text
  match rest with
  | '.' :: rest =>
    let digits := rest.takeWhile Char.isDigit
    if digits.isEmpty then none
    else some (text.take 8 ++ fractionText digits, rest.drop digits.length)
  | _ => some (text.take 8, rest)

/-- The text of an offset from universal time, which is all that follows a time; none is ahead. -/
def offset? : List Char → Option (List Char)
  | [] => some []
  | ['Z'] | ['z'] => some ['Z']
  | sign :: text => do
    if sign ≠ '+' ∧ sign ≠ '-' then none
    let (hours, rest) ← takeNumber? 2 0 23 text
    let (minutes, rest) ← takeNumber? 2 0 59 (← take? ':' rest)
    let sign := if hours = 0 ∧ minutes = 0 then '+' else sign
    if rest.isEmpty then some (sign :: text) else none

/-- The date, the time or both of a word, in the form in which they are shown. -/
def moment? (word : List Char) : Option String :=
  match afterDate? word with
  | some [] => some (String.ofList word)
  | some (c :: rest) => do
    if c ≠ 'T' ∧ c ≠ 't' ∧ c ≠ ' ' then none
    let (time, rest) ← time? rest
    return String.ofList (word.take 10 ++ 'T' :: time ++ (← offset? rest))
  | none =>
    match time? word with
    | some (time, []) => some (String.ofList time)
    | _ => none

/-! ## Words -/

/-- Whether a character may stand in a word. -/
def isWordChar (c : Char) : Bool :=
  c.isAlphanum || c == '_' || c == '-' || c == '+' || c == '.' || c == ':'

/-- Splits off a word; a date is followed by a time after one blank. -/
def takeWord (text : List Char) : List Char × List Char :=
  let word := text.takeWhile isWordChar
  let rest := text.drop word.length
  match rest with
  | ' ' :: c :: _ =>
    if c.isDigit ∧ afterDate? word = some [] then
      let time := (rest.drop 1).takeWhile isWordChar
      (word ++ ' ' :: time, rest.drop (time.length + 1))
    else (word, rest)
  | _ => (word, rest)

/-- The name under which a date is kept. -/
def dateName : String := "$__toml_private_datetime"

/-- The value of a word.  A float that is not finite is no value, and a date is an object with its
text as the only member. -/
def word? (word : List Char) : Option Json :=
  if word = ['t', 'r', 'u', 'e'] then some (.bool true)
  else if word = ['f', 'a', 'l', 's', 'e'] then some (.bool false)
  else
    match integer? word with
    | some value => some (.int value)
    | none =>
      match float? word with
      | some x => some (if x.isNaN || x.isInf then .null else .number (.ofFloat x))
      | none => (moment? word).map fun text ↦ .object [(dateName, .string text)]

end Toml
end ImpactGraph
