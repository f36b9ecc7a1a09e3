import ImpactGraph.Source.Alphabet
import ImpactGraph.Source.Token

/-!
# From text to tokens

`lex` reads the token at a place of a text: it skips white space and comments and reports whether
a line ended on the way.  Which token a stretch is can depend on where it stands, so the parser
reads regular expressions, the pieces of a template after a substitution, and the text and names
of markup with readers of their own.  A `>` is always read alone; `joinGreater` reads the longer
operators that start with it.

A stretch of the text may be read more than once, and not always as the same tokens.  A comment is
noted when a reading comes across it first, and none is noted that starts before one noted
already, so `Comments` holds each comment once and in the order of the text.
-/

set_option autoImplicit false

namespace ImpactGraph
namespace Source

/-! ## Places in a text -/

/-- The characters of a text; a place in it is the number of characters before it. -/
abbrev Chars := Array Char

/-- The text between two places. -/
def slice (text : Chars) (start stop : Nat) : String :=
  String.ofList (text.extract start stop).toList

/-- Whether a character stands at a place. -/
def holds (text : Chars) (i : Nat) (c : Char) : Bool := text[i]? == some c

/-- The first place from `i` on that holds no character of a class. -/
def skipWhile (test : Char → Bool) (text : Chars) (i : Nat) : Nat :=
  if h : i < text.size then
    if test text[i] then skipWhile test text (i + 1) else i
  else i
termination_by text.size - i

/-! ## White space and comments -/

/-- Whether a character ends a line. -/
def isLineEnd (c : Char) : Bool :=
  c == '\n' || c == '\r' || c.toNat == 0x2028 || c.toNat == 0x2029

/-- Whether a character is white space within a line. -/
def isSpace (c : Char) : Bool :=
  let n := c.toNat
  n == 0x20 || n == 9 || n == 0xB || n == 0xC || n == 0x85 || n == 0xA0 || n == 0x1680 ||
    (0x2000 ≤ n && n ≤ 0x200B) || n == 0x202F || n == 0x205F || n == 0x3000 || n == 0xFEFF

/-- The comments that readings of a text have come across. -/
structure Comments where
  /-- The contents of the block comments, latest first. -/
  blocks : List String
  /-- No comment that starts before this place is noted any more. -/
  frontier : Nat
  deriving Repr, Inhabited

namespace Comments

/-- The comments of a text of which nothing has been read. -/
def none : Comments := ⟨[], 0⟩

/-- Notes a comment up to the end of its line. -/
def noteLine (comments : Comments) (start : Nat) : Comments :=
  { comments with frontier := max comments.frontier (start + 1) }

/-- Notes a block comment. -/
def noteBlock (comments : Comments) (start : Nat) (content : String) : Comments :=
  if start < comments.frontier then comments else ⟨content :: comments.blocks, start + 1⟩

end Comments

/-- Where white space is being skipped. -/
inductive Skip
  /-- Between tokens. -/
  | blank
  /-- In a comment up to the end of its line. -/
  | line
  /-- In a block comment from `start`; `star` if the last character is a star that may close it. -/
  | block (start : Nat) (star : Bool)

/-- What white space leads to. -/
structure Skipped where
  /-- The place after it. -/
  place : Nat
  /-- Whether a line ended on the way. -/
  newline : Bool
  /-- The comments so far. -/
  comments : Comments

/-- Skips white space and comments; a block comment that is not closed is an error. -/
def skipBlank (text : Chars) (i : Nat) (newline : Bool) (comments : Comments) (mode : Skip) :
    Option Skipped :=
  if h : i < text.size then
    let c := text[i]
    match mode with
    | .blank =>
      if isSpace c then skipBlank text (i + 1) newline comments .blank
      else if isLineEnd c then skipBlank text (i + 1) true comments .blank
      else if c == '/' && holds text (i + 1) '/' then
        skipBlank text (i + 2) newline (comments.noteLine i) .line
      else if c == '/' && holds text (i + 1) '*' then
        skipBlank text (i + 2) newline comments (.block i false)
      else some ⟨i, newline, comments⟩
    | .line =>
      if isLineEnd c then skipBlank text (i + 1) true comments .blank
      else skipBlank text (i + 1) newline comments .line
    | .block start star =>
      if star && c == '/' then
        skipBlank text (i + 1) newline (comments.noteBlock start (slice text (start + 2) (i - 1)))
          .blank
      else skipBlank text (i + 1) (newline || isLineEnd c) comments (.block start (c == '*'))
  else
    match mode with
    | .block .. => none
    | _ => some ⟨i, newline, comments⟩
termination_by text.size - i

/-- The place after a first line that starts with `#!`, or the start. -/
def skipHashbang (text : Chars) : Nat :=
  if holds text 0 '#' && holds text 1 '!' then skipWhile (!isLineEnd ·) text 2 else 0

/-! ## Escapes -/

/-- The value of a hexadecimal digit. -/
def hexDigit? (c : Char) : Option Nat :=
  if '0' ≤ c ∧ c ≤ '9' then some (c.toNat - '0'.toNat)
  else if 'a' ≤ c ∧ c ≤ 'f' then some (c.toNat - 'a'.toNat + 10)
  else if 'A' ≤ c ∧ c ≤ 'F' then some (c.toNat - 'A'.toNat + 10)
  else none

/-- Reads `n` hexadecimal digits. -/
def readHex? (value : Nat) : Nat → List Char → Option (Nat × List Char)
  | 0, text => some (value, text)
  | _ + 1, [] => none
  | n + 1, c :: text => (hexDigit? c).bind fun d ↦ readHex? (value * 16 + d) n text

/-- Reads the rest of a braced escape, after at least one digit. -/
def readBraced? (value : Nat) : List Char → Option (Nat × List Char)
  | [] => none
  | c :: text =>
    if c == '}' then some (value, text)
    else
      match hexDigit? c with
      | none => none
      | some d => if 0x10FFFF < value * 16 + d then none else readBraced? (value * 16 + d) text

/-- Reads what follows `\u`: four digits, or any number of them in braces. -/
def readCodePoint? (text : List Char) : Option (Nat × List Char) :=
  match text with
  | '{' :: c :: rest => (hexDigit? c).bind fun d ↦ readBraced? d rest
  | _ => readHex? 0 4 text

/-- A unit of a string: a character, or half of a pair that stands alone. -/
inductive Unit16
  | char (c : Char)
  | half (code : Nat)

/-- The unit of a code point. -/
def Unit16.ofNat (n : Nat) : Unit16 :=
  if 0xD800 ≤ n ∧ n ≤ 0xDFFF then .half n else .char (Char.ofNat n)

/-- Whether the unit is a character. -/
def Unit16.isChar : Unit16 → Bool
  | char _ => true
  | half _ => false

/-- A number as four hexadecimal digits. -/
def hex4 (n : Nat) : List Char :=
  [Nat.digitChar (n / 4096 % 16), Nat.digitChar (n / 256 % 16), Nat.digitChar (n / 16 % 16),
    Nat.digitChar (n % 16)]

/-- The character that marks a lone half in the text of a string. -/
def replacement : Char := Char.ofNat 0xFFFD

/-- The text of units.  When a half stands alone, each lone half, and each replacement character
itself, is written as the replacement character and its four digits. -/
def textOfUnits (units : List Unit16) : String :=
  let lone := !units.all Unit16.isChar
  String.ofList (units.flatMap fun u ↦ match u with
    | .char c => if lone && c == replacement then c :: hex4 c.toNat else [c]
    | .half n => replacement :: hex4 n)

/-- Reads what follows `\u` in a string; two escapes of four digits may be the halves of one
character. -/
def readUnicodeUnit? (text : List Char) : Option (Unit16 × List Char) := do
  let (high, rest) ← readCodePoint? text
  if 0xD800 ≤ high ∧ high ≤ 0xDBFF ∧ text.head? ≠ some '{' then
    match rest with
    | '\\' :: 'u' :: after =>
      match readHex? 0 4 after with
      | some (low, after) =>
        if 0xDC00 ≤ low ∧ low ≤ 0xDFFF then
          return (.char (Char.ofNat (0x10000 + (high - 0xD800) * 0x400 + (low - 0xDC00))), after)
        else return (.half high, rest)
      | none => return (.half high, rest)
    | _ => return (.half high, rest)
  else return (Unit16.ofNat high, rest)

/-- Whether a character is an octal digit. -/
def isOctal (c : Char) : Bool := '0' ≤ c && c ≤ '7'

/-- Reads an octal escape of up to three digits whose first digit is `c`. -/
def readOctal (c : Char) (text : List Char) : Nat × List Char :=
  let more := if c ≤ '3' then 2 else 1
  let digits := (text.take more).takeWhile isOctal
  (digits.foldl (fun n d ↦ n * 8 + (d.toNat - '0'.toNat)) (c.toNat - '0'.toNat),
    text.drop digits.length)

/-- What an escape in a string or template stands for, and the text after it.  Octal escapes are
read in strings only. -/
def readEscape? (octal : Bool) : List Char → Option (List Unit16 × List Char)
  | [] => none
  | c :: text =>
    if c == 'n' then some ([.char '\n'], text)
    else if c == 't' then some ([.char '\t'], text)
    else if c == 'r' then some ([.char '\r'], text)
    else if c == 'b' then some ([.char '\x08'], text)
    else if c == 'f' then some ([.char '\x0c'], text)
    else if c == 'v' then some ([.char '\x0b'], text)
    else if c == 'x' then (readHex? 0 2 text).map fun (n, rest) ↦ ([Unit16.ofNat n], rest)
    else if c == 'u' then (readUnicodeUnit? text).map fun (u, rest) ↦ ([u], rest)
    else if c == '\r' then
      match text with
      | '\n' :: rest => some ([], rest)
      | _ => some ([], text)
    else if isLineEnd c then some ([], text)
    else if c == '0' && !(text.head?.any Char.isDigit) then some ([.char '\x00'], text)
    else if isOctal c then
      if octal then
        let (n, rest) := readOctal c text
        some ([Unit16.ofNat n], rest)
      else none
    else if c.isDigit then if octal then some ([.char c], text) else none
    else some ([.char c], text)

/-! ## Strings and templates -/

/-- The units of the inside of a string or template, after those in `read`; in a template a carriage
return counts as a line feed, alone or before one. -/
def unitsOf? (template : Bool) : Nat → List Unit16 → List Char → Option (List Unit16)
  | 0, _, _ => none
  | _ + 1, read, [] => some read.reverse
  | fuel + 1, read, c :: text =>
    if c == '\\' then
      (readEscape? (!template) text).bind fun (us, rest) ↦
        unitsOf? template fuel (us.reverse ++ read) rest
    else if template && c == '\r' then
      unitsOf? template fuel (.char '\n' :: read)
        (if text.head? == some '\n' then text.drop 1 else text)
    else unitsOf? template fuel (.char c :: read) text

/-- The units of the inside of a string or template between two places. -/
def unitsBetween? (template : Bool) (text : Chars) (start stop : Nat) : Option (List Unit16) :=
  unitsOf? template (stop - start + 1) [] (text.extract start stop).toList

/-- The place of the quote that closes a string; a line may not end before it. -/
def closingQuote? (quote : Char) (text : Chars) (i : Nat) (escaped : Bool) : Option Nat :=
  if h : i < text.size then
    let c := text[i]
    if escaped then
      closingQuote? quote text (if c == '\r' && holds text (i + 1) '\n' then i + 2 else i + 1) false
    else if c == quote then some i
    else if c == '\n' || c == '\r' then none
    else closingQuote? quote text (i + 1) (c == '\\')
  else none
termination_by text.size - i
decreasing_by all_goals (first | omega | (split <;> omega))

/-- Reads a string from its opening quote. -/
def readStringLiteral (quote : Char) (text : Chars) (start : Nat) : Token × Nat :=
  match closingQuote? quote text (start + 1) false with
  | none => (.invalid, text.size)
  | some stop =>
    match unitsBetween? false text (start + 1) stop with
    | none => (.invalid, stop)
    | some units => (.string (textOfUnits units) (units.all Unit16.isChar), stop + 1)

/-- The place where a piece of a template ends, and whether the template ends with it. -/
def pieceEnd? (text : Chars) (i : Nat) (escaped : Bool) : Option (Nat × Bool) :=
  if h : i < text.size then
    let c := text[i]
    if escaped then pieceEnd? text (i + 1) false
    else if c == '`' then some (i, true)
    else if c == '$' && holds text (i + 1) '{' then some (i, false)
    else pieceEnd? text (i + 1) (c == '\\')
  else none
termination_by text.size - i

/-- Reads a piece of a template after the mark that opens it. -/
def readTemplate (text : Chars) (start : Nat) : Token × Nat :=
  match pieceEnd? text start false with
  | none => (.invalid, text.size)
  | some (stop, closed) =>
    (.template ((unitsBetween? true text start stop).map textOfUnits) closed,
      if closed then stop + 1 else stop + 2)

/-! ## Names and numbers -/

/-- Reads the rest of a name that holds escapes; an escape stands for a character that may continue
a name, or start it. -/
def readEscapedName? : Nat → List Char → List Char → Option (List Char × List Char)
  | 0, _, _ => none
  | _ + 1, name, [] => some (name.reverse, [])
  | fuel + 1, name, c :: text =>
    if continuesName c then readEscapedName? fuel (c :: name) text
    else if c == '\\' then
      match text with
      | 'u' :: rest =>
        match readCodePoint? rest with
        | none => none
        | some (n, rest) =>
          let d := Char.ofNat n
          if n.isValidChar && (if name.isEmpty then startsName d else continuesName d) then
            readEscapedName? fuel (d :: name) rest
          else none
      | _ => none
    else some (name.reverse, c :: text)

/-- Reads a name that may hold escapes: its text, whether it holds any, and the place after it. -/
def readWord? (text : Chars) (start : Nat) : Option (String × Bool × Nat) :=
  let starts := text[start]?.any startsName
  let stop := if starts then skipWhile continuesName text (start + 1) else start
  if holds text stop '\\' then
    let rest := (text.extract start text.size).toList
    (readEscapedName? (text.size - start + 1) [] rest).map fun (name, rest) ↦
      (String.ofList name, true, text.size - rest.length)
  else if starts then some (slice text start stop, false, stop)
  else none

/-- The place after the rest of a run of digits with single underscores between them. -/
def skipDigits? (isDigit : Char → Bool) (text : Chars) (i : Nat) : Option Nat :=
  if h : i < text.size then
    if isDigit text[i] then skipDigits? isDigit text (i + 1)
    else if text[i] == '_' then
      if text[i + 1]?.any isDigit then skipDigits? isDigit text (i + 2) else none
    else some i
  else some i
termination_by text.size - i

/-- The place after a run of digits, of which there is at least one. -/
def readDigits? (isDigit : Char → Bool) (text : Chars) (i : Nat) : Option Nat :=
  if text[i]?.any isDigit then skipDigits? isDigit text (i + 1) else none

/-- A number is followed neither by a name nor by a digit. -/
def endNumber (text : Chars) (i : Nat) : Token × Nat :=
  if text[i]?.any fun c ↦ startsName c || c.isDigit then (.invalid, i) else (.number, i)

/-- Reads the digits of an exponent and their sign. -/
def readExponent? (text : Chars) (i : Nat) : Option Nat :=
  readDigits? Char.isDigit text
    (if text[i]?.any fun c ↦ c == '+' || c == '-' then i + 1 else i)

/-- Reads an optional exponent, then ends the number. -/
def readOptionalExponent (text : Chars) (i : Nat) : Token × Nat :=
  if text[i]?.any fun c ↦ c == 'e' || c == 'E' then
    match readExponent? text (i + 1) with
    | none => (.invalid, i + 1)
    | some j => endNumber text j
  else endNumber text i

/-- Reads an exponent that ends the number, whatever stands after it. -/
def readFinalExponent (text : Chars) (i : Nat) : Token × Nat :=
  match readExponent? text i with
  | none => (.invalid, i)
  | some j => (.number, j)

/-- Reads the places after a point, which may be none, then ends the number. -/
def readFraction (text : Chars) (i : Nat) : Token × Nat :=
  if text[i]?.any Char.isDigit then
    match readDigits? Char.isDigit text i with
    | none => (.invalid, i)
    | some j => readOptionalExponent text j
  else readOptionalExponent text i

/-- Reads the digits of another base, which may be followed by `n`. -/
def readBase (isDigit : Char → Bool) (text : Chars) (i : Nat) : Token × Nat :=
  match readDigits? isDigit text i with
  | none => (.invalid, i)
  | some j => endNumber text (if holds text j 'n' then j + 1 else j)

/-- Reads a number that starts with a zero and a digit, from that digit on: octal, unless an 8 or 9
makes it decimal. -/
def readZeroLed (text : Chars) (i : Nat) : Token × Nat :=
  let j := skipWhile Char.isDigit text i
  if (text.extract i j).all isOctal then endNumber text j
  else if holds text j '.' then readFraction text (j + 1)
  else if holds text j 'e' then readFinalExponent text (j + 1)
  else endNumber text j

/-- Whether a character is a hexadecimal digit. -/
def isHex (c : Char) : Bool := (hexDigit? c).isSome

/-- Whether a character is a binary digit. -/
def isBinary (c : Char) : Bool := c == '0' || c == '1'

/-- Reads a number from its first digit. -/
def readNumber (text : Chars) (start : Nat) : Token × Nat :=
  let next := start + 1
  if holds text start '0' then
    match text[next]? with
    | none => (.number, next)
    | some d =>
      if d == 'x' || d == 'X' then readBase isHex text (next + 1)
      else if d == 'o' || d == 'O' then readBase isOctal text (next + 1)
      else if d == 'b' || d == 'B' then readBase isBinary text (next + 1)
      else if d == 'e' || d == 'E' then readFinalExponent text (next + 1)
      else if d == '.' then readFraction text (next + 1)
      else if d == 'n' then endNumber text (next + 1)
      else if d.isDigit then readZeroLed text next
      else endNumber text next
  else
    match readDigits? Char.isDigit text start with
    | none => (.invalid, next)
    | some j =>
      if holds text j '.' then readFraction text (j + 1)
      else if holds text j 'n' then endNumber text (j + 1)
      else readOptionalExponent text j

/-! ## Punctuators -/

/-- The punctuator that the next characters form, and how many of them; a `>` is read alone. -/
def readPunct : List Char → Option (Punct × Nat)
  | '{' :: _ => some (.lbrace, 1)
  | '}' :: _ => some (.rbrace, 1)
  | '(' :: _ => some (.lparen, 1)
  | ')' :: _ => some (.rparen, 1)
  | '[' :: _ => some (.lbracket, 1)
  | ']' :: _ => some (.rbracket, 1)
  | ';' :: _ => some (.semicolon, 1)
  | ',' :: _ => some (.comma, 1)
  | ':' :: _ => some (.colon, 1)
  | '~' :: _ => some (.tilde, 1)
  | '@' :: _ => some (.at, 1)
  | '>' :: _ => some (.greater, 1)
  | '.' :: '.' :: '.' :: _ => some (.ellipsis, 3)
  | '.' :: _ => some (.dot, 1)
  | '<' :: '<' :: '=' :: _ => some (.shiftLeftAssign, 3)
  | '<' :: '<' :: _ => some (.shiftLeft, 2)
  | '<' :: '=' :: _ => some (.lessEq, 2)
  | '<' :: _ => some (.less, 1)
  | '=' :: '=' :: '=' :: _ => some (.eqEqEq, 3)
  | '=' :: '=' :: _ => some (.eqEq, 2)
  | '=' :: '>' :: _ => some (.arrow, 2)
  | '=' :: _ => some (.assign, 1)
  | '!' :: '=' :: '=' :: _ => some (.notEqEq, 3)
  | '!' :: '=' :: _ => some (.notEq, 2)
  | '!' :: _ => some (.bang, 1)
  | '+' :: '+' :: _ => some (.plusPlus, 2)
  | '+' :: '=' :: _ => some (.plusAssign, 2)
  | '+' :: _ => some (.plus, 1)
  | '-' :: '-' :: _ => some (.minusMinus, 2)
  | '-' :: '=' :: _ => some (.minusAssign, 2)
  | '-' :: _ => some (.minus, 1)
  | '*' :: '*' :: '=' :: _ => some (.starStarAssign, 3)
  | '*' :: '*' :: _ => some (.starStar, 2)
  | '*' :: '=' :: _ => some (.starAssign, 2)
  | '*' :: _ => some (.star, 1)
  | '/' :: '=' :: _ => some (.slashAssign, 2)
  | '/' :: _ => some (.slash, 1)
  | '%' :: '=' :: _ => some (.percentAssign, 2)
  | '%' :: _ => some (.percent, 1)
  | '&' :: '&' :: '=' :: _ => some (.ampAmpAssign, 3)
  | '&' :: '&' :: _ => some (.ampAmp, 2)
  | '&' :: '=' :: _ => some (.ampAssign, 2)
  | '&' :: _ => some (.amp, 1)
  | '|' :: '|' :: '=' :: _ => some (.barBarAssign, 3)
  | '|' :: '|' :: _ => some (.barBar, 2)
  | '|' :: '=' :: _ => some (.barAssign, 2)
  | '|' :: _ => some (.bar, 1)
  | '^' :: '=' :: _ => some (.caretAssign, 2)
  | '^' :: _ => some (.caret, 1)
  | '?' :: '?' :: '=' :: _ => some (.questionQuestionAssign, 3)
  | '?' :: '?' :: _ => some (.questionQuestion, 2)
  | '?' :: '.' :: s =>
    if s.head?.any Char.isDigit then some (.question, 1) else some (.questionDot, 2)
  | '?' :: _ => some (.question, 1)
  | _ => none

/-- The longest operator that starts with a `>` before a place, and the place after it. -/
def joinGreater (text : Chars) (i : Nat) : Punct × Nat :=
  match (text.extract i (i + 3)).toList with
  | '>' :: '>' :: '=' :: _ => (.shiftRightZeroAssign, i + 3)
  | '>' :: '>' :: _ => (.shiftRightZero, i + 2)
  | '>' :: '=' :: _ => (.shiftRightAssign, i + 2)
  | '>' :: _ => (.shiftRight, i + 1)
  | '=' :: _ => (.greaterEq, i + 1)
  | _ => (.greater, i)

/-! ## Regular expressions and markup -/

/-- The place after the slash that closes the body of a regular expression; `inClass` says whether
a bracketed class is open. -/
def skipRegexBody? (text : Chars) (i : Nat) (inClass escaped : Bool) : Option Nat :=
  if h : i < text.size then
    let c := text[i]
    if isLineEnd c then none
    else if escaped then skipRegexBody? text (i + 1) inClass false
    else if c == '\\' then skipRegexBody? text (i + 1) inClass true
    else if c == '[' then skipRegexBody? text (i + 1) true false
    else if c == ']' then skipRegexBody? text (i + 1) false false
    else if c == '/' && !inClass then some (i + 1)
    else skipRegexBody? text (i + 1) inClass false
  else none
termination_by text.size - i

/-- Whether letters are flags of a regular expression: each at most once, and not both `u` and
`v`. -/
def validFlags (flags : List Char) : Bool :=
  flags.all ("dgimsuyv".toList.contains ·) && decide flags.Nodup &&
    !(flags.contains 'u' && flags.contains 'v')

/-- The place after a regular expression whose opening slash stands at a place. -/
def readRegex? (text : Chars) (start : Nat) : Option Nat := do
  let body ← skipRegexBody? text (start + 1) false false
  let stop := skipWhile continuesName text body
  if validFlags (text.extract body stop).toList then some stop else none

/-- The place of the `<` or `{` that ends text between tags, or the end; a `>` or `}` is an
error. -/
def skipMarkupText? (text : Chars) (i : Nat) : Option Nat :=
  if h : i < text.size then
    let c := text[i]
    if c == '<' || c == '{' then some i
    else if c == '>' || c == '}' then none
    else skipMarkupText? text (i + 1)
  else some i
termination_by text.size - i

/-! ## Tokens -/

/-- Where a reading of a text stands: at a token. -/
structure Cursor where
  /-- The current token. -/
  token : Token
  /-- Whether a line ended before the current token. -/
  newline : Bool
  /-- The place where the current token starts. -/
  start : Nat
  /-- The place after the current token. -/
  stop : Nat
  deriving Inhabited

/-- Reads the token that starts at a place, and finds the place after it. -/
def readToken (text : Chars) (start : Nat) : Token × Nat :=
  match text[start]? with
  | none => (.eof, start)
  | some c =>
    if startsName c || c == '\\' then
      match readWord? text start with
      | none => (.invalid, start + 1)
      | some (name, escaped, stop) => (.word name escaped, stop)
    else if c.isDigit then readNumber text start
    else if c == '"' || c == '\'' then readStringLiteral c text start
    else if c == '`' then readTemplate text (start + 1)
    else if c == '#' then
      match readWord? text (start + 1) with
      | none => (.invalid, start + 1)
      | some (name, _, stop) => (.privateName name, stop)
    else if c == '.' && text[start + 1]?.any Char.isDigit then readFraction text (start + 1)
    else
      match readPunct (text.extract start (start + 4)).toList with
      | none => (.invalid, start + 1)
      | some (p, size) => (.punct p, start + size)

/-- Moves to the next token from a place on. -/
def lex (text : Chars) (comments : Comments) (i : Nat) : Cursor × Comments :=
  match skipBlank text i false comments .blank with
  | none => (⟨.invalid, false, text.size, text.size⟩, comments)
  | some ⟨start, newline, comments⟩ =>
    let (token, stop) := readToken text start
    (⟨token, newline, start, stop⟩, comments)

end Source
end ImpactGraph
