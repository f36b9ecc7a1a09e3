/-!
# Texts as bytes

`utf8` is a text as bytes.  There are bytes that are no text; `lossy` reads any bytes, and puts the
replacement character where it reads none.  Of the bytes that it cannot read it takes as many for
one replacement as a character may start with (`strayLength`).
-/

set_option autoImplicit false

namespace ImpactGraph
namespace Text

/-- The bytes of a text in UTF-8. -/
def utf8 (text : List Char) : List UInt8 := text.flatMap String.utf8EncodeChar

/-! ## Reading any bytes -/

/-- The character at the start of bytes. -/
def firstChar? (bytes : List UInt8) : Option Char :=
  (bytes.take 4).toByteArray.utf8DecodeChar? 0

/-- Whether a byte may stand inside a character. -/
def isTail (byte : UInt8) : Bool := 0x80 ≤ byte && byte ≤ 0xBF

/-- Whether some character of three bytes or more starts with two bytes.  After four of the first
bytes there are tails that would spell a character in too many bytes, half a pair, or a number above
those of all characters. -/
def canStart (first second : UInt8) : Bool :=
  isTail second &&
    if first = 0xE0 then 0xA0 ≤ second
    else if first = 0xED then second ≤ 0x9F
    else if first = 0xF0 then 0x90 ≤ second
    else if first = 0xF4 then second ≤ 0x8F
    else 0xE1 ≤ first && first ≤ 0xF3

/-- How many bytes one replacement stands for, where there is no character at the start. -/
def strayLength : List UInt8 → Nat
  | first :: second :: rest =>
    if canStart first second then (if 0xF0 ≤ first && rest.head?.any isTail then 3 else 2) else 1
  | _ => 1

/-- Reads bytes from the place where `skipped` of them have been dropped. -/
def lossyFrom : Nat → List UInt8 → List Char
  | _, [] => []
  | skipped + 1, _ :: bytes => lossyFrom skipped bytes
  | 0, byte :: bytes =>
    match firstChar? (byte :: bytes) with
    | some c => c :: lossyFrom (c.utf8Size - 1) bytes
    | none => '\uFFFD' :: lossyFrom (strayLength (byte :: bytes) - 1) bytes

/-- The text of bytes. -/
def lossy (bytes : List UInt8) : List Char := lossyFrom 0 bytes

example : lossy [0x61, 0xFF, 0xC3, 0xA4, 0xF0, 0x9F, 0x92, 0x2F] =
    ['a', '\uFFFD', 'ä', '\uFFFD', '/'] := by decide

end Text
end ImpactGraph
