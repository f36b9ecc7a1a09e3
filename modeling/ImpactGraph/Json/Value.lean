import ImpactGraph.SortedMap
import ImpactGraph.Decimal.Shortest

/-!
# JSON values

A number is either an integer that fits in 64 bits, signed or unsigned, or a double, kept as its
bits.  The members of an object that was read stand in the order of their names, each name once; a
record that is written may list its members in an order of its own.
-/

set_option autoImplicit false

namespace ImpactGraph

/-- A JSON number. -/
inductive JsonNumber
  /-- An integer of 64 bits, signed or unsigned. -/
  | int (value : Int)
  /-- A finite double, by its bits. -/
  | float (bits : UInt64)
  deriving DecidableEq, Repr, Inhabited

namespace JsonNumber

/-- The least integer: it takes 64 bits with its sign. -/
def least : Int := -0x8000000000000000

/-- The greatest integer: it takes 64 bits without a sign. -/
def greatest : Int := 0xFFFFFFFFFFFFFFFF

/-- Whether an integer is kept as it is; any other one is a double. -/
def fits (value : Int) : Bool := least ≤ value && value ≤ greatest

/-- The number of a double. -/
def ofFloat (x : Float) : JsonNumber := .float x.toBits

/-- A decimal number: without an exponent, but with at least one place after the point, where there
are fewer than 5 zeros right after the point and at most 16 digits before it; else with an exponent
that has its sign. -/
def decimalText (d : Decimal) : String :=
  let digits := Nat.toDigits 10 d.digits
  let point : Int := digits.length + d.exponent
  if 0 ≤ d.exponent ∧ point ≤ 16 then
    String.ofList (digits ++ List.replicate d.exponent.toNat '0' ++ ['.', '0'])
  else if 0 < point ∧ point ≤ 16 then
    String.ofList (digits.take point.toNat ++ '.' :: digits.drop point.toNat)
  else if -5 < point ∧ point ≤ 0 then
    String.ofList (['0', '.'] ++ List.replicate (-point).toNat '0' ++ digits)
  else
    let mantissa := match digits with
      | [d] => [d]
      | d :: ds => d :: '.' :: ds
      | [] => ['0']
    let sign := if 0 < point then "+" else ""
    String.ofList mantissa ++ "e" ++ sign ++ toString (point - 1)

/-- The bit that holds the sign of a double. -/
def signBit : Nat := 0x8000000000000000

/-- The text of a number: integers in full, doubles with the fewest digits that read back. -/
def text : JsonNumber → String
  | .int value => toString value
  | .float bits =>
    let sign := if bits.toNat < signBit then "" else "-"
    if bits.toNat % signBit = 0 then sign ++ "0.0"
    else sign ++ decimalText (Decimal.shortest (Decimal.Binary.ofBits bits))

end JsonNumber

/-- A JSON value. -/
inductive Json
  | null
  | bool (value : Bool)
  | number (value : JsonNumber)
  | string (text : String)
  | array (items : List Json)
  | object (members : List (String × Json))
  deriving Inhabited, Repr

namespace Json

/-- The integer as a value. -/
def int (value : Int) : Json := .number (.int value)

/-- The natural number as a value. -/
def nat (value : Nat) : Json := .number (.int value)

/-- Strings as a value. -/
def strings (texts : List String) : Json := .array (texts.map .string)

/-- The object with these members; the last of several with one name wins. -/
def ofMembers (members : List (String × Json)) : Json :=
  .object (members.foldl (fun es (k, v) ↦ Entries.insert compare k v es) [])

/-- The member of an object with this name. -/
def member? (name : String) : Json → Option Json
  | .object members => (Entries.find? compare name members).map Prod.snd
  | _ => none

/-- The text of a string value. -/
def string? : Json → Option String
  | .string text => some text
  | _ => none

end Json
end ImpactGraph
