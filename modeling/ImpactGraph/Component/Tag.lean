import ImpactGraph.Text.Blank
import ImpactGraph.Text.Cut

/-!
# The opening tag of a script block

`closingAngle?` finds the `>` that ends an opening tag: the first one outside quotes.
`attributes` reads the inside of the tag as a list of names with optional values, which may be
double-quoted, single-quoted or bare, with blanks around `=`.
-/

set_option autoImplicit false

namespace ImpactGraph
namespace Component

open Text

/-- The quote that is open after a character. -/
def quoteStep (quote : Option Char) (c : Char) : Option Char :=
  match quote with
  | none => if c = '"' || c = '\'' then some c else none
  | some q => if c = q then none else some q

/-- Collects the inside of a tag up to the `>` outside quotes, latest first. -/
def closingAngleFrom (quote : Option Char) (inside : List Char) :
    List Char → Option (List Char × List Char)
  | [] => none
  | c :: text =>
    if c = '>' && quote.isNone then some (inside, text)
    else closingAngleFrom (quoteStep quote c) (c :: inside) text

/-- What stands before the `>` that closes an opening tag, and what follows it. -/
def closingAngle? (text : List Char) : Option (List Char × List Char) :=
  (closingAngleFrom none [] text).map fun (inside, after) ↦ (inside.reverse, after)

/-- An attribute of a tag; one without `=` has no value. -/
structure Attribute where
  /-- The name as written. -/
  name : List Char
  /-- The value, without its quotes. -/
  value : Option (List Char)
  deriving DecidableEq, Repr

/-- Whether a character may stand before an attribute: a blank or a slash. -/
def isGap (c : Char) : Bool := isBlank c || c == '/'

/-- Whether a character ends the name of an attribute. -/
def endsName (c : Char) : Bool := isBlank c || c == '=' || c == '/' || c == '>'

/-- Whether a character ends a bare value. -/
def endsBareValue (c : Char) : Bool := isBlank c || c == '>'

/-- The value that starts a text after `=`, and what follows it.  A quoted value ends at its quote,
or with the text. -/
def takeValue (text : List Char) : List Char × List Char :=
  match text with
  | [] => ([], [])
  | c :: rest =>
    if c = '"' || c = '\'' then
      (rest.takeWhile (· != c), (rest.dropWhile (· != c)).drop 1)
    else (text.takeWhile (!endsBareValue ·), text.dropWhile (!endsBareValue ·))

/-- The name that starts a text at a character `c` that is no gap, and what follows it.  It has at
least one character, even one that would end a name. -/
def takeName (c : Char) (text : List Char) : List Char × List Char :=
  if endsName c then ([c], text)
  else (c :: text.takeWhile (!endsName ·), text.dropWhile (!endsName ·))

/-- The attribute that starts a text at a character `c` that is no gap, and what follows it. -/
def takeAttribute (c : Char) (text : List Char) : Attribute × List Char :=
  match trimStart (takeName c text).2 with
  | [] => (⟨(takeName c text).1, none⟩, (takeName c text).2)
  | sign :: after =>
    if sign = '=' then
      (⟨(takeName c text).1, some (takeValue (trimStart after)).1⟩,
        (takeValue (trimStart after)).2)
    else (⟨(takeName c text).1, none⟩, (takeName c text).2)

theorem length_dropWhile_le (p : Char → Bool) (l : List Char) :
    (l.dropWhile p).length ≤ l.length :=
  (List.dropWhile_sublist p).length_le

theorem length_takeValue_le (text : List Char) : (takeValue text).2.length ≤ text.length := by
  cases text with
  | nil => simp [takeValue]
  | cons c rest =>
    rw [takeValue]
    split
    · have := length_dropWhile_le (· != c) rest
      simp only [List.length_drop, List.length_cons]; omega
    · exact length_dropWhile_le _ _

theorem length_takeName_le (c : Char) (text : List Char) :
    (takeName c text).2.length ≤ text.length := by
  rw [takeName]
  split
  · exact Nat.le_refl _
  · exact length_dropWhile_le _ _

theorem length_takeAttribute_le (c : Char) (text : List Char) :
    (takeAttribute c text).2.length ≤ text.length := by
  have h₁ := length_takeName_le c text
  have h₂ : (trimStart (takeName c text).2).length ≤ (takeName c text).2.length :=
    length_dropWhile_le _ _
  unfold takeAttribute
  generalize takeName c text = taken at h₁ h₂ ⊢
  cases h : trimStart taken.2 with
  | nil => exact h₁
  | cons sign after =>
    rw [h, List.length_cons] at h₂
    have h₃ := length_takeValue_le (trimStart after)
    have h₄ : (trimStart after).length ≤ after.length := length_dropWhile_le _ _
    by_cases hs : sign = '='
    · simp only [hs, if_true]; omega
    · simp only [hs, if_false]; omega

/-- The attributes of the inside of a tag, in order. -/
def attributes (text : List Char) : List Attribute :=
  match h : text.dropWhile isGap with
  | [] => []
  | c :: rest =>
    have : (takeAttribute c rest).2.length < text.length := by
      have h₁ := length_dropWhile_le isGap text
      have h₂ := length_takeAttribute_le c rest
      rw [h, List.length_cons] at h₁
      omega
    (takeAttribute c rest).1 :: attributes (takeAttribute c rest).2
  termination_by text.length

/-- Whether the tag has an attribute `setup`. -/
def hasSetup (attrs : List Attribute) : Bool := attrs.any (·.name == "setup".toList)

/-- The lower-case form of an ASCII letter; any other character is left alone. -/
def lowerAscii (c : Char) : Char := c.toLower

/-- The language of a tag that names none. -/
def defaultLang : String := "js"

/-- The value of the first attribute named `lang` in any case of letters, unless it is missing or
empty. -/
def langOf (attrs : List Attribute) : String :=
  match (attrs.find? fun a ↦ a.name.map lowerAscii == "lang".toList).bind (·.value) with
  | none | some [] => defaultLang
  | some value => String.ofList value

end Component
end ImpactGraph
