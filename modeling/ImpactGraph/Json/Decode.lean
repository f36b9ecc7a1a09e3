import ImpactGraph.Json.Value

/-!
# Reading records from JSON

A record is read from an object with its fields as members, other members being ignored, or from an
array of its fields in their order.
-/

set_option autoImplicit false

namespace ImpactGraph
namespace Json

/-- The members of an object. -/
def members? : Json → Option (List (String × Json))
  | .object members => some members
  | _ => none

/-- The items of an array. -/
def items? : Json → Option (List Json)
  | .array items => some items
  | _ => none

/-- The truth value. -/
def bool? : Json → Option Bool
  | .bool value => some value
  | _ => none

/-- The texts of an array of strings. -/
def strings? (value : Json) : Option (List String) := do
  (← value.items?).mapM string?

/-- The fields of a record: those of an object by their names, or the items of an array of as many
items. -/
def fields? (names : List String) : Json → Option (String → Option Json)
  | value@(.object _) => some fun name ↦ value.member? name
  | .array items =>
    if items.length = names.length then
      some fun name ↦ (names.zip items).lookup name
    else none
  | _ => none

/-- The values of an object whose members are strings. -/
def textMap? (value : Json) : Option (SortedMap String String) := do
  let entries ← (← value.members?).mapM fun (name, v) ↦ do return (name, ← v.string?)
  return SortedMap.ofList entries

/-- An object of texts. -/
def ofTextMap (texts : SortedMap String String) : Json :=
  .object (texts.entries.map fun (name, text) ↦ (name, .string text))

end Json
end ImpactGraph
