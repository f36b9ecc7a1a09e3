import ImpactGraph.Json.Decode

/-!
# Layers of settings

Settings come from a file, from variables and from the command line.  A `Setting` is a value that
knows where it comes from, and a `Layer` is what one source sets.  `Layer.merge` lays one layer over
another: tables are merged key by key, lists are replaced or continued as the rule says, and of all
else the upper value is taken.

`merge_table` and `merge_list` say so, one equation for each.
-/

set_option autoImplicit false

namespace ImpactGraph

/-- Where a setting comes from. -/
inductive Origin
  /-- From a file or from the command line. -/
  | given
  /-- From a variable. -/
  | variable
  deriving DecidableEq, Repr, Inhabited

/-- A value that is set somewhere. -/
inductive Setting
  /-- No value. -/
  | null (origin : Origin)
  /-- A truth value. -/
  | bool (origin : Origin) (value : Bool)
  /-- A number. -/
  | number (origin : Origin) (value : JsonNumber)
  /-- A text. -/
  | text (origin : Origin) (value : String)
  /-- Values in an order. -/
  | list (origin : Origin) (items : List Setting)
  /-- Values by key, in the order of the keys. -/
  | table (origin : Origin) (entries : List (String × Setting))
  deriving Inhabited

/-- What one source sets, in the order of the keys. -/
abbrev Layer := List (String × Setting)

/-- What becomes of a list over another one. -/
inductive ListRule
  /-- It takes its place. -/
  | replace
  /-- It is appended to it. -/
  | append
  deriving DecidableEq, Repr

namespace Setting

/-- Where a value comes from. -/
def origin : Setting → Origin
  | null origin | bool origin _ | number origin _ | text origin _ | list origin _
  | table origin _ => origin

mutual

/-- The value of a JSON value. -/
def ofJson (origin : Origin) : Json → Setting
  | .null => .null origin
  | .bool value => .bool origin value
  | .number value => .number origin value
  | .string value => .text origin value
  | .array items => .list origin (itemsOfJson origin items)
  | .object members => .table origin (layerOfJson origin members)

/-- The values of the items of an array. -/
def itemsOfJson (origin : Origin) : List Json → List Setting
  | [] => []
  | item :: items => ofJson origin item :: itemsOfJson origin items

/-- The layer of the members of an object. -/
def layerOfJson (origin : Origin) : List (String × Json) → Layer
  | [] => []
  | (name, value) :: members =>
    Entries.insert compare name (ofJson origin value) (layerOfJson origin members)

end

mutual

/-- A value over another one. -/
def merge (rule : ListRule) (lower : Setting) : Setting → Setting
  | .table origin upper =>
    match lower with
    | .table _ entries => .table origin (mergeLayers rule entries upper)
    | _ => .table origin upper
  | .list origin upper =>
    match lower, rule with
    | .list _ items, .append => .list origin (items ++ upper)
    | _, _ => .list origin upper
  | .null origin => .null origin
  | .bool origin value => .bool origin value
  | .number origin value => .number origin value
  | .text origin value => .text origin value

/-- A layer over another one. -/
def mergeLayers (rule : ListRule) (lower : Layer) : Layer → Layer
  | [] => lower
  | (key, value) :: upper =>
    let merged :=
      match Entries.find? compare key lower with
      | some (_, below) => merge rule below value
      | none => value
    mergeLayers rule (Entries.insert compare key merged lower) upper

end

@[simp] theorem merge_table (rule : ListRule) (s t : Origin) (lower upper : Layer) :
    merge rule (.table s lower) (.table t upper) = .table t (mergeLayers rule lower upper) := by
  rw [merge]

@[simp] theorem merge_list (rule : ListRule) (s t : Origin) (lower upper : List Setting) :
    merge rule (.list s lower) (.list t upper) =
      .list t (match rule with | .append => lower ++ upper | .replace => upper) := by
  cases rule <;> simp [merge]

end Setting

/-- A layer over another one. -/
def Layer.merge (rule : ListRule) (lower upper : Layer) : Layer :=
  Setting.mergeLayers rule lower upper

end ImpactGraph
