import ImpactGraph.Settings.Basic
import ImpactGraph.Settings.Fault

/-!
# Reading settings from a layer

`Settings.ofLayer` goes through the keys in their order.  A key sets the field that it spells; keys
that spell none are ignored, and a field that is set under both of its spellings is refused.  The
first value of the wrong type is blamed.
-/

set_option autoImplicit false

namespace ImpactGraph
namespace Setting

/-- The text under some keys. -/
def asText (keys : List String) : Setting → Except SettingsFault String
  | text _ value => .ok value
  | value => .error (.wrongType value keys)

/-- The truth value under some keys. -/
def asBool (keys : List String) : Setting → Except SettingsFault Bool
  | bool _ value => .ok value
  | value => .error (.wrongType value keys)

/-- The natural number of 64 bits under some keys. -/
def asNat (keys : List String) (value : Setting) : Except SettingsFault Nat :=
  match value with
  | number _ (.int n) => if 0 ≤ n then .ok n.toNat else .error (.wrongType value keys)
  | _ => .error (.wrongType value keys)

/-- The texts of items, of which the first has this index. -/
def textsOf (keys : List String) (index : Nat) : List Setting → Except SettingsFault (List String)
  | [] => .ok []
  | item :: items => do
    let value ← item.asText (keys ++ [toString index])
    return value :: (← textsOf keys (index + 1) items)

/-- The texts under some keys. -/
def asTexts (keys : List String) : Setting → Except SettingsFault (List String)
  | list _ items => textsOf keys 0 items
  | value => .error (.wrongType value keys)

/-- The paths of entries, added to those of earlier ones. -/
def pathsOf (keys : List String) (paths : SortedMap String Path) :
    Layer → Except SettingsFault (SortedMap String Path)
  | [] => .ok paths
  | (name, value) :: entries => do
    let dir ← value.asText (keys ++ [name])
    pathsOf keys (paths.insert name (.ofText dir)) entries

/-- The table of paths under some keys. -/
def asPaths (keys : List String) : Setting → Except SettingsFault (SortedMap String Path)
  | table _ entries => pathsOf keys ∅ entries
  | value => .error (.wrongType value keys)

/-- The path under some keys, which may be left empty. -/
def asPath? (keys : List String) : Setting → Except SettingsFault (Option Path)
  | null _ => .ok none
  | value => do return some (.ofText (← value.asText keys))

end Setting

namespace Settings

/-- Sets a field to a value that stands under some keys. -/
def set (settings : Settings) (field : Field) (keys : List String) (value : Setting) :
    Except SettingsFault Settings :=
  match field with
  | .entry => do return { settings with entry := ← value.asPath? keys }
  | .external => do return { settings with external := ← value.asTexts keys }
  | .aliases => do return { settings with aliases := ← value.asPaths keys }
  | .extensions => do return { settings with extensions := ← value.asTexts keys }
  | .scriptExtensions => do return { settings with scriptExtensions := ← value.asTexts keys }
  | .marker => do return { settings with marker := ← value.asText keys }
  | .maxConcurrency => do return { settings with maxConcurrency := ← value.asNat keys }
  | .followDynamic => do return { settings with followDynamic := ← value.asBool keys }
  | .followReExports => do return { settings with followReExports := ← value.asBool keys }

/-- Sets what the keys of a layer spell; `done` are the fields that are set already. -/
def setAll (settings : Settings) (done : List Field) : Layer → Except SettingsFault Settings
  | [] => .ok settings
  | (key, value) :: layer =>
    match Field.ofSpelling? key with
    | none => setAll settings done layer
    | some field =>
      if done.contains field then .error .unreadable
      else
        match settings.set field [key] value with
        | .error fault => .error fault
        | .ok settings => setAll settings (field :: done) layer

/-- The settings of a layer, with defaults for the rest. -/
def ofLayer (layer : Layer) : Except SettingsFault Settings := default.setAll [] layer

/-- The settings of a JSON value: an object, or an array of the first fields in their order. -/
def ofJson? (value : Json) : Option Settings :=
  match value with
  | .object members => (ofLayer (Setting.layerOfJson .given members)).toOption
  | .array items =>
    if items.length ≤ Field.all.length then
      (ofLayer (Setting.layerOfJson .given ((Field.all.map Field.name).zip items))).toOption
    else none
  | _ => none

end Settings
end ImpactGraph
