import ImpactGraph.Command.Arguments
import ImpactGraph.Text.Cut

/-!
# Reading the command line

`Arguments.parse` reads the words of a command line from left to right.  A word that starts with two
dashes is a long name, with a value after `=`; one that starts with a single dash holds short names,
of which a parameter takes the rest of the word; after a lone `--` all words stand for themselves.
A parameter without a value takes the next word.

The value of a parameter is looked at when the next argument is known, so a name that does not exist
is reported before a bad value right in front of it.  The words after a command are read to their
end before anything is said about the ones before it.
-/

set_option autoImplicit false

namespace ImpactGraph

/-- Why a command line is no command. -/
inductive ArgumentFault
  /-- Help is asked for. -/
  | helpAsked
  /-- Nothing is given. -/
  | nothingGiven
  /-- The version is asked for. -/
  | versionAsked
  /-- There is no such argument. -/
  | unknownArgument
  /-- There is no such command. -/
  | unknownCommand
  /-- There is no command. -/
  | noCommand
  /-- A value is missing or none of those that may be given. -/
  | invalidValue
  /-- A value is given to a switch. -/
  | valueForSwitch
  /-- A value is not of the right form. -/
  | malformedValue (detail : Option String)
  /-- Something that is needed is missing. -/
  | missingArgument
  /-- Two arguments exclude each other, or one is given twice. -/
  | conflict
  deriving DecidableEq, Repr, Inhabited

namespace ArgumentFault

/-- The ways to call the program. -/
def usage : String :=
  "Usage: depscope [OPTIONS] scan [ENTRY]\n       depscope [OPTIONS] diff [ENTRY]"

/-- The text of a fault. -/
def message : ArgumentFault → String
  | helpAsked | nothingGiven => usage
  | versionAsked => "depscope 0.1.0"
  | unknownArgument => "error: unexpected argument"
  | unknownCommand => "error: unrecognized subcommand"
  | noCommand => "error: a subcommand is required"
  | invalidValue => "error: a value is missing or not among the possible values"
  | valueForSwitch => "error: unexpected value for a flag"
  | malformedValue detail => "error: invalid value" ++ (detail.map (": " ++ ·)).getD ""
  | missingArgument => "error: a required argument is missing"
  | conflict => "error: an argument cannot be used with another"

/-- The number that the program ends with. -/
def exitCode : ArgumentFault → UInt32
  | helpAsked | versionAsked => 0
  | _ => 2

end ArgumentFault

/-! ## Values -/

/-- A path, which is not empty. -/
def pathValue (text : String) : Except ArgumentFault Path :=
  if text.isEmpty then .error .invalidValue else .ok (.ofText text)

/-- An alias with its directory, as `KEY=DIR`. -/
def aliasValue (text : String) : Except ArgumentFault (String × Path) :=
  match Text.cutAtChar '=' text.toList with
  | none => .error (.malformedValue (some s!"expected KEY=DIR, got '{text}'"))
  | some (key, dir) =>
    let name := String.ofList key
    if key.isEmpty then .error (.malformedValue (some "alias prefix cannot be empty"))
    else if dir.isEmpty then .error (.malformedValue (some s!"alias '{name}' has no directory"))
    else .ok (name, .ofText (String.ofList dir))

/-- The largest number of files at a time that can be given. -/
def maxConcurrencyLimit : Nat := 0xFFFFFFFF

/-- A number from one up, written in digits with or without a plus sign. -/
def countValue (text : String) : Except ArgumentFault Nat :=
  let digits := match text.toList with
    | '+' :: digits => digits
    | digits => digits
  let value := digits.foldl (fun n c ↦ n * 10 + (c.toNat - '0'.toNat)) 0
  if !digits.isEmpty && digits.all Char.isDigit && 1 ≤ value && value ≤ maxConcurrencyLimit then
    .ok value
  else .error (.malformedValue none)

/-- The name of a format. -/
def formatValue (text : String) : Except ArgumentFault ReportFormat :=
  match ReportFormat.ofName? text with
  | some format => .ok format
  | none => .error .invalidValue

/-! ## What was read -/

/-- What was read of the words of a level. -/
structure Reading where
  /-- The switches that are given. -/
  switches : List Switch
  /-- The parameters that are given, but for those that may be repeated. -/
  parameters : List Parameter
  /-- The options of a scan. -/
  options : ScanOptions
  /-- The options about changed files. -/
  changes : DiffOptions
  /-- A parameter whose value has not been looked at, with the value if there is one. -/
  pending : Option (Parameter × Option String)
  deriving Inhabited

namespace Reading

/-- Nothing was read. -/
def start : Reading := ⟨[], [], .default, .default, none⟩

/-- Sets a parameter to the text of a value. -/
def assign (r : Reading) (parameter : Parameter) (text : String) : Except ArgumentFault Reading :=
  match parameter with
  | .entry => do return { r with options.entry := some (← pathValue text) }
  | .root => do return { r with options.root := ← pathValue text }
  | .config => do return { r with options.config := some (← pathValue text) }
  | .external => .ok { r with options.external := r.options.external ++ [text] }
  | .aliases => do return { r with options.aliases := r.options.aliases ++ [← aliasValue text] }
  | .marker => .ok { r with options.marker := some text }
  | .maxConcurrency => do return { r with options.maxConcurrency := some (← countValue text) }
  | .format => do return { r with options.format := ← formatValue text }
  | .output => do return { r with options.output := some (← pathValue text) }
  | .base => .ok { r with changes.base := some text }
  | .head => .ok { r with changes.head := some text }
  | .diffFile => do return { r with changes.diffFile := some (← pathValue text) }

/-- Whether a parameter may be repeated. -/
def isRepeatable : Parameter → Bool
  | .external | .aliases => true
  | _ => false

/-- Gives a parameter a value. -/
def give (r : Reading) (parameter : Parameter) (text : String) : Except ArgumentFault Reading :=
  if isRepeatable parameter then r.assign parameter text
  else if r.parameters.contains parameter then .error .conflict
  else { r with parameters := parameter :: r.parameters }.assign parameter text

/-- Looks at the value that is pending. -/
def settle (r : Reading) : Except ArgumentFault Reading :=
  match r.pending with
  | none => .ok r
  | some (_, none) => .error .invalidValue
  | some (parameter, some text) => { r with pending := none }.give parameter text

/-- Turns a switch on. -/
def turnOn (r : Reading) (switch : Switch) : Except ArgumentFault Reading := do
  let r ← r.settle
  match switch with
  | .help => .error .helpAsked
  | .version => .error .versionAsked
  | _ =>
    if r.switches.contains switch then .error .conflict
    else return { r with switches := switch :: r.switches }

/-- Names a parameter, with a value or before one. -/
def name (r : Reading) (parameter : Parameter) (value : Option String) :
    Except ArgumentFault Reading := do
  let r ← r.settle
  match value with
  | some text => r.give parameter text
  | none => return { r with pending := some (parameter, none) }

/-- Reads a long name, after its dashes. -/
def readLong (r : Reading) (level : Level) (word : List Char) : Except ArgumentFault Reading :=
  let (name, value) : List Char × Option String :=
    match Text.cutAtChar '=' word with
    | some (name, value) => (name, some (String.ofList value))
    | none => (word, none)
  match level.longNames.lookup (String.ofList name) with
  | none => .error .unknownArgument
  | some (.switch switch) =>
    if value.isSome then .error .valueForSwitch else r.turnOn switch
  | some (.parameter parameter) => r.name parameter value

/-- Reads short names, after their dash. -/
def readShort (r : Reading) (level : Level) : List Char → Except ArgumentFault Reading
  | [] => .ok r
  | c :: word =>
    match level.shortNames.lookup c with
    | none => .error .unknownArgument
    | some (.switch switch) =>
      match r.turnOn switch with
      | .error fault => .error fault
      | .ok r => r.readShort level word
    | some (.parameter parameter) =>
      match word with
      | [] => r.name parameter none
      | '=' :: value => r.name parameter (some (String.ofList value))
      | value => r.name parameter (some (String.ofList value))

/-- Takes a word that stands for itself; only the entry does. -/
def takeEntry (r : Reading) (level : Level) (trailing : Bool) (entryGiven : Bool) (word : String) :
    Except ArgumentFault Reading :=
  match level with
  | .root =>
    if trailing && ((Level.ofName? word).isSome || word = "help") then .error .unknownArgument
    else .error .unknownCommand
  | _ =>
    if entryGiven then .error .unknownArgument
    else do
      let r ← r.settle
      return { r with pending := some (.entry, some word) }

/-- Whether the entry has been given. -/
def hasEntry (r : Reading) : Bool :=
  r.parameters.contains .entry ||
    match r.pending with
    | some (.entry, _) => true
    | _ => false

/-- Reads the words of a level up to a command, which is returned with the words after it. -/
def readWords (r : Reading) (level : Level) (trailing : Bool) :
    List String → Except ArgumentFault (Reading × Option (String × List String))
  | [] => .ok (r, none)
  | word :: words =>
    let go (read : Except ArgumentFault Reading) :
        Except ArgumentFault (Reading × Option (String × List String)) :=
      match read with
      | .error fault => .error fault
      | .ok r => r.readWords level trailing words
    if trailing then go (r.takeEntry level trailing r.hasEntry word)
    else if level = .root ∧ ((Level.ofName? word).isSome ∨ word = "help") then
      .ok (r, some (word, words))
    else
      match word.toList with
      | ['-', '-'] => r.readWords level true words
      | '-' :: '-' :: name => go (r.readLong level name)
      | '-' :: c :: names => go (r.readShort level (c :: names))
      | _ =>
        match r.pending with
        | some (parameter, none) => go (.ok { r with pending := some (parameter, some word) })
        | _ => go (r.takeEntry level trailing r.hasEntry word)

/-! ## Checks -/

/-- Whether a switch is given. -/
def has (r : Reading) (switch : Switch) : Bool := r.switches.contains switch

/-- The arguments that exclude each other. -/
def hasConflict (r : Reading) : Bool :=
  (r.has .verbose && r.has .quiet) || (r.changes.base.isSome && r.changes.diffFile.isSome)

/-- Whether changed files are asked for without saying where they come from. -/
def lacksChanges (r : Reading) : Bool := r.changes.base.isNone && r.changes.diffFile.isNone

/-- The command of the words after its name. -/
def command (r : Reading) (level : Level) : Except ArgumentFault Command :=
  let options := { r.options with
    noDynamic := r.has .noDynamic
    followReExports := r.has .followReExports
    strict := r.has .strict }
  if r.hasConflict then .error .conflict
  else
    match level with
    | .diff =>
      if r.lacksChanges then .error .missingArgument
      else .ok (.diff options { r.changes with transitive := r.has .transitive })
    | _ => .ok (.scan options)

/-- Reads the words after a command. -/
def readCommand (level : Level) (words : List String) :
    Except ArgumentFault (Reading × Command) := do
  let (r, _) ← start.readWords level false words
  let r ← r.settle
  return (r, ← r.command level)

end Reading

/-- The fault of asking for help about commands. -/
def helpFault (words : List String) : ArgumentFault :=
  match words with
  | [] => .helpAsked
  | [word] => if (Level.ofName? word).isSome || word = "help" then .helpAsked else .unknownCommand
  | _ => .unknownCommand

/-- Reads a command line. -/
def Arguments.parse (words : List String) : Except ArgumentFault Arguments := do
  let (outer, rest) ← Reading.start.readWords .root false words
  match rest with
  | none => if outer.switches.isEmpty then .error .nothingGiven else .error .noCommand
  | some (name, words) =>
    match Level.ofName? name with
    | none => .error (helpFault words)
    | some level =>
      let (inner, command) ← Reading.readCommand level words
      if outer.hasConflict then .error .conflict
      let has (switch : Switch) : Bool := outer.has switch || inner.has switch
      return { verbose := has .verbose, quiet := has .quiet, noColor := has .noColor, command }

end ImpactGraph
