import ImpactGraph.Command.Colors
import ImpactGraph.Command.Reading
import ImpactGraph.Command.Run
import ImpactGraph.Settings.Variables

/-!
# The command line

The program reads its arguments, runs the command on the disk it stands on, and ends with 0 when the
command succeeds, with 1 when it fails, and with 2 when the arguments are no command.  It starts no
other program, so git counts as missing and changes are taken from files.
-/

set_option autoImplicit false

namespace ImpactGraph

/-! ## The disk -/

/-- The number of an error. -/
def systemError : IO.Error → SystemError
  | .alreadyExists _ code _ => .number code.toInt32
  | .noFileOrDirectory _ code _ => .number code.toInt32
  | .noSuchThing _ code _ => .number code.toInt32
  | .permissionDenied _ code _ => .number code.toInt32
  | .inappropriateType _ code _ => .number code.toInt32
  | .invalidArgument _ code _ => .number code.toInt32
  | .resourceExhausted _ code _ => .number code.toInt32
  | .otherError code _ => .number code.toInt32
  | _ => .number 5

/-- The result of an action, with its error as a value. -/
def attempt {α : Type} (action : IO α) : IO (Except SystemError α) := do
  match ← action.toBaseIO with
  | .ok result => return .ok result
  | .error error => return .error (systemError error)

/-- The bytes of a file. -/
def bytesOf (path : Path) : IO (Except SystemError ByteArray) :=
  attempt (IO.FS.readBinFile path.text)

/-- What a path leads to: a directory is what cannot be read for being one. -/
def metadataOf (path : Path) : IO (Except SystemError Metadata) := do
  match ← bytesOf path with
  | .ok bytes => return .ok ⟨bytes.size, true, false⟩
  | .error error =>
    if error = .isDirectory then return .ok ⟨0, false, true⟩ else return .error error

/-- The answer to a question about the disk. -/
def answerDisk : (question : DiskQuestion) → IO question.Answer
  | .metadata path => metadataOf path
  | .text path => do
    match ← bytesOf path with
    | .error error => return .error error
    | .ok bytes =>
      match String.fromUTF8? bytes with
      | some text => return .ok text
      | none => return .error .invalidText

/-- The fault of an error about a path. -/
def faultOf (path : Path) (error : SystemError) : FileFault :=
  if error = .noEntry then .notFound path else .io error.message

/-- The answer to a question about files. -/
def answerFiles : (question : FileQuestion) → IO question.Answer
  | .metadata path => do return (← metadataOf path).mapError (faultOf path)
  | .contents path => do return (← bytesOf path).mapError (faultOf path)
  | .canonical path => do
    match ← attempt (IO.FS.realPath path.text) with
    | .ok found => return .ok (.ofText found.toString)
    | .error error => return .error (faultOf path error)
  | .workingDirectory => do
    match ← attempt IO.currentDir with
    | .ok found => return .ok (.ofText found.toString)
    | .error error => return .error (.other error.message)

/-! ## The host -/

/-- The answer to a question of a command. -/
def answerHost (quiet : Bool) : (question : HostQuestion) → IO question.Answer
  | .disk question => answerDisk question
  | .scan (.files question) => answerFiles question
  | .scan .cancelled => return false
  | .git _ => return .error .noEntry
  | .createDirectories path => attempt (IO.FS.createDirAll path.text)
  | .write path text => attempt (IO.FS.writeFile path.text text)
  | .print text => do (← IO.getStdout).putStr text
  | .note text => if quiet then pure () else IO.eprintln text

/-- The variables of this name that are set. -/
def setVariable (name : String) : IO (Option (String × String)) := do
  return (← IO.getEnv name).map fun text ↦ (name, text)

/-- The names of the variables that are looked at. -/
def variableNames : List String :=
  [Colors.offName, Colors.onName, Colors.terminalName, Colors.reportName] ++
    (Field.all.flatMap fun field ↦ field.name :: field.otherName?.toList).map fun name ↦
      Variables.namePrefix ++ Blame.upper name

/-- Runs the command of an argument list. -/
def runArguments (arguments : Arguments) : IO UInt32 := do
  let environment := (← variableNames.mapM setVariable).filterMap id
  let terminal ← (← IO.getStdout).isTty
  let colored := !arguments.noColor && Colors.inReports environment terminal
  match ← (arguments.command.run ⟨environment, colored⟩).runM (answerHost arguments.quiet) with
  | .ok () => return 0
  | .error fault =>
    IO.eprintln ("Error: " ++ fault.report)
    return 1

end ImpactGraph

/-- Reads the command line and runs its command. -/
def main (words : List String) : IO UInt32 := do
  match ImpactGraph.Arguments.parse words with
  | .ok arguments => ImpactGraph.runArguments arguments
  | .error fault =>
    IO.eprintln fault.message
    return fault.exitCode
