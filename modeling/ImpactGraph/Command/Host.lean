import ImpactGraph.Change.Git
import ImpactGraph.Command.Fault
import ImpactGraph.Files.Disk
import ImpactGraph.Scan.Run

/-!
# What a command asks of its host

A command reads settings and change lists, scans, calls git and writes a report.  All of it is asked
of a host: a `Hosted` computation puts the questions of the parts among its own.
-/

set_option autoImplicit false

namespace ImpactGraph

/-- A question that a command asks of its host. -/
inductive HostQuestion
  /-- A question about the disk. -/
  | disk (question : DiskQuestion)
  /-- A question of a scan. -/
  | scan (question : ScanQuestion)
  /-- A call of git. -/
  | git (call : GitCall)
  /-- To make the directories of a path that are missing. -/
  | createDirectories (path : Path)
  /-- To write a file. -/
  | write (path : Path) (text : String)
  /-- To print a report. -/
  | print (text : String)
  /-- To say what has been done. -/
  | note (text : String)
  deriving DecidableEq, Repr

/-- The type of the answer to a question. -/
def HostQuestion.Answer : HostQuestion → Type
  | .disk question => question.Answer
  | .scan question => question.Answer
  | .git _ => Except SystemError GitReply
  | .createDirectories _ => Except SystemError Unit
  | .write _ _ => Except SystemError Unit
  | .print _ => Unit
  | .note _ => Unit

/-- A computation that asks questions of a host. -/
abbrev Hosted (α : Type) := Dialogue HostQuestion HostQuestion.Answer α

namespace Hosted

/-- Asks the questions of a computation over a disk. -/
def disk {α : Type} (d : Disk α) : Hosted α :=
  d.relay fun question ↦ .question (HostQuestion.disk question)

/-- Asks the questions of a scan. -/
def scanning {α : Type} (d : Scanning α) : Hosted α :=
  d.relay fun question ↦ .question (HostQuestion.scan question)

/-- Makes the calls of a computation that calls git. -/
def git {α : Type} (d : Git α) : Hosted α :=
  d.relay fun call ↦ .question (HostQuestion.git call)

/-- Makes the directories of a path that are missing. -/
def createDirectories (path : Path) : Hosted (Except SystemError Unit) :=
  .question (HostQuestion.createDirectories path)

/-- Writes a file. -/
def write (path : Path) (text : String) : Hosted (Except SystemError Unit) :=
  .question (HostQuestion.write path text)

/-- Prints a report. -/
def print (text : String) : Hosted Unit := .question (HostQuestion.print text)

/-- Says what has been done. -/
def note (text : String) : Hosted Unit := .question (HostQuestion.note text)

end Hosted
end ImpactGraph
