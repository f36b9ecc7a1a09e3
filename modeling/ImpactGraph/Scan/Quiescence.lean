/-!
# Quiescence

A scan is over once nothing is pending: every unit of work holds a guard, and a guard is taken only
by one who holds another.  `Quiescence` is the table of guards with its count of the live ones.

The one who waits for the count to reach zero is a `Waiter`.  It asks for a notice, reads the count,
and parks if the count is not zero.  The guard that brings the count to zero owes a notice, which it
leaves with a step of its own: a parked waiter is woken by it, and for any other one it is kept, but
never more than one.  `Watch` is the table, the notices and the waiter together, and `Watch.Next`
lists the steps they can take.

A `Scan` has the count of its guards without the table; `Scan.Watched` is a scan with both.
-/

set_option autoImplicit false

namespace ImpactGraph

/-! ## Guards -/

/-- A table of guards. -/
structure Quiescence where
  /-- The number of guards that are alive. -/
  pending : Nat
  /-- Whether each guard is alive, in the order in which they were taken. -/
  guards : List Bool
  deriving DecidableEq, Repr

namespace Quiescence

/-- The table with one guard, the root of all work. -/
def begin : Quiescence := ⟨1, [true]⟩

/-- Takes one more guard. -/
def schedule (q : Quiescence) : Quiescence := ⟨q.pending + 1, q.guards ++ [true]⟩

/-- Drops a guard, if it is alive. -/
def drop (q : Quiescence) (i : Nat) : Quiescence :=
  if q.guards[i]? = some true then ⟨q.pending - 1, q.guards.set i false⟩ else q

/-- Whether nothing is pending. -/
def idle (q : Quiescence) : Bool := q.pending == 0

end Quiescence

/-! ## Waiting -/

/-- What the one who waits is doing. -/
inductive Waiter
  /-- About to ask for a notice. -/
  | asking
  /-- About to read the count. -/
  | reading
  /-- About to park, or to take a notice that is there. -/
  | parking
  /-- Parked. -/
  | parked
  /-- Woken, about to ask again. -/
  | woken
  /-- Done, having read a count of zero. -/
  | done
  deriving DecidableEq, Repr

/-- A table of guards, the notices that are left when the count reaches zero, and the one who
waits. -/
structure Watch where
  /-- The guards. -/
  table : Quiescence
  /-- How many guards have brought the count to zero and have not left their notice yet. -/
  owed : Nat
  /-- Whether a notice is there that nobody has taken. -/
  notice : Bool
  /-- What the one who waits is doing. -/
  waiter : Waiter
  deriving DecidableEq, Repr

namespace Watch

/-- Takes one more guard. -/
def schedule (w : Watch) : Watch := { w with table := w.table.schedule }

/-- Drops a guard, if it is alive.  The one that brings the count to zero owes a notice. -/
def drop (w : Watch) (i : Nat) : Watch :=
  if w.table.guards[i]? = some true then
    { w with
      table := w.table.drop i
      owed := if w.table.pending = 1 then w.owed + 1 else w.owed }
  else w

/-- Leaves a notice that is owed: a parked waiter is woken, for any other one it is kept. -/
def notify (w : Watch) : Watch :=
  match w.owed with
  | 0 => w
  | owed + 1 =>
    if w.waiter = .parked then { w with owed := owed, waiter := .woken }
    else { w with owed := owed, notice := true }

/-- The next step of the one who waits; a parked one takes none. -/
def wait (w : Watch) : Watch :=
  match w.waiter with
  | .asking => { w with waiter := .reading }
  | .reading =>
    if w.table.pending = 0 then { w with waiter := .done } else { w with waiter := .parking }
  | .parking =>
    if w.notice then { w with notice := false, waiter := .woken } else { w with waiter := .parked }
  | .woken => { w with waiter := .asking }
  | .parked | .done => w

/-- Waits once more, if the last wait is done.  A notice that was not taken is still there. -/
def again (w : Watch) : Watch := if w.waiter = .done then { w with waiter := .asking } else w

/-- The steps that can be taken, in any order. -/
inductive Next (w : Watch) : Watch → Prop
  | schedule : Next w w.schedule
  | drop (i : Nat) : Next w (w.drop i)
  | notify : Next w w.notify
  | wait : Next w w.wait
  | again : Next w w.again

/-- The watch over a table with one guard, before anyone waits. -/
def start : Watch := ⟨.begin, 0, false, .asking⟩

end Watch
end ImpactGraph
