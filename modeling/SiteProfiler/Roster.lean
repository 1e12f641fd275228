import SiteProfiler.Site.CallStack

/-!
# The roster of workers

Workers are only ever added.  Registering one takes two steps: reserve the next number, then
publish the worker at the front of the list.  A reader keeps the list it started from, so later
registrations never reach it.
-/

namespace SiteProfiler

abbrev WorkerId := Nat

/-- A registered worker and the stack that created it. -/
structure Worker where
  createStack : CallStack
  id : WorkerId
deriving DecidableEq, Repr

/-- A worker as it is shown in a listing. -/
def Worker.text (worker : Worker) : String :=
  "Worker \x7b create_stack: " ++ worker.createStack.lineText ++ ", id: " ++
    natText worker.id ++ " \x7d"

structure Roster where
  nextId : WorkerId
  newestFirst : List Worker
deriving DecidableEq, Repr

namespace Roster

/-- No workers; numbers start at 1. -/
def empty : Roster := ⟨1, []⟩

/-- Take the next number. -/
def reserve (roster : Roster) : WorkerId × Roster :=
  (roster.nextId, { roster with nextId := roster.nextId + 1 })

/-- Put a worker at the front of the list. -/
def publish (roster : Roster) (worker : Worker) : Roster :=
  { roster with newestFirst := worker :: roster.newestFirst }

/-- Reserve a number for a worker and publish it. -/
def register (roster : Roster) (createStack : CallStack) : WorkerId × Roster :=
  let (id, reserved) := roster.reserve
  (id, reserved.publish ⟨createStack, id⟩)

/-- The workers at this moment, newest first. -/
def snapshot (roster : Roster) : List Worker := roster.newestFirst

def len (roster : Roster) : Nat := roster.snapshot.length

def isEmpty (roster : Roster) : Bool := roster.newestFirst.isEmpty

/-- The whole listing on one line, newest first. -/
def text (roster : Roster) : String :=
  "[" ++ ", ".intercalate (roster.snapshot.map Worker.text) ++ "]"

end Roster

end SiteProfiler
