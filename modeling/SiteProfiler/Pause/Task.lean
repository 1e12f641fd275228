import SiteProfiler.Roster

/-!
# Tasks

What a stack dump reports of a task, and the one error a dump can meet: its caller came back
from the pause on another worker.
-/

namespace SiteProfiler

abbrev TaskId := Nat

inductive TaskStatus where
  | running
  | runnable
  | waiting
deriving DecidableEq, Repr

def TaskStatus.text : TaskStatus → String
  | running => "running"
  | runnable => "runnable"
  | waiting => "waiting"

structure TaskInfo where
  id : TaskId
  status : TaskStatus
deriving DecidableEq, Repr

/-- A task as the world reports it, with the stack it last published. -/
structure TaskSnapshot where
  info : TaskInfo
  stack : CallStack
deriving DecidableEq, Repr

/-- The worker before and after a pause that moved its caller. -/
structure Rescheduled where
  before : WorkerId
  after : WorkerId
deriving DecidableEq, Repr

namespace Rescheduled

def message (moved : Rescheduled) : String :=
  "stack dump rescheduled from worker " ++ natText moved.before ++
    " to worker " ++ natText moved.after

end Rescheduled

/-- The caller must still be on the worker it was on before the pause. -/
def checkWorker (before after : WorkerId) : Except Rescheduled Unit :=
  if before = after then .ok () else .error ⟨before, after⟩

end SiteProfiler
