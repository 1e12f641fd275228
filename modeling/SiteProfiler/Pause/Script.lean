import SiteProfiler.Pause.World

/-!
# Scripted worlds

A world with fixed answers, for trying out dumps: one current task, one list of tasks, a list of
workers to be named one after the other, and calls that fail.  No one but the caller uses it.
-/

namespace SiteProfiler

structure Script where
  current : TaskInfo
  tasks : List TaskSnapshot
  /-- Answers to the question for the current worker; the last one is repeated. -/
  workers : List WorkerId
  fails : WorldCall → Bool

namespace Script

/-- The value of a call, unless the script has it fail. -/
def answer {α : Type} (script : Script) (call : WorldCall) (value : α) : Outcome α :=
  if script.fails call then .unwound else .returned value

/-- The world of a script; its state is the number of workers named so far. -/
def world (script : Script) : World Nat where
  currentTask named := (script.answer .currentTask script.current, named)
  currentWorker named :=
    let last := script.workers.getLast?.getD 0
    (script.answer .currentWorker (script.workers[named]?.getD last), named + 1)
  setCollectionHold task held named := (script.answer (.setCollectionHold task held) (), named)
  setBlocked task blocked named := (script.answer (.setBlocked task blocked) (), named)
  stop named := (script.answer .stop (), named)
  start named := (script.answer .start (), named)
  visitTasks named :=
    if script.fails .visitTasks then ([], .unwound, named)
    else (script.tasks, .returned (), named)
  othersRelease named := (false, named)

end Script

end SiteProfiler
