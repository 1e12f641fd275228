import SiteProfiler.Pause.World
import SiteProfiler.Settings
import SiteProfiler.Trace.Formatter

/-!
# Stack dumps

A dump writes a header and the frames of the calling task and, on request, those of all other
tasks, which are read while the world is paused.  If the pause has moved the caller to another
worker, the error is noted, the pause is dropped and the process ends.
-/

namespace SiteProfiler

namespace TraceBuffer

/-- The line that starts the trace of a task. -/
def pushHeader (out : TraceBuffer) (task : TaskInfo) : TraceBuffer :=
  out.pushText ("task " ++ natText task.id ++ " [" ++ task.status.text ++ "]:\n")

end TraceBuffer

/-- Writes dumps of one world; `walk` holds the return addresses of the calling thread. -/
structure Dumper (σ : Type) where
  world : World σ
  formatter : Formatter
  collector : Collector
  walk : List Address

namespace Dumper

variable {σ : Type} (dumper : Dumper σ)

open Stage

/-- Header and frames of one task. -/
def writeTask (task : TaskInfo) (stack : CallStack) : Stage σ Unit := do
  write fun out => (.returned (), out.pushHeader task)
  write (dumper.formatter stack)

/-- The traces of visited tasks, each after a blank line, without the caller's. -/
def writeOthers (current : TaskId) : List TaskSnapshot → Stage σ Unit
  | [] => return ()
  | task :: rest => do
    if task.info.id ≠ current then
      write fun out => (.returned (), out.pushText "\n")
      dumper.writeTask task.info task.stack
    writeOthers current rest

/-- Visit the tasks and write their traces. -/
def visitOthers (current : TaskId) : Stage σ Unit := fun scene =>
  let (tasks, outcome, world) := dumper.world.visitTasks scene.world
  let visited := { scene with
    world := world
    observed := scene.observed ++ [.call .visitTasks scene.held] }
  (dumper.writeOthers current tasks).bind (fun _ after => (ofOutcome outcome, after)) visited

/-- Number of bytes in the buffer. -/
def written : Stage σ Nat := fun scene => (.returned scene.out.written, scene)

/-- With the pause held: the traces of all tasks, the caller's first. -/
def writeAll (current : TaskInfo) (stack : CallStack) : Stage σ Nat := do
  dumper.writeTask current stack
  dumper.visitOthers current.id
  written

/-- End the process because the pause has moved its caller. -/
def breakOff (task : TaskId) (moved : Rescheduled) : Stage σ Nat := do
  note (.pauseBroken moved)
  dumper.world.release task
  abort

/-- Dump into the buffer of the scene, which is not empty. -/
def dumpInto (allTasks : Bool) : Stage σ Nat := do
  let stack := dumper.collector.capture dumper.walk
  let world := dumper.world
  let current ← call .currentTask world.currentTask
  if allTasks then
    let before ← call .currentWorker world.currentWorker
    world.acquire current.id
    let after ← world.releasingOnUnwind current.id (call .currentWorker world.currentWorker)
    match checkWorker before after with
    | .error moved => dumper.breakOff current.id moved
    | .ok () => world.releasing current.id (dumper.writeAll current stack)
  else
    dumper.writeTask current stack
    written

/-- Dump into storage, and return the number of bytes written.  Empty storage is left alone, and
so is the world. -/
def dump (storage : List UInt8) (allTasks : Bool) (world : σ) (held : Bool) :
    Ending Nat × Scene σ :=
  let scene : Scene σ := ⟨world, held, .ofStorage storage, []⟩
  if storage.isEmpty then (.returned 0, scene) else dumper.dumpInto allTasks scene

end Dumper

end SiteProfiler
