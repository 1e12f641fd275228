import SiteProfiler.Journal
import SiteProfiler.Outcome
import SiteProfiler.Trace.Buffer

/-!
# Pausing a world

A world is what a runtime offers to a stack dump: who the caller is, a way to stop and start all
other tasks, and a walk over the tasks.  Each of these calls may fail.

A pause is taken by one caller at a time through a semaphore.  Taking it also keeps the caller's
task from being collected and stops the world; dropping it undoes all of this in an order in
which the semaphore is free before the world starts again.  A pause is dropped as well when its
holder is left by unwinding; a failure met while doing that ends the process.
-/

namespace SiteProfiler

/-- The calls of a world, over its own state. -/
structure World (σ : Type) where
  currentTask : σ → Outcome TaskInfo × σ
  currentWorker : σ → Outcome WorkerId × σ
  /-- Keep a task from being collected, or allow it again. -/
  setCollectionHold : TaskId → Bool → σ → Outcome Unit × σ
  /-- Mark a task as waiting for a pause held by another. -/
  setBlocked : TaskId → Bool → σ → Outcome Unit × σ
  /-- Return when every task but the caller's is at a safe point. -/
  stop : σ → Outcome Unit × σ
  start : σ → Outcome Unit × σ
  /-- The tasks visited in order, and how the visit ended on the world's side. -/
  visitTasks : σ → List TaskSnapshot × Outcome Unit × σ
  /-- Whether a pause held by someone else is dropped while its next holder waits for it; this is
  not a call. -/
  othersRelease : σ → Bool × σ

inductive WorldCall where
  | currentTask
  | currentWorker
  | setCollectionHold (task : TaskId) (held : Bool)
  | setBlocked (task : TaskId) (blocked : Bool)
  | stop
  | start
  | visitTasks
deriving DecidableEq, Repr

/-- What an observer sees of a dump: calls of the world, each with whether the semaphore was held
at the time, and journal lines. -/
inductive Observed where
  | call (call : WorldCall) (held : Bool)
  | line (line : JournalLine)
deriving DecidableEq, Repr

/-- The world, the semaphore, the buffer written to, and what has been observed. -/
structure Scene (σ : Type) where
  world : σ
  held : Bool
  out : TraceBuffer
  observed : List Observed

/-- How a dump ends: it returns or unwinds to its caller, it ends the process, or it waits for
the semaphore and no one else frees it. -/
inductive Ending (α : Type) where
  | returned (value : α)
  | unwound
  | aborted
  | waiting
deriving DecidableEq, Repr

/-- A piece of a dump. -/
def Stage (σ α : Type) := Scene σ → Ending α × Scene σ

namespace Stage

variable {σ α β : Type}

protected def pure (value : α) : Stage σ α := fun scene => (.returned value, scene)

/-- Run a stage and, if it returns, go on. -/
protected def bind (stage : Stage σ α) (next : α → Stage σ β) : Stage σ β := fun scene =>
  match stage scene with
  | (.returned value, after) => next value after
  | (.unwound, after) => (.unwound, after)
  | (.aborted, after) => (.aborted, after)
  | (.waiting, after) => (.waiting, after)

instance : Monad (Stage σ) where
  pure := Stage.pure
  bind := Stage.bind

def ofOutcome : Outcome α → Ending α
  | .returned value => .returned value
  | .unwound => .unwound

/-- Call the world; the call is observed before it is known how it ends. -/
def call (which : WorldCall) (answer : σ → Outcome α × σ) : Stage σ α := fun scene =>
  let (outcome, world) := answer scene.world
  (ofOutcome outcome,
    { scene with
      world := world
      observed := scene.observed ++ [.call which scene.held] })

def note (line : JournalLine) : Stage σ Unit := fun scene =>
  (.returned (), { scene with observed := scene.observed ++ [.line line] })

def isHeld : Stage σ Bool := fun scene => (.returned scene.held, scene)

def setHeld (held : Bool) : Stage σ Unit := fun scene =>
  (.returned (), { scene with held := held })

/-- Write to the buffer. -/
def write (change : TraceBuffer → Outcome Unit × TraceBuffer) : Stage σ Unit := fun scene =>
  let (outcome, out) := change scene.out
  (ofOutcome outcome, { scene with out := out })

/-- End the process. -/
def abort : Stage σ α := fun scene => (.aborted, scene)

/-- Wait for a semaphore that someone else holds, and take it once it is freed. -/
def waitFor (freed : σ → Bool × σ) : Stage σ Unit := fun scene =>
  let (isFreed, world) := freed scene.world
  (if isFreed then .returned () else .waiting, { scene with world := world, held := true })

end Stage

namespace World

variable {σ α : Type} (world : World σ)

open Stage

/-- Take the semaphore; a task that has to wait for it is marked as blocked meanwhile. -/
def takeSemaphore (task : TaskId) : Stage σ Unit := do
  if ← isHeld then
    call (.setBlocked task true) (world.setBlocked task true)
    waitFor world.othersRelease
    call (.setBlocked task false) (world.setBlocked task false)
  else
    setHeld true

/-- Take the pause for a task. -/
def acquire (task : TaskId) : Stage σ Unit := do
  world.takeSemaphore task
  call (.setCollectionHold task true) (world.setCollectionHold task true)
  call .stop world.stop
  note (.paused task)

/-- Drop a pause taken for a task. -/
def release (task : TaskId) : Stage σ Unit := do
  call (.setCollectionHold task false) (world.setCollectionHold task false)
  setHeld false
  call .start world.start
  note (.resumed task)

/-- Run with a pause held; if that unwinds, drop the pause on the way out. -/
def releasingOnUnwind (task : TaskId) (body : Stage σ α) : Stage σ α := fun scene =>
  match body scene with
  | (.unwound, after) =>
    match world.release task after with
    | (.returned (), released) => (.unwound, released)
    | (.unwound, released) => (.aborted, released)
    | (.aborted, released) => (.aborted, released)
    | (.waiting, released) => (.waiting, released)
  | ended => ended

/-- Run with a pause held, and drop it in the end. -/
def releasing (task : TaskId) (body : Stage σ α) : Stage σ α := do
  let value ← world.releasingOnUnwind task body
  world.release task
  return value

end World

end SiteProfiler
