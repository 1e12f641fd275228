import SiteProfiler.Pause.Task

/-!
# The safepoint world

Every task of this world is a thread that polls for safe points while it runs.  The world keeps
its tasks in the order of registration, and for each thread the position of its task.  A stop is
asked for by one thread, the stopper, and is complete when each other task is parked at a safe
point, blocked on a pause, or not running at all.

Each function here is one section under the world's lock; what a thread does between sections,
and when it waits, is the business of the module on threads.
-/

namespace SiteProfiler

abbrev ThreadId := Nat

structure TaskSlot where
  id : TaskId
  worker : WorkerId
  status : TaskStatus
  stack : CallStack
  parked : Bool
  blocked : Bool
  /-- Kept from parking while it dumps stacks. -/
  held : Bool
deriving DecidableEq, Repr

/-- A safe point that the stop need not wait for. -/
def TaskSlot.atSafePoint (slot : TaskSlot) : Bool :=
  slot.parked || slot.blocked || decide (slot.status ≠ .running)

/-- The task as it is reported. -/
def TaskSlot.snapshot (slot : TaskSlot) : TaskSnapshot where
  info.id := slot.id
  info.status :=
    if slot.parked then .runnable else if slot.blocked then .waiting else slot.status
  stack := slot.stack

/-- A thread's membership.  Only the owning registration of a thread removes its task. -/
structure Registration where
  thread : ThreadId
  task : TaskId
  owned : Bool
deriving DecidableEq, Repr

structure SafepointWorld where
  lastTask : TaskId
  lastWorker : WorkerId
  stopper : Option ThreadId
  stopRequested : Bool
  tasks : List TaskSlot
  position : ThreadId → Option Nat

namespace SafepointWorld

def empty : SafepointWorld where
  lastTask := 0
  lastWorker := 0
  stopper := none
  stopRequested := false
  tasks := []
  position := fun _ => none

/-- The task of a thread. -/
def slot? (world : SafepointWorld) (thread : ThreadId) : Option TaskSlot :=
  (world.position thread).bind fun index => world.tasks[index]?

/-- Change the task of a thread, if it has one. -/
def modifySlot (world : SafepointWorld) (thread : ThreadId) (change : TaskSlot → TaskSlot) :
    SafepointWorld :=
  match world.position thread with
  | none => world
  | some index => { world with tasks := world.tasks.modify index change }

/-- Change the task with a given number, if there is one. -/
def modifyTask (world : SafepointWorld) (task : TaskId) (change : TaskSlot → TaskSlot) :
    SafepointWorld :=
  match world.tasks.findIdx? fun slot => slot.id = task with
  | none => world
  | some index => { world with tasks := world.tasks.modify index change }

/-- Register a thread as a running task on a worker of its own.  A thread that is registered
already gets a further registration of the same task. -/
def register (world : SafepointWorld) (thread : ThreadId) : Registration × SafepointWorld :=
  match world.slot? thread with
  | some slot => (⟨thread, slot.id, false⟩, world)
  | none =>
    let id := world.lastTask + 1
    let worker := world.lastWorker + 1
    let index := world.tasks.length
    (⟨thread, id, true⟩,
      { world with
        lastTask := id
        lastWorker := worker
        tasks := world.tasks ++ [⟨id, worker, .running, .empty, false, false, false⟩]
        position := fun other => if other = thread then some index else world.position other })

/-- Remove the task of a thread; the tasks after it move up by one. -/
def unregister (world : SafepointWorld) (thread : ThreadId) : SafepointWorld :=
  match world.position thread with
  | none => world
  | some index =>
    { world with
      tasks := world.tasks.eraseIdx index
      position := fun other =>
        if other = thread then none
        else (world.position other).map fun place => if index < place then place - 1 else place }

def setStatus (world : SafepointWorld) (thread : ThreadId) (status : TaskStatus) :
    SafepointWorld :=
  world.modifySlot thread fun slot => { slot with status := status }

def currentTask (world : SafepointWorld) (thread : ThreadId) : TaskInfo :=
  match world.slot? thread with
  | some slot => ⟨slot.id, slot.status⟩
  | none => ⟨0, .running⟩

def currentWorker (world : SafepointWorld) (thread : ThreadId) : WorkerId :=
  match world.slot? thread with
  | some slot => slot.worker
  | none => 0

def setCollectionHold (world : SafepointWorld) (task : TaskId) (held : Bool) : SafepointWorld :=
  world.modifyTask task fun slot => { slot with held := held }

def setBlocked (world : SafepointWorld) (task : TaskId) (blocked : Bool) : SafepointWorld :=
  world.modifyTask task fun slot => { slot with blocked := blocked }

/-- Whether a stop of another thread is on. -/
def stoppedByOther (world : SafepointWorld) (thread : ThreadId) : Bool :=
  world.stopper.any fun stopper => stopper ≠ thread

/-- Ask for a stop; a stop that another thread has asked for is taken over. -/
def raise (world : SafepointWorld) (thread : ThreadId) : SafepointWorld :=
  { world with stopper := some thread, stopRequested := true }

/-- Whether every task but the thread's own is at a safe point. -/
def allParkedExcept (world : SafepointWorld) (thread : ThreadId) : Bool :=
  let own := world.position thread
  world.tasks.zipIdx.all fun (slot, index) => decide (own = some index) || slot.atSafePoint

/-- End the stop, whoever asked for it. -/
def lift (world : SafepointWorld) : SafepointWorld :=
  { world with stopper := none, stopRequested := false }

/-- Park the task of a thread with the stack it is at.  The stopper does not park, nor does a
thread without a task or one whose task is held. -/
def park? (world : SafepointWorld) (thread : ThreadId) (stack : CallStack) :
    Option SafepointWorld :=
  if world.stopper = some thread then none
  else match world.slot? thread with
    | none => none
    | some slot =>
      if slot.held then none
      else some (world.modifySlot thread fun own => { own with parked := true, stack := stack })

def unpark (world : SafepointWorld) (thread : ThreadId) : SafepointWorld :=
  world.modifySlot thread fun own => { own with parked := false }

/-- The tasks in the order of registration. -/
def snapshots (world : SafepointWorld) : List TaskSnapshot := world.tasks.map TaskSlot.snapshot

end SafepointWorld

end SiteProfiler
