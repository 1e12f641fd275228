import SiteProfiler.Pause.Safepoint
import SiteProfiler.Trace.Dump

/-!
# Threads in a safepoint world

Any number of threads share one safepoint world and one pause semaphore.  What is left of the
call a thread is in is a list of moves.  A move is one section under a lock, one notification, or
one read of the stop flag, and moves of different threads may follow each other in any order.

A thread whose condition does not hold goes to sleep on it and stands in a waiting list.  It
looks at its condition again only after it has been taken off that list: freeing the semaphore
takes one thread off, any change of the world takes all of them off.
-/

namespace SiteProfiler

/-- The result of a call. -/
inductive Answer where
  | nothing
  | task (id : TaskId)
  | dropped (any : Bool)
  | current (info : TaskInfo) (worker : WorkerId)
  | text (bytes : List UInt8)
  | stopped
  | acquired
  | unwound
  | notVisited
  | exited
deriving DecidableEq, Repr

inductive Move where
  /-- Take the semaphore, or turn to waiting for it. -/
  | take (task : TaskId)
  /-- Take the semaphore when it is free. -/
  | awaitTurn
  | free
  | wakeOne
  | wakeAll
  | block (task : TaskId)
  /-- Clear a task's blocked mark when no other thread has the world stopped. -/
  | unblock (task : TaskId)
  | hold (task : TaskId) (held : Bool)
  /-- Ask for a stop and look whether it is complete. -/
  | raise
  /-- Go on when the stop is complete. -/
  | drain
  | lift
  /-- Read the stop flag. -/
  | poll (stack : CallStack)
  | park (stack : CallStack)
  /-- Leave the safe point when the stop is over. -/
  | leave
  | setStatus (status : TaskStatus)
  | register
  | unregister (registration : Registration)
  | readCurrent
  /-- Go on to take a pause for the thread's own task. -/
  | acquireOwn
  | keepToken (task : TaskId)
  | probe
  | dumpTask (size : Nat) (allTasks : Bool)
  | dumpWorker (current : TaskInfo) (size : Nat)
  | dumpCheck (current : TaskInfo) (before : WorkerId) (size : Nat)
  | dumpVisit (current : TaskInfo) (size : Nat)
  | abort
  | finish (answer : Answer)
  | depart (answer : Answer)
deriving DecidableEq, Repr

structure Thread where
  /-- What is left of the call the thread is in. -/
  todo : List Move
  /-- Live registrations made by the thread, newest first. -/
  registrations : List Registration
  /-- Tasks of the pauses the thread holds, newest first. -/
  tokens : List TaskId
  /-- Result of its last call, once that has returned. -/
  answer : Option Answer
  gone : Bool
deriving DecidableEq, Repr

def Thread.fresh : Thread := ⟨[], [], [], none, false⟩

structure Machine where
  world : SafepointWorld
  /-- Whether the semaphore is held. -/
  held : Bool
  /-- Threads asleep until the semaphore is freed, in the order in which they fell asleep. -/
  queue : List ThreadId
  /-- Threads asleep until the world changes. -/
  asleep : List ThreadId
  thread : ThreadId → Thread
  /-- Whether the process has been ended. -/
  aborted : Bool

/-- The moves that take a pause for a task. -/
def acquireMoves (task : TaskId) : List Move := [.take task, .hold task true, .raise]

/-- The moves of a caller that finds the semaphore held. -/
def queueMoves (task : TaskId) : List Move :=
  [.block task, .wakeAll, .awaitTurn, .unblock task, .wakeAll]

/-- The moves that drop a pause taken for a task. -/
def releaseMoves (task : TaskId) : List Move :=
  [.hold task false, .free, .wakeOne, .lift, .wakeAll]

/-- The moves that drop a registration. -/
def unregisterMoves (registration : Registration) : List Move :=
  if registration.owned then [.unregister registration, .wakeAll] else []

/-- A dump of a caller without frames, and of the given tasks, into so many bytes. -/
def dumpText (current : TaskInfo) (tasks : List TaskSnapshot) (size : Nat) : List UInt8 :=
  let others := tasks.filter fun task => task.info.id ≠ current.id
  let out := (TraceBuffer.ofStorage (List.replicate size 0)).pushHeader current
  let final := others.foldl (fun (out : TraceBuffer) task =>
    ((out.pushText "\n").pushHeader task.info).pushFrames rawLine task.stack.frames) out
  final.front

namespace Machine

def start : Machine where
  world := .empty
  held := false
  queue := []
  asleep := []
  thread := fun _ => .fresh
  aborted := false

def setThread (machine : Machine) (t : ThreadId) (thread : Thread) : Machine :=
  { machine with thread := fun other => if other = t then thread else machine.thread other }

/-- Replace what is left of the call of a thread. -/
def continueWith (machine : Machine) (t : ThreadId) (todo : List Move) : Machine :=
  machine.setThread t { machine.thread t with todo := todo }

/-- Change the world and go on. -/
def change (machine : Machine) (t : ThreadId) (world : SafepointWorld) (rest : List Move) :
    Machine :=
  { machine with world := world }.continueWith t rest

/-- Fall asleep until the world changes, and then make `move` again. -/
def sleep (machine : Machine) (t : ThreadId) (move : Move) (rest : List Move) : Machine :=
  { machine with asleep := machine.asleep ++ [t] }.continueWith t (move :: rest)

/-- The thread's call has returned. -/
def returnWith (machine : Machine) (t : ThreadId) (answer : Answer) (rest : List Move) : Machine :=
  machine.setThread t { machine.thread t with todo := rest, answer := some answer }

/-- Make the first move of a thread, of which `rest` follows.  `woken` is the thread that a
notification of the semaphore reaches. -/
def perform (machine : Machine) (t woken : ThreadId) (move : Move) (rest : List Move) : Machine :=
  let world := machine.world
  match move with
  | .take task =>
    if machine.held then machine.continueWith t (queueMoves task ++ rest)
    else { machine with held := true }.continueWith t rest
  | .awaitTurn =>
    if machine.held then { machine with queue := machine.queue ++ [t] }
    else { machine with held := true }.continueWith t rest
  | .free => { machine with held := false }.continueWith t rest
  | .wakeOne => { machine with queue := machine.queue.erase woken }.continueWith t rest
  | .wakeAll => { machine with asleep := [] }.continueWith t rest
  | .block task => machine.change t (world.setBlocked task true) rest
  | .unblock task =>
    if world.stoppedByOther t then machine.sleep t move rest
    else machine.change t (world.setBlocked task false) rest
  | .hold task held => machine.change t (world.setCollectionHold task held) rest
  | .raise =>
    let raised := machine.change t (world.raise t) rest
    if raised.world.allParkedExcept t then raised else raised.sleep t .drain rest
  | .drain =>
    if world.allParkedExcept t then machine.continueWith t rest else machine.sleep t move rest
  | .lift => machine.change t world.lift rest
  | .poll stack =>
    if world.stopRequested then machine.continueWith t (.park stack :: rest)
    else machine.continueWith t rest
  | .park stack =>
    match world.park? t stack with
    | none => machine.continueWith t rest
    | some parked =>
      let notified := { machine with asleep := [] }
      if parked.stopper.isSome then (notified.change t parked rest).sleep t .leave rest
      else notified.change t (parked.unpark t) rest
  | .leave =>
    if world.stopper.isSome then machine.sleep t move rest
    else machine.change t (world.unpark t) rest
  | .setStatus status => machine.change t (world.setStatus t status) rest
  | .register =>
    let (registration, registered) := world.register t
    let thread := machine.thread t
    { machine with world := registered }.setThread t
      { thread with
        todo := rest
        registrations := registration :: thread.registrations
        answer := some (.task registration.task) }
  | .unregister registration => machine.change t (world.unregister registration.thread) rest
  | .readCurrent =>
    machine.returnWith t (.current (world.currentTask t) (world.currentWorker t)) rest
  | .acquireOwn =>
    let task := (world.currentTask t).id
    machine.continueWith t (acquireMoves task ++ .keepToken task :: rest)
  | .keepToken task =>
    let thread := machine.thread t
    machine.setThread t
      { thread with todo := rest, tokens := task :: thread.tokens, answer := some .acquired }
  | .probe =>
    machine.returnWith t (if world.tasks.isEmpty then .notVisited else .unwound) rest
  | .dumpTask size allTasks =>
    let current := world.currentTask t
    if allTasks then machine.continueWith t (.dumpWorker current size :: rest)
    else machine.returnWith t (.text (dumpText current [] size)) rest
  | .dumpWorker current size =>
    let before := world.currentWorker t
    machine.continueWith t (acquireMoves current.id ++ .dumpCheck current before size :: rest)
  | .dumpCheck current before size =>
    match checkWorker before (world.currentWorker t) with
    | .error _ => machine.continueWith t (releaseMoves current.id ++ [.abort])
    | .ok () => machine.continueWith t (.dumpVisit current size :: rest)
  | .dumpVisit current size =>
    let text := dumpText current world.snapshots size
    machine.continueWith t (releaseMoves current.id ++ .finish (.text text) :: rest)
  | .abort => { machine with aborted := true }.continueWith t []
  | .finish answer => machine.returnWith t answer rest
  | .depart answer =>
    machine.setThread t
      { machine.thread t with todo := [], answer := some answer, gone := true }

/-- Whether a thread can make a move: it is in a call, not asleep, and the process is alive. -/
def canMove (machine : Machine) (t : ThreadId) : Bool :=
  !machine.aborted && !(machine.thread t).todo.isEmpty &&
    !machine.queue.contains t && !machine.asleep.contains t

/-- One move of a thread, if it can make one. -/
def step? (machine : Machine) (t woken : ThreadId) : Option Machine :=
  match (machine.thread t).todo with
  | [] => none
  | move :: rest =>
    if machine.canMove t then some (machine.perform t woken move rest) else none

/-- Let the threads move, always the first in the list that can and with notifications in order
of arrival, until none can or `moves` have been made. -/
def settle (threads : List ThreadId) : (moves : Nat) → Machine → Machine
  | 0, machine => machine
  | moves + 1, machine =>
    let next := threads.findSome? fun t => machine.step? t (machine.queue.headD 0)
    match next with
    | none => machine
    | some moved => settle threads moves moved

end Machine

/-- What a thread can be told to do. -/
inductive Command where
  | register
  | unregister (oldest : Bool)
  | setStatus (status : TaskStatus)
  | safepoint (stack : CallStack)
  | setHold (task : TaskId) (held : Bool)
  | setBlocked (task : TaskId) (blocked : Bool)
  | stop
  | start
  | current
  | acquire (task : Option TaskId)
  | release
  | dump (size : Nat) (allTasks : Bool)
  /-- Visit the tasks and fail at the first. -/
  | failingVisit
  /-- End the thread, by unwinding or not; its pauses and then its registrations are dropped,
  oldest first. -/
  | depart (unwinding : Bool)
deriving DecidableEq, Repr

/-- The moves of a command, and the thread once it has handed over what the command drops. -/
def Command.begin (command : Command) (thread : Thread) : Thread :=
  let call (todo : List Move) : Thread := { thread with todo := todo, answer := none }
  match command with
  | .register => call [.register]
  | .unregister oldest =>
    let given := if oldest then thread.registrations.getLast? else thread.registrations.head?
    match given with
    | none => call [.finish (.dropped false)]
    | some registration =>
      let kept := if oldest then thread.registrations.dropLast else thread.registrations.tail
      { call (unregisterMoves registration ++ [.finish (.dropped true)]) with
        registrations := kept }
  | .setStatus status => call [.setStatus status, .wakeAll, .finish .nothing]
  | .safepoint stack => call [.poll stack, .finish .nothing]
  | .setHold task held => call [.hold task held, .finish .nothing]
  | .setBlocked task blocked =>
    call [if blocked then .block task else .unblock task, .wakeAll, .finish .nothing]
  | .stop => call [.raise, .finish .stopped]
  | .start => call [.lift, .wakeAll, .finish .nothing]
  | .current => call [.readCurrent]
  | .acquire none => call [.acquireOwn]
  | .acquire (some task) => call (acquireMoves task ++ [.keepToken task])
  | .release =>
    match thread.tokens with
    | [] => call [.finish (.dropped false)]
    | task :: rest =>
      { call (releaseMoves task ++ [.finish (.dropped true)]) with tokens := rest }
  | .dump size allTasks =>
    call [if size = 0 then .finish (.text []) else .dumpTask size allTasks]
  | .failingVisit => call [.probe]
  | .depart unwinding =>
    let moves := thread.tokens.reverse.flatMap releaseMoves ++
      thread.registrations.reverse.flatMap unregisterMoves
    { call (moves ++ [.depart (if unwinding then .unwound else .exited)]) with
      registrations := []
      tokens := [] }

namespace Machine

/-- Whether a thread can be told to do something: it is not in a call and has not ended. -/
def ready (machine : Machine) (t : ThreadId) : Bool :=
  (machine.thread t).todo.isEmpty && !(machine.thread t).gone

/-- Moves that are enough for a set of threads to come to rest: those of their calls, and those
that calls go on to, each made again after every notification. -/
def movesToRest (machine : Machine) (threads : List ThreadId) : Nat :=
  let moves := threads.foldl (fun sum t => sum + (machine.thread t).todo.length + 16) 0
  moves * (moves + 1)

/-- Hand a command to a thread and let all threads move until none can. -/
def tell (machine : Machine) (threads : List ThreadId) (t : ThreadId) (command : Command) :
    Machine :=
  let told := machine.setThread t (command.begin (machine.thread t))
  told.settle threads (told.movesToRest threads)

/-- What the last call of a thread has returned, if it has. -/
def returned? (machine : Machine) (t : ThreadId) : Option Answer :=
  if (machine.thread t).todo.isEmpty then (machine.thread t).answer else none

/-- The threads that were in a call at an earlier time and have returned since. -/
def returnedSince (machine earlier : Machine) (threads : List ThreadId) :
    List (ThreadId × Answer) :=
  (threads.filter fun t => !(earlier.thread t).todo.isEmpty).filterMap fun t =>
    (machine.returned? t).map fun answer => (t, answer)

end Machine

end SiteProfiler
