import SiteProfiler.Journal
import SiteProfiler.Outcome
import SiteProfiler.Settings
import SiteProfiler.Site.Table

/-!
# Recording events

The profiler is shared by all threads.  A thread carries a mark while it is inside the profiler;
an event that arrives on a marked thread is dropped and counted instead of being tallied.

What a thread does at the moment a new bucket is announced is a parameter of recording: at that
moment the table is locked, the bucket is linked, nothing is tallied in it yet and the thread is
marked.  It may record more events, and it may fail, in which case the recording is left by
unwinding, the bucket stays as it is and the mark goes back to what it was.
-/

namespace SiteProfiler

structure Profiler where
  settings : Settings
  collector : Collector
  enabled : Bool
  droppedEvents : Nat
  collectionCycles : Nat
  table : SiteTable
  roster : Roster

namespace Profiler

def ofSettings (settings : Settings) : Profiler where
  settings := settings
  collector := .ofSettings settings
  enabled := settings.startEnabled
  droppedEvents := 0
  collectionCycles := 0
  table := .withCapacity settings.hashChains settings.bucketCapacity
  roster := .empty

def enable (profiler : Profiler) : Profiler := { profiler with enabled := true }

def disable (profiler : Profiler) : Profiler := { profiler with enabled := false }

/-- Count one event as dropped. -/
def countDropped (profiler : Profiler) : Profiler :=
  { profiler with droppedEvents := profiler.droppedEvents + 1 }

/-- Tally an event in a bucket. -/
def tally (profiler : Profiler) (id : BucketId) (event : Event) : Profiler :=
  { profiler with table := profiler.table.update id (Counters.tally event) }

def bucketCount (profiler : Profiler) (kind : EventKind) : Nat := profiler.table.len kind

/-- Register a worker with the stack that created it. -/
def registerWorker (profiler : Profiler) (createStack : CallStack) : WorkerId × Profiler :=
  let (id, roster) := profiler.roster.register createStack
  (id, { profiler with roster := roster })

/-- Register a worker created where the given walk of the stack started. -/
def registerWorkerHere (profiler : Profiler) (walk : List Address) : WorkerId × Profiler :=
  profiler.registerWorker (profiler.collector.capture walk)

end Profiler

/-- The profiler as one thread finds it: the shared state and the thread's own mark. -/
structure Caller where
  profiler : Profiler
  inside : Bool

/-- How a call made by a thread ended, what it left behind, and what it wrote to the journal. -/
structure Reply (α : Type) where
  outcome : Outcome α
  caller : Caller
  journal : List JournalLine

/-- Something a thread does. -/
abbrev Call (α : Type) := Caller → Reply α

namespace Caller

/-- Do nothing. -/
def quiet : Call Unit := fun caller => ⟨.returned (), caller, []⟩

/-- Change the shared state. -/
def modify (change : Profiler → Profiler) : Call Unit := fun caller =>
  ⟨.returned (), { caller with profiler := change caller.profiler }, []⟩

/-- Run with the thread marked; afterwards, however the call ends, the mark is what it was. -/
def hold {α : Type} (body : Call α) : Call α := fun caller =>
  let reply := body { caller with inside := true }
  { reply with caller := { reply.caller with inside := caller.inside } }

/-- Run with the thread marked, unless it is marked already. -/
def guarded {α : Type} (body : Call α) : Call (Option α) := fun caller =>
  if caller.inside then ⟨.returned none, caller, []⟩
  else
    let reply := hold body caller
    { reply with outcome := reply.outcome.map some }

/-- With the table locked: find or create the bucket, announce it if it is new, and tally. -/
def tallyAt (stack : CallStack) (event : Event) (onCreation : Call Unit) : Call Unit :=
  fun caller =>
    let found := caller.profiler.table.lookup event.kind stack
    let linked := { caller with profiler := { caller.profiler with table := found.table } }
    let announced : Reply Unit :=
      if found.created then
        let reply := onCreation linked
        { reply with
          journal := .bucketCreated event.kind found.id stack.depth :: reply.journal }
      else quiet linked
    match announced.outcome with
    | .unwound => announced
    | .returned () =>
      { announced with
        caller := { announced.caller with
          profiler := announced.caller.profiler.tally found.id event } }

/-- Record an event at a stack. -/
def record (stack : CallStack) (event : Event) (onCreation : Call Unit) : Call Unit :=
  fun caller =>
    if caller.profiler.enabled then
      let reply := guarded (tallyAt stack event onCreation) caller
      match reply.outcome with
      | .returned (some ()) => { reply with outcome := .returned () }
      | .returned none =>
        { outcome := .returned ()
          caller := { reply.caller with profiler := reply.caller.profiler.countDropped }
          journal := reply.journal ++ [.reentrantDropped event.kind] }
      | .unwound => { reply with outcome := .unwound }
    else quiet caller

/-- Capture a stack for an event; on a marked thread the event is dropped here. -/
def captureHere (walk : List Address) : Call (Option CallStack) := fun caller =>
  if caller.profiler.enabled then
    let reply := guarded
      (fun marked => ⟨.returned (marked.profiler.collector.capture walk), marked, []⟩) caller
    match reply.outcome with
    | .returned none =>
      { reply with
        caller := { reply.caller with profiler := reply.caller.profiler.countDropped } }
    | _ => reply
  else ⟨.returned none, caller, []⟩

/-- Record an event at the place where the given walk of the stack started. -/
def recordHere (walk : List Address) (event : Event) (onCreation : Call Unit) : Call Unit :=
  fun caller =>
    let captured := captureHere walk caller
    match captured.outcome with
    | .returned (some stack) =>
      let reply := record stack event onCreation captured.caller
      { reply with journal := captured.journal ++ reply.journal }
    | .returned none => { captured with outcome := .returned () }
    | .unwound => { captured with outcome := .unwound }

end Caller

/-- Where an event comes from: a stack that is given, or a walk of the calling thread's stack. -/
inductive Origin where
  | stack (stack : CallStack)
  | here (walk : List Address)
deriving DecidableEq, Repr

inductive Action where
  | record (origin : Origin) (event : Event)
  | enable
  | disable
deriving DecidableEq, Repr

namespace Caller

/-- Carry out an action; `onCreation` is what the thread does if it creates a bucket. -/
def act (action : Action) (onCreation : Call Unit) : Call Unit :=
  match action with
  | .record (.stack stack) event => record stack event onCreation
  | .record (.here walk) event => recordHere walk event onCreation
  | .enable => modify Profiler.enable
  | .disable => modify Profiler.disable

/-- Carry out actions in order, up to the first that is left by unwinding. -/
def actAll : List Action → Call Unit
  | [], caller => quiet caller
  | action :: rest, caller =>
    let first := act action quiet caller
    match first.outcome with
    | .unwound => first
    | .returned () =>
      let others := actAll rest first.caller
      { others with journal := first.journal ++ others.journal }

/-- Carry out an action a number of times, up to the first that is left by unwinding. -/
def actTimes (action : Action) (onCreation : Call Unit) : (times : Nat) → Call Unit
  | 0, caller => quiet caller
  | times + 1, caller =>
    let first := act action onCreation caller
    match first.outcome with
    | .unwound => first
    | .returned () =>
      let others := actTimes action onCreation times first.caller
      { others with journal := first.journal ++ others.journal }

end Caller

/-- What a thread does when a bucket it creates is announced: some actions, and then it may
fail. -/
structure AtCreation where
  actions : List Action := []
  fails : Bool := false
deriving DecidableEq, Repr

def AtCreation.run (plan : AtCreation) : Call Unit := fun caller =>
  let reply := Caller.actAll plan.actions caller
  if plan.fails then { reply with outcome := .unwound } else reply

end SiteProfiler
