import SiteProfiler.Pause.Safepoint
import SiteProfiler.Profiler.Exports

/-!
# Snapshots beside collectors

Threads share one profiler.  What a thread does while it has the table locked is one act, and so
is each access to the flag and the counters beside the table; acts of different threads may follow
each other in any order.

The end of a collection cycle takes two acts: the table is rotated, and then the cycle is counted,
when the table is not locked any more.  A snapshot copies the records, under the lock, as often as
its buffer is too short, and reads the count of cycles after that.
-/

namespace SiteProfiler

namespace SharedProfiler

/-- What a thread is about to do in the call it is in. -/
inductive Stage where
  | idle
  /-- Recording: tally the event. -/
  | accepted (stack : CallStack) (event : Event)
  /-- Ending a collection cycle: count it. -/
  | rotated
  /-- Taking a snapshot: copy the records, if the buffer is long enough. -/
  | trying (includeZeroed : Bool) (buffer : List MemRecord)
  /-- Taking a snapshot: read the count of cycles. -/
  | copied (includeZeroed : Bool) (records : List MemRecord)
deriving DecidableEq

inductive Act where
  /-- Begin to record an event at a stack: look whether recording is on. -/
  | record (t : ThreadId) (stack : CallStack) (event : Event)
  /-- Find or create the bucket and tally the event. -/
  | tally (t : ThreadId)
  /-- A collection cycle has completed: rotate the table. -/
  | rotate (t : ThreadId)
  /-- Count the cycle. -/
  | count (t : ThreadId)
  /-- Begin to take a snapshot, with no buffer. -/
  | snapshot (t : ThreadId) (includeZeroed : Bool)
  /-- Copy the records, or get a longer buffer. -/
  | attempt (t : ThreadId)
  /-- Read the count of cycles and return the snapshot. -/
  | read (t : ThreadId)
  /-- Switch recording on or off. -/
  | switch (t : ThreadId) (enabled : Bool)
deriving DecidableEq

/-- The thread that an act is of. -/
def Act.thread : Act → ThreadId
  | record t _ _ | tally t | rotate t | count t | snapshot t _ | attempt t | read t | switch t _ =>
    t

end SharedProfiler

structure SharedProfiler where
  profiler : Profiler
  stage : ThreadId → SharedProfiler.Stage
  /-- The snapshots that were returned, in order: to which thread, and whether fully freed sites
  were asked for. -/
  returned : List (ThreadId × Bool × MemSnapshot)

namespace SharedProfiler

def ofSettings (settings : Settings) : SharedProfiler where
  profiler := .ofSettings settings
  stage := fun _ => .idle
  returned := []

/-- The thread is at another stage, and the profiler has changed. -/
def goOn (shared : SharedProfiler) (t : ThreadId) (stage : Stage) (profiler : Profiler) :
    SharedProfiler :=
  { shared with
    profiler := profiler
    stage := fun other => if other = t then stage else shared.stage other }

/-- The thread gets its snapshot. -/
def give (shared : SharedProfiler) (t : ThreadId) (includeZeroed : Bool) (snapshot : MemSnapshot) :
    SharedProfiler :=
  { shared with returned := shared.returned ++ [(t, includeZeroed, snapshot)] }

def act? (shared : SharedProfiler) (act : Act) : Option SharedProfiler :=
  let profiler := shared.profiler
  match act, shared.stage act.thread with
  | .record t stack event, .idle =>
    some (shared.goOn t (if profiler.enabled then .accepted stack event else .idle) profiler)
  | .tally t, .accepted stack event =>
    some (shared.goOn t .idle
      (Caller.tallyAt stack event Caller.quiet ⟨profiler, true⟩).caller.profiler)
  | .rotate t, .idle => some (shared.goOn t .rotated profiler.rotate)
  | .count t, .rotated => some (shared.goOn t .idle profiler.countCycle)
  | .snapshot t includeZeroed, .idle =>
    some (shared.goOn t (.trying includeZeroed []) profiler)
  | .attempt t, .trying includeZeroed buffer =>
    let (outcome, exported, _) := profiler.attemptMem buffer includeZeroed
    some (shared.goOn t
      (match outcome with
        | .done records => .copied includeZeroed records
        | .short longer => .trying includeZeroed longer)
      exported)
  | .read t, .copied includeZeroed records =>
    let given := shared.give t includeZeroed ⟨records, profiler.collectionCycles⟩
    some (given.goOn t .idle profiler)
  | .switch t enabled, .idle =>
    some (shared.goOn t .idle (if enabled then profiler.enable else profiler.disable))
  | _, _ => none

/-- Carry out acts in order. -/
def run? (shared : SharedProfiler) (acts : List Act) : Option SharedProfiler :=
  acts.foldlM act? shared

end SharedProfiler

end SiteProfiler
