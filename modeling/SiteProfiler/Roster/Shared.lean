import SiteProfiler.Pause.Safepoint
import SiteProfiler.Profiler.Exports

/-!
# The roster shared by threads

The workers stand in a chain of nodes behind one head, and a node never changes.  A thread that
registers a worker takes the next number, looks at the head, and tries to put a node in front of
the head it saw.  If the head has changed meanwhile it tries again with the head it finds.  A
reader looks at the head once and follows the links from there.

Each of these is one act, and acts of different threads may follow each other in any order.
-/

namespace SiteProfiler

namespace SharedRoster

/-- A node, as its place in the order in which nodes were put up. -/
abbrev NodeId := Nat

/-- A worker, and the node that was the head when it was put up. -/
structure Node where
  next : Option NodeId
  worker : Worker
deriving DecidableEq, Repr

/-- What a thread is about to do in the call it is in. -/
inductive Stage where
  | idle
  /-- Registering: look at the head. -/
  | numbered (worker : Worker)
  /-- Registering: put a node in front of the head that was seen. -/
  | linked (worker : Worker) (seen : Option NodeId)
  /-- Exporting: count the next worker from the head that was loaded. -/
  | counting (buffer : List StackRecord) (loaded cursor : Option NodeId) (counted : Nat)
  /-- Exporting: fill the next record. -/
  | filling (needed : Nat) (filled rest : List StackRecord) (cursor : Option NodeId)
deriving DecidableEq

/-- What a caller has been given. -/
inductive LogEntry where
  /-- The registration of a worker has returned its number. -/
  | registered (t : ThreadId) (worker : Worker)
  /-- An iterator has been stepped. -/
  | yielded (iterator : Nat) (worker : Option Worker)
  /-- The creation stacks have been exported. -/
  | exported (t : ThreadId) (result : Export StackRecord) (journal : List JournalLine)
deriving DecidableEq

inductive Act where
  /-- Begin to register a worker: take the next number. -/
  | reserve (t : ThreadId) (createStack : CallStack)
  /-- Begin to export creation stacks: load the head. -/
  | profile (t : ThreadId) (buffer : List StackRecord)
  /-- Go on with the call a thread is in. -/
  | proceed (t : ThreadId)
  /-- Take a snapshot: a new iterator stands at the head. -/
  | take
  /-- Clone an iterator: the new one stands where it stands. -/
  | clone (iterator : Nat)
  /-- Step an iterator. -/
  | step (iterator : Nat)
deriving DecidableEq

end SharedRoster

structure SharedRoster where
  nextId : WorkerId
  /-- The nodes in the order in which they were put up. -/
  nodes : List SharedRoster.Node
  head : Option SharedRoster.NodeId
  stage : ThreadId → SharedRoster.Stage
  /-- Where the iterators stand, in the order in which they were made. -/
  iterators : List (Option SharedRoster.NodeId)
  /-- What callers have been given, in order. -/
  log : List SharedRoster.LogEntry

namespace SharedRoster

/-- No workers; numbers start at 1. -/
def start : SharedRoster where
  nextId := 1
  nodes := []
  head := none
  stage := fun _ => .idle
  iterators := []
  log := []

/-- What an iterator yields at a cursor, and where it stands then. -/
def advance (nodes : List Node) (cursor : Option NodeId) : Option Worker × Option NodeId :=
  match cursor.bind (nodes[·]?) with
  | some node => (some node.worker, node.next)
  | none => (none, none)

/-- What an iterator yields in so many steps, up to its end. -/
def collect (nodes : List Node) : (steps : Nat) → Option NodeId → List Worker
  | 0, _ => []
  | steps + 1, cursor =>
    match advance nodes cursor with
    | (some worker, rest) => worker :: collect nodes steps rest
    | (none, _) => []

/-- The workers that an iterator yields from a cursor on. -/
def remaining (shared : SharedRoster) (cursor : Option NodeId) : List Worker :=
  collect shared.nodes shared.nodes.length cursor

/-- The workers that a snapshot yields if it is taken now. -/
def listing (shared : SharedRoster) : List Worker := shared.remaining shared.head

/-- The workers that an iterator will yield. -/
def left (shared : SharedRoster) (iterator : Nat) : List Worker :=
  shared.remaining (shared.iterators[iterator]?.getD none)

/-- The roster as a single caller sees it. -/
def roster (shared : SharedRoster) : Roster := ⟨shared.nextId, shared.listing⟩

def setStage (shared : SharedRoster) (t : ThreadId) (stage : Stage) : SharedRoster :=
  { shared with stage := fun other => if other = t then stage else shared.stage other }

def report (shared : SharedRoster) (entry : LogEntry) : SharedRoster :=
  { shared with log := shared.log ++ [entry] }

/-- Put up a worker's node in front of the head. -/
def putUp (shared : SharedRoster) (worker : Worker) : SharedRoster :=
  { shared with
    nodes := shared.nodes ++ [⟨shared.head, worker⟩]
    head := some shared.nodes.length }

/-- The export of a thread is over. -/
def answer (shared : SharedRoster) (t : ThreadId) (result : Export StackRecord) : SharedRoster :=
  (shared.setStage t .idle).report
    (.exported t result (result.journal .thread result.buffer.length))

/-- Go on with a call from a stage. -/
def proceed? (shared : SharedRoster) (t : ThreadId) : Stage → Option SharedRoster
  | .idle => none
  | .numbered worker => some (shared.setStage t (.linked worker shared.head))
  | .linked worker seen =>
    if shared.head = seen then
      some (((shared.putUp worker).setStage t .idle).report (.registered t worker))
    else some (shared.setStage t (.linked worker shared.head))
  | .counting buffer loaded cursor counted =>
    match advance shared.nodes cursor with
    | (some _, next) => some (shared.setStage t (.counting buffer loaded next (counted + 1)))
    | (none, _) =>
      if buffer.length < counted then
        some (shared.answer t ⟨counted, false, buffer⟩)
      else some (shared.setStage t (.filling counted [] buffer loaded))
  | .filling needed filled rest cursor =>
    match rest, advance shared.nodes cursor with
    | record :: others, (some worker, next) =>
      some (shared.setStage t
        (.filling needed (filled ++ [record.fill worker.createStack]) others next))
    | rest, _ => some (shared.answer t ⟨needed, true, filled ++ rest⟩)

def act? (shared : SharedRoster) : Act → Option SharedRoster
  | .reserve t createStack =>
    if shared.stage t = .idle then
      some ({ shared with nextId := shared.nextId + 1 }.setStage t
        (.numbered ⟨createStack, shared.nextId⟩))
    else none
  | .profile t buffer =>
    if shared.stage t = .idle then
      some (shared.setStage t (.counting buffer shared.head shared.head 0))
    else none
  | .proceed t => shared.proceed? t (shared.stage t)
  | .take => some { shared with iterators := shared.iterators ++ [shared.head] }
  | .clone iterator => shared.iterators[iterator]?.map fun cursor =>
    { shared with iterators := shared.iterators ++ [cursor] }
  | .step iterator => shared.iterators[iterator]?.map fun cursor =>
    let (worker, next) := advance shared.nodes cursor
    { shared with iterators := shared.iterators.set iterator next }.report
      (.yielded iterator worker)

/-- Carry out acts in order. -/
def run? (shared : SharedRoster) (acts : List Act) : Option SharedRoster :=
  acts.foldlM act? shared

end SharedRoster

end SiteProfiler
