import SiteProfiler.Profile.Snapshot
import SiteProfiler.Profiler.Recording

/-!
# Copying profiles out

A profile is counted before it is copied.  If the caller's buffer is too short nothing in it is
changed and the count tells how long it has to be; otherwise the first records are overwritten
and the others stay as they are.

Memory profiles read the cumulative generation.  While nothing has reached it in any bucket, an
export first rotates twice, so that events are visible before the first collection cycle.
-/

namespace SiteProfiler

/-- Fill the leading records of a buffer from items, if it is long enough for all of them. -/
def copyOut {α β : Type} (fill : α → β → α) (buffer : List α) (items : List β) : List α :=
  if items.length ≤ buffer.length then
    List.zipWith fill buffer items ++ buffer.drop items.length
  else buffer

/-- What an export reports: how many records the profile has, whether they were copied, and the
caller's buffer afterwards. -/
structure Export (α : Type) where
  needed : Nat
  complete : Bool
  buffer : List α
deriving DecidableEq

/-- Copy items into a buffer and report on it. -/
def Export.of {α β : Type} (fill : α → β → α) (buffer : List α) (items : List β) : Export α where
  needed := items.length
  complete := items.length ≤ buffer.length
  buffer := copyOut fill buffer items

/-- The journal line of an export whose buffer was too short. -/
def Export.journal {α : Type} (name : ProfileName) (capacity : Nat) (result : Export α) :
    List JournalLine :=
  if result.complete then [] else [.truncated name result.needed capacity]

namespace SiteTable

/-- The sites a memory profile lists: all, or those whose cumulative bytes have not all been
freed. -/
def memSites (table : SiteTable) (includeZeroed : Bool) : List (MemGenerations × CallStack) :=
  (table.iter .memory).filterMap fun bucket =>
    match bucket.counters.memory? with
    | some gens => if includeZeroed || gens.inUse then some (gens, bucket.stack) else none
    | none => none

/-- The sites a blocking profile lists. -/
def blockSites (table : SiteTable) : List (BlockTally × CallStack) :=
  (table.iter .blocking).filterMap fun bucket =>
    bucket.counters.blocking?.map fun tally => (tally, bucket.stack)

/-- The table as a memory profile reads it. -/
def flush (table : SiteTable) : SiteTable :=
  if table.pristine then table.rotate.rotate else table

end SiteTable

/-- Records a snapshot asks for beyond those it needed at its last attempt. -/
def snapshotSlack : Nat := 50

/-- One attempt at a snapshot: the records, or a longer buffer for the next attempt. -/
inductive Attempt (α : Type) where
  | done (records : List α)
  | short (buffer : List α)
deriving DecidableEq

/-- The buffer to try again with: at least as long as it was, with room to spare. -/
def regrow {α : Type} (blank : α) (needed : Nat) (buffer : List α) : List α :=
  (buffer ++ List.replicate (needed + snapshotSlack) blank).take (needed + snapshotSlack)

def Export.attempt {α : Type} (blank : α) (result : Export α) : Attempt α :=
  if result.complete then .done (result.buffer.take result.needed)
  else .short (regrow blank result.needed result.buffer)

namespace Profiler

/-- Advance every memory bucket by one generation, as the collector does at the end of a cycle
before it counts the cycle. -/
def rotate (profiler : Profiler) : Profiler :=
  { profiler with table := profiler.table.rotate }

/-- Count one completed collection cycle. -/
def countCycle (profiler : Profiler) : Profiler :=
  { profiler with collectionCycles := profiler.collectionCycles + 1 }

/-- A collection cycle has completed. -/
def onCycle (profiler : Profiler) : Profiler × List JournalLine :=
  let counted := profiler.rotate.countCycle
  (counted, [.rotated counted.collectionCycles (counted.bucketCount .memory)])

/-- Copy the memory profile. -/
def memProfile (profiler : Profiler) (buffer : List MemRecord) (includeZeroed : Bool) :
    Export MemRecord × Profiler × List JournalLine :=
  let flushed := { profiler with table := profiler.table.flush }
  let result := Export.of (fun record (site : MemGenerations × CallStack) =>
    record.fill site.1 site.2) buffer (flushed.table.memSites includeZeroed)
  (result, flushed,
    (if profiler.table.pristine then [.flushed] else []) ++ result.journal .memory buffer.length)

/-- Copy the blocking profile. -/
def blockProfile (profiler : Profiler) (buffer : List BlockRecord) :
    Export BlockRecord × List JournalLine :=
  let result := Export.of (fun record (site : BlockTally × CallStack) =>
    record.fill site.1 site.2) buffer profiler.table.blockSites
  (result, result.journal .block buffer.length)

/-- Copy the creation stacks of the workers, newest first. -/
def threadProfile (profiler : Profiler) (buffer : List StackRecord) :
    Export StackRecord × List JournalLine :=
  let result := Export.of (fun record (worker : Worker) => record.fill worker.createStack)
    buffer profiler.roster.snapshot
  (result, result.journal .thread buffer.length)

/-- One attempt to take the memory profile with a given buffer. -/
def attemptMem (profiler : Profiler) (buffer : List MemRecord) (includeZeroed : Bool) :
    Attempt MemRecord × Profiler × List JournalLine :=
  let (result, exported, journal) := profiler.memProfile buffer includeZeroed
  (result.attempt .zero, exported, journal)

/-- One attempt to take the blocking profile with a given buffer. -/
def attemptBlock (profiler : Profiler) (buffer : List BlockRecord) :
    Attempt BlockRecord × List JournalLine :=
  let (result, journal) := profiler.blockProfile buffer
  (result.attempt .zero, journal)

/-- Attempt with ever longer buffers.  Between attempts of a single caller nothing changes, so
its second attempt has room enough. -/
def memRecords (includeZeroed : Bool) : (retries : Nat) → List MemRecord → Profiler →
    List MemRecord × Profiler × List JournalLine
  | retries, buffer, profiler =>
    match profiler.attemptMem buffer includeZeroed with
    | (.done records, exported, journal) => (records, exported, journal)
    | (.short longer, exported, journal) =>
      match retries with
      | 0 => ([], exported, journal)
      | left + 1 =>
        let (records, final, rest) := memRecords includeZeroed left longer exported
        (records, final, journal ++ rest)

def blockRecords : (retries : Nat) → List BlockRecord → Profiler →
    List BlockRecord × List JournalLine
  | retries, buffer, profiler =>
    match profiler.attemptBlock buffer with
    | (.done records, journal) => (records, journal)
    | (.short longer, journal) =>
      match retries with
      | 0 => ([], journal)
      | left + 1 =>
        let (records, rest) := blockRecords left longer profiler
        (records, journal ++ rest)

/-- The whole memory profile; the cycle count is read after the records. -/
def memSnapshot (profiler : Profiler) (includeZeroed : Bool) :
    MemSnapshot × Profiler × List JournalLine :=
  let (records, exported, journal) := memRecords includeZeroed 1 [] profiler
  (⟨records, exported.collectionCycles⟩, exported, journal)

/-- The whole blocking profile. -/
def blockSnapshot (profiler : Profiler) : BlockSnapshot × List JournalLine :=
  let (records, journal) := blockRecords 1 [] profiler
  (⟨records⟩, journal)

end Profiler

end SiteProfiler
