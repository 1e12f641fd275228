import SiteProfiler.Site.CallStack
import SiteProfiler.Site.Tally

/-!
# Buckets

A bucket tallies the events of one kind at one call stack.  Its two links thread it through the
hash chain it was filed under and through the creation-order list of its kind.
-/

namespace SiteProfiler

inductive EventKind where
  | memory
  | blocking
deriving DecidableEq, Repr

namespace EventKind

def name : EventKind → String
  | memory => "Memory"
  | blocking => "Blocking"

/-- Start value of the hash, so that one stack files differently under the two kinds. -/
def seed : EventKind → UInt64
  | memory => 0x6d656d00
  | blocking => 0x626c6b00

end EventKind

/-- One event to be tallied at some call stack. -/
inductive Event where
  | allocation (bytes : UInt64)
  | release (bytes : UInt64)
  | blocked (cycles : UInt64)
deriving DecidableEq, Repr

def Event.kind : Event → EventKind
  | allocation _ | release _ => .memory
  | blocked _ => .blocking

inductive Counters where
  | memory (gens : MemGenerations)
  | blocking (tally : BlockTally)
deriving DecidableEq, Repr

namespace Counters

def kind : Counters → EventKind
  | memory _ => .memory
  | blocking _ => .blocking

def zero : EventKind → Counters
  | .memory => memory .zero
  | .blocking => blocking .zero

/-- Tally an event.  One of the other kind changes nothing. -/
def tally : Event → Counters → Counters
  | .allocation bytes, memory gens => memory (gens.allocate bytes)
  | .release bytes, memory gens => memory (gens.release bytes)
  | .blocked cycles, blocking counts => blocking (counts.block cycles)
  | _, counters => counters

/-- Advance by one generation; blocking counters have none. -/
def rotate : Counters → Counters
  | memory gens => memory gens.rotate
  | blocking counts => blocking counts

def memory? : Counters → Option MemGenerations
  | memory gens => some gens
  | blocking _ => none

def blocking? : Counters → Option BlockTally
  | memory _ => none
  | blocking counts => some counts

end Counters

/-- Position of a bucket in its table. -/
abbrev BucketId := Nat

structure Bucket where
  kind : EventKind
  stack : CallStack
  hash : UInt64
  hashNext : Option BucketId
  allNext : Option BucketId
  counters : Counters
deriving DecidableEq, Repr

/-- A bucket as it is created: nothing tallied, last of its kind. -/
def Bucket.new (kind : EventKind) (stack : CallStack) (hash : UInt64)
    (hashNext : Option BucketId) : Bucket where
  kind := kind
  stack := stack
  hash := hash
  hashNext := hashNext
  allNext := none
  counters := .zero kind

end SiteProfiler
