import SiteProfiler.Capped

/-!
# Tallies of one site

Memory events are tallied in three generations.  A fresh event counts in `recent`; a rotation
folds `previous` into `cumulative` and moves `recent` to `previous`, so a profile reads totals
that lag one collection cycle behind.  Blocking events are tallied without generations.  All
counts are capped.
-/

namespace SiteProfiler

/-- Allocations and frees of one generation. -/
structure MemTally where
  allocBytes : UInt64
  allocs : UInt64
  freeBytes : UInt64
  frees : UInt64
deriving DecidableEq, Repr

namespace MemTally

def zero : MemTally := ⟨0, 0, 0, 0⟩

instance : Inhabited MemTally := ⟨zero⟩

def isZero (tally : MemTally) : Bool := tally = zero

/-- Field by field, the capped sum. -/
def merge (a b : MemTally) : MemTally where
  allocBytes := cappedSum a.allocBytes b.allocBytes
  allocs := cappedSum a.allocs b.allocs
  freeBytes := cappedSum a.freeBytes b.freeBytes
  frees := cappedSum a.frees b.frees

end MemTally

/-- The memory events of one site by generation. -/
structure MemGenerations where
  cumulative : MemTally
  previous : MemTally
  recent : MemTally
deriving DecidableEq, Repr

namespace MemGenerations

def zero : MemGenerations := ⟨.zero, .zero, .zero⟩

instance : Inhabited MemGenerations := ⟨zero⟩

/-- Tally one allocation of `bytes` bytes. -/
def allocate (gens : MemGenerations) (bytes : UInt64) : MemGenerations :=
  { gens with recent := gens.recent.merge ⟨bytes, 1, 0, 0⟩ }

/-- Tally one free of `bytes` bytes. -/
def release (gens : MemGenerations) (bytes : UInt64) : MemGenerations :=
  { gens with recent := gens.recent.merge ⟨0, 0, bytes, 1⟩ }

/-- Advance by one generation. -/
def rotate (gens : MemGenerations) : MemGenerations where
  cumulative := gens.cumulative.merge gens.previous
  previous := gens.recent
  recent := .zero

/-- Whether a profile that leaves out fully freed sites still lists this one. -/
def inUse (gens : MemGenerations) : Bool :=
  gens.cumulative.allocBytes ≠ gens.cumulative.freeBytes

/-- Whether no event has reached the cumulative generation. -/
def pristine (gens : MemGenerations) : Bool :=
  gens.cumulative.allocs = 0 && gens.cumulative.frees = 0

end MemGenerations

/-- The blocking events of one site: how many, and the cycles they took together. -/
structure BlockTally where
  count : UInt64
  cycles : UInt64
deriving DecidableEq, Repr

namespace BlockTally

def zero : BlockTally := ⟨0, 0⟩

instance : Inhabited BlockTally := ⟨zero⟩

/-- Tally one blocking event of `cycles` cycles. -/
def block (tally : BlockTally) (cycles : UInt64) : BlockTally where
  count := cappedSum tally.count 1
  cycles := cappedSum tally.cycles cycles

end BlockTally

end SiteProfiler
