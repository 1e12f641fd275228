import Mathlib.Algebra.GroupWithZero.Nat
import SiteProfiler.Site.Bucket

/-!
# Generations as capped sums

The tally of some events is, field by field, their exact sum cut at the largest counter.  Cutting
after every addition gives the same as cutting once, so tallies merge as their events do, whatever
the order and the grouping.  What one event adds to the counters of its site is told in exact
numbers, apart from how it is tallied.
-/

namespace SiteProfiler

/-- The counter nearest to an exact count. -/
def capped (count : Nat) : UInt64 := UInt64.ofNat (min count counterMax)

theorem toNat_capped (count : Nat) : (capped count).toNat = min count counterMax := by
  simp only [capped, counterMax, UInt64.toNat_ofNat']
  omega

theorem cappedSum_capped (a b : Nat) : cappedSum (capped a) (capped b) = capped (a + b) := by
  apply UInt64.toNat_inj.mp
  rw [toNat_cappedSum, toNat_capped, toNat_capped, toNat_capped]
  omega

theorem capped_toNat (count : UInt64) : capped count.toNat = count := by
  apply UInt64.toNat_inj.mp
  have hLt := count.toNat_lt
  rw [toNat_capped, counterMax]
  omega

theorem cappedSum_zero (count : UInt64) : cappedSum count 0 = count := by
  have hSum := cappedSum_capped count.toNat 0
  rwa [Nat.add_zero, capped_toNat, show capped 0 = 0 from rfl] at hSum

theorem capped_eq_zero_iff (count : Nat) : capped count = 0 ↔ count = 0 := by
  rw [← UInt64.toNat_inj, toNat_capped, counterMax]
  simp only [UInt64.toNat_zero]
  omega

namespace Event

def allocBytes : Event → Nat
  | allocation bytes => bytes.toNat
  | _ => 0

def allocs : Event → Nat
  | allocation _ => 1
  | _ => 0

def freeBytes : Event → Nat
  | release bytes => bytes.toNat
  | _ => 0

def frees : Event → Nat
  | release _ => 1
  | _ => 0

end Event

namespace MemTally

/-- Field by field, the sum of some events, cut at the largest counter. -/
def ofEvents (events : List Event) : MemTally where
  allocBytes := capped (events.map Event.allocBytes).sum
  allocs := capped (events.map Event.allocs).sum
  freeBytes := capped (events.map Event.freeBytes).sum
  frees := capped (events.map Event.frees).sum

theorem ofEvents_nil : ofEvents [] = zero := rfl

theorem merge_ofEvents (events more : List Event) :
    (ofEvents events).merge (ofEvents more) = ofEvents (events ++ more) := by
  simp only [merge, ofEvents, cappedSum_capped, List.map_append, List.sum_append]

theorem ofEvents_perm {events others : List Event} (hPerm : events.Perm others) :
    ofEvents events = ofEvents others := by
  simp only [ofEvents, (hPerm.map _).sum_nat]

theorem ofEvents_allocation (bytes : UInt64) :
    ofEvents [.allocation bytes] = ⟨bytes, 1, 0, 0⟩ := by
  simp only [ofEvents, List.map_cons, List.map_nil, List.sum_cons, List.sum_nil, Nat.add_zero,
    Event.allocBytes, capped_toNat]
  rfl

theorem ofEvents_release (bytes : UInt64) :
    ofEvents [.release bytes] = ⟨0, 0, bytes, 1⟩ := by
  simp only [ofEvents, List.map_cons, List.map_nil, List.sum_cons, List.sum_nil, Nat.add_zero,
    Event.freeBytes, capped_toNat]
  rfl

end MemTally

namespace MemGenerations

/-- The generations of events by when they were recorded. -/
def ofEvents (older previous recent : List Event) : MemGenerations :=
  ⟨.ofEvents older, .ofEvents previous, .ofEvents recent⟩

theorem rotate_ofEvents (older previous recent : List Event) :
    (ofEvents older previous recent).rotate = ofEvents (older ++ previous) recent [] := by
  simp only [rotate, ofEvents, MemTally.merge_ofEvents, MemTally.ofEvents_nil]

/-- A memory event counts among the recent ones. -/
theorem tally_ofEvents (older previous recent : List Event) {event : Event}
    (hMemory : event.kind = .memory) :
    Counters.tally event (.memory (ofEvents older previous recent)) =
      .memory (ofEvents older previous (recent ++ [event])) := by
  cases event with
  | allocation bytes =>
    simp only [Counters.tally, allocate, ofEvents, ← MemTally.merge_ofEvents,
      MemTally.ofEvents_allocation]
  | release bytes =>
    simp only [Counters.tally, release, ofEvents, ← MemTally.merge_ofEvents,
      MemTally.ofEvents_release]
  | blocked cycles => cases hMemory

end MemGenerations

/-! ## One event -/

/-- What an event adds to the counters of its site.  Each figure is added exactly and cut at the
largest counter; of the memory generations only the recent one changes. -/
inductive Event.Raises : Event → Counters → Counters → Prop where
  | allocation {bytes allocBytes allocs : UInt64} (gens : MemGenerations)
    (hBytes : allocBytes.toNat = min (gens.recent.allocBytes.toNat + bytes.toNat) counterMax)
    (hCount : allocs.toNat = min (gens.recent.allocs.toNat + 1) counterMax) :
    Raises (.allocation bytes) (.memory gens) (.memory { gens with
      recent := { gens.recent with allocBytes := allocBytes, allocs := allocs } })
  | release {bytes freeBytes frees : UInt64} (gens : MemGenerations)
    (hBytes : freeBytes.toNat = min (gens.recent.freeBytes.toNat + bytes.toNat) counterMax)
    (hCount : frees.toNat = min (gens.recent.frees.toNat + 1) counterMax) :
    Raises (.release bytes) (.memory gens) (.memory { gens with
      recent := { gens.recent with freeBytes := freeBytes, frees := frees } })
  | blocked {cycles count total : UInt64} (tally : BlockTally)
    (hCount : count.toNat = min (tally.count.toNat + 1) counterMax)
    (hCycles : total.toNat = min (tally.cycles.toNat + cycles.toNat) counterMax) :
    Raises (.blocked cycles) (.blocking tally) (.blocking ⟨count, total⟩)

/-- The counters of a site before its first event. -/
def Counters.untallied : EventKind → Counters
  | .memory => .memory ⟨⟨0, 0, 0, 0⟩, ⟨0, 0, 0, 0⟩, ⟨0, 0, 0, 0⟩⟩
  | .blocking => .blocking ⟨0, 0⟩

theorem Counters.untallied_eq_zero (kind : EventKind) : untallied kind = zero kind := by
  cases kind <;> rfl

theorem MemTally.merge_allocated (tally : MemTally) (bytes : UInt64) :
    tally.merge ⟨bytes, 1, 0, 0⟩ = { tally with
      allocBytes := cappedSum tally.allocBytes bytes
      allocs := cappedSum tally.allocs 1 } := by
  simp only [merge, cappedSum_zero]

theorem MemTally.merge_released (tally : MemTally) (bytes : UInt64) :
    tally.merge ⟨0, 0, bytes, 1⟩ = { tally with
      freeBytes := cappedSum tally.freeBytes bytes
      frees := cappedSum tally.frees 1 } := by
  simp only [merge, cappedSum_zero]

/-- Tallying an event raises counters of its kind. -/
theorem Event.raises_tally {event : Event} {counters : Counters}
    (hKind : counters.kind = event.kind) : event.Raises counters (counters.tally event) := by
  cases event with
  | allocation bytes =>
    cases counters with
    | memory gens =>
      rw [Counters.tally, MemGenerations.allocate, MemTally.merge_allocated]
      exact .allocation gens (toNat_cappedSum _ _) (toNat_cappedSum _ _)
    | blocking tally => cases hKind
  | release bytes =>
    cases counters with
    | memory gens =>
      rw [Counters.tally, MemGenerations.release, MemTally.merge_released]
      exact .release gens (toNat_cappedSum _ _) (toNat_cappedSum _ _)
    | blocking tally => cases hKind
  | blocked cycles =>
    cases counters with
    | memory gens => cases hKind
    | blocking tally => exact .blocked tally (toNat_cappedSum _ _) (toNat_cappedSum _ _)

end SiteProfiler
