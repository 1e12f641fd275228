import Mathlib.Data.List.Basic
import Mathlib.Data.List.Perm.Basic
import SiteProfiler.Proofs.Profile.Filling
import SiteProfiler.Proofs.Site.Generations
import SiteProfiler.Proofs.Site.Order

/-!
# The past of a profiler

The past is the list of the accepted events and of the rotations, those of collection cycles and
those forced by memory exports alike.  The age of an event is the number of rotations since.  The
past decides what a profile should show: the stacks, in the order of their first events, and for
each of them three generations, which are the capped sums over its events of age two or more, of
age one and of age zero.  The record of a stack tells the oldest of these, and its frames.
-/

namespace SiteProfiler

inductive Mark where
  | accepted (stack : CallStack) (event : Event)
  | rotation
deriving DecidableEq

/-- An accepted event with its age. -/
structure Recorded where
  stack : CallStack
  event : Event
  age : Nat

/-- Whether an event counts in the memory profile of a stack. -/
def Recorded.isMemoryOf (stack : CallStack) (entry : Recorded) : Bool :=
  entry.event.kind = .memory ∧ entry.stack = stack

namespace Mark

/-- The accepted events, each with the number of rotations after it. -/
def recorded : List Mark → List Recorded
  | [] => []
  | .accepted stack event :: rest => ⟨stack, event, rest.count .rotation⟩ :: recorded rest
  | .rotation :: rest => recorded rest

/-- The memory events at a stack that are of certain ages. -/
def memoryEvents (past : List Mark) (stack : CallStack) (ages : Nat → Bool) : List Event :=
  (((recorded past).filter (Recorded.isMemoryOf stack)).filter (ages ·.age)).map Recorded.event

/-- The distinct stacks of memory events, in the order of their first events. -/
def memoryStacks (past : List Mark) : List CallStack :=
  (((recorded past).filter fun entry => entry.event.kind = .memory).map Recorded.stack).eraseDups

/-- The capped sums over the events recorded before the last but one rotation, between the last
two rotations, and after the last rotation. -/
def generations (past : List Mark) (stack : CallStack) : MemGenerations :=
  .ofEvents (memoryEvents past stack (2 ≤ ·)) (memoryEvents past stack (· = 1))
    (memoryEvents past stack (· = 0))

/-- Whether no memory event was recorded before the last but one rotation. -/
def unsettled (past : List Mark) : Bool :=
  (recorded past).all fun entry => entry.event.kind ≠ .memory || entry.age < 2

/-- The past after a memory export: it forces two rotations exactly on an unsettled past. -/
def flushed (past : List Mark) : List Mark :=
  if unsettled past then past ++ [.rotation, .rotation] else past

/-- The stacks a memory profile lists: all, or those whose cumulative bytes allocated and freed
differ. -/
def profiled (past : List Mark) (includeZeroed : Bool) : List CallStack :=
  (memoryStacks past).filter fun stack => includeZeroed || (generations past stack).inUse

/-- The site of a stack as the past has it. -/
def site (past : List Mark) (stack : CallStack) : Site :=
  ⟨.memory, stack, .memory (generations past stack)⟩

/-- A counter as it is exported: in full, or the largest number there is. -/
def exported (count : UInt64) : Int64 := Int64.ofInt (min (count.toNat : Int) signedMax)

/-- The record of a stack: the cumulative figures that the past gives it, and its frames with zeros
up to the width of the field. -/
def record (past : List Mark) (stack : CallStack) : MemRecord where
  allocBytes := exported (generations past stack).cumulative.allocBytes
  allocObjects := exported (generations past stack).cumulative.allocs
  freeBytes := exported (generations past stack).cumulative.freeBytes
  freeObjects := exported (generations past stack).cumulative.frees
  field :=
    { slots := stack.frames ++ List.replicate (maxFrames - stack.frames.length) 0
      length_eq := by
        rw [List.length_append, List.length_replicate, Nat.add_sub_cancel' stack.length_le] }

theorem toInt_exported (count : UInt64) :
    (exported count).toInt = min (count.toNat : Int) signedMax := by
  have hNonneg : 0 ≤ (count.toNat : Int) := Int.natCast_nonneg _
  rw [exported, signedMax]
  exact Int64.toInt_ofInt_of_le (by omega) (by omega)

theorem exported_eq (count : UInt64) : exported count = signedOfCounter count := by
  have hNonneg : 0 ≤ (count.toNat : Int) := Int.natCast_nonneg _
  apply Int64.toInt_inj.mp
  rw [toInt_exported, signedOfCounter, toInt_signedOfInt, cutInt, Int.max_eq_right]
  simp only [signedMin, signedMax]
  omega

/-- Filling the record of a stack from its generations gives the record that the past gives it. -/
theorem record_eq_fill (past : List Mark) (stack : CallStack) :
    record past stack = MemRecord.zero.fill (generations past stack) stack := by
  rw [record, MemRecord.fill]
  simp only [exported_eq]
  congr 1
  apply StackField.ext
  rw [StackField.slots_fill]

theorem key_site (past : List Mark) (stack : CallStack) :
    (site past stack).key = (.memory, stack) := rfl

/-! ## One more mark -/

theorem recorded_accepted (past : List Mark) (stack : CallStack) (event : Event) :
    recorded (past ++ [.accepted stack event]) = recorded past ++ [⟨stack, event, 0⟩] := by
  induction past with
  | nil => rfl
  | cons mark rest ih =>
    cases mark with
    | accepted at_ first => simp [recorded, ih, List.count_append]
    | rotation => exact ih

theorem recorded_rotation (past : List Mark) :
    recorded (past ++ [.rotation]) =
      (recorded past).map fun entry => { entry with age := entry.age + 1 } := by
  induction past with
  | nil => rfl
  | cons mark rest ih =>
    cases mark with
    | accepted at_ first => simp [recorded, ih, List.count_append]
    | rotation => exact ih

theorem memoryEvents_accepted_self (past : List Mark) (stack : CallStack) {event : Event}
    (hMemory : event.kind = .memory) (ages : Nat → Bool) :
    memoryEvents (past ++ [.accepted stack event]) stack ages =
      memoryEvents past stack ages ++ if ages 0 then [event] else [] := by
  have hCounts : Recorded.isMemoryOf stack ⟨stack, event, 0⟩ = true := by
    simp [Recorded.isMemoryOf, hMemory]
  rw [memoryEvents, recorded_accepted, List.filter_append, List.filter_cons_of_pos hCounts,
    List.filter_nil, List.filter_append, List.map_append, ← memoryEvents, List.filter_singleton]
  cases ages 0 <;> rfl

theorem memoryEvents_accepted_other (past : List Mark) {stack other : CallStack} {event : Event}
    (hOther : event.kind ≠ .memory ∨ stack ≠ other) (ages : Nat → Bool) :
    memoryEvents (past ++ [.accepted stack event]) other ages = memoryEvents past other ages := by
  have hCounts : ¬ Recorded.isMemoryOf other ⟨stack, event, 0⟩ = true := by
    rcases hOther with hKind | hStack
    · simp [Recorded.isMemoryOf, hKind]
    · simp [Recorded.isMemoryOf, hStack]
  rw [memoryEvents, recorded_accepted, List.filter_append, List.filter_cons_of_neg hCounts,
    List.filter_nil, List.append_nil, ← memoryEvents]

theorem memoryEvents_rotation (past : List Mark) (stack : CallStack) (ages : Nat → Bool) :
    memoryEvents (past ++ [.rotation]) stack ages =
      memoryEvents past stack fun age => ages (age + 1) := by
  rw [memoryEvents, recorded_rotation, List.filter_map, List.filter_map, List.map_map]
  rfl

/-- The events of either of two ranges of ages, up to their order. -/
theorem memoryEvents_split (past : List Mark) (stack : CallStack) {ages older : Nat → Bool}
    (hOlder : ∀ age, older age = true → ages age = true) :
    (memoryEvents past stack ages).Perm
      (memoryEvents past stack older ++ memoryEvents past stack fun age =>
        ages age && !older age) := by
  have hBoth : ∀ entry : Recorded, (older entry.age && ages entry.age) = older entry.age := by
    intro entry
    cases hIs : older entry.age with
    | false => rfl
    | true => rw [hOlder _ hIs, Bool.and_true]
  rw [memoryEvents, memoryEvents, memoryEvents, ← List.map_append]
  generalize (recorded past).filter (Recorded.isMemoryOf stack) = entries
  have hSplit := List.filter_append_perm (fun entry : Recorded => older entry.age)
    (entries.filter (ages ·.age))
  simp only [List.filter_filter, hBoth, Bool.and_comm (!older _)] at hSplit
  exact hSplit.symm.map Recorded.event

theorem generations_rotation (past : List Mark) (stack : CallStack) :
    generations (past ++ [.rotation]) stack = (generations past stack).rotate := by
  have hNone : memoryEvents past stack (fun age => age + 1 = 0) = [] := by
    simp [memoryEvents]
  have hOlder : (memoryEvents past stack fun age => 2 ≤ age + 1).Perm
      (memoryEvents past stack (2 ≤ ·) ++ memoryEvents past stack (· = 1)) := by
    have hTwo : ∀ age, decide (2 ≤ age) = true → decide (2 ≤ age + 1) = true := by
      intro age hAge
      rw [decide_eq_true_eq] at hAge ⊢
      exact Nat.le_succ_of_le hAge
    have hSplit := memoryEvents_split past stack hTwo
    have hOne : (fun age : Nat => decide (2 ≤ age + 1) && !decide (2 ≤ age)) =
        fun age => decide (age = 1) := by
      funext age
      rw [Bool.eq_iff_iff]
      simp
      omega
    rwa [hOne] at hSplit
  rw [generations, generations, MemGenerations.rotate_ofEvents]
  simp only [memoryEvents_rotation, hNone, MemGenerations.ofEvents, MemTally.ofEvents_perm hOlder,
    Nat.add_eq_right]

/-- A memory event is tallied at its own stack. -/
theorem site_accepted_self (past : List Mark) (stack : CallStack) {event : Event}
    (hMemory : event.kind = .memory) :
    site (past ++ [.accepted stack event]) stack = (site past stack).tally event := by
  rw [site, generations, memoryEvents_accepted_self past stack hMemory,
    memoryEvents_accepted_self past stack hMemory, memoryEvents_accepted_self past stack hMemory,
    Site.tally, site, generations, MemGenerations.tally_ofEvents _ _ _ hMemory]
  simp

theorem site_accepted_other (past : List Mark) {stack other : CallStack} {event : Event}
    (hOther : event.kind ≠ .memory ∨ stack ≠ other) :
    site (past ++ [.accepted stack event]) other = site past other := by
  rw [site, generations, memoryEvents_accepted_other past hOther,
    memoryEvents_accepted_other past hOther, memoryEvents_accepted_other past hOther]
  rfl

theorem site_rotation (past : List Mark) (stack : CallStack) :
    site (past ++ [.rotation]) stack = (site past stack).rotate := by
  rw [site, generations_rotation]
  rfl

theorem memoryStacks_accepted (past : List Mark) (stack : CallStack) {event : Event}
    (hMemory : event.kind = .memory) :
    memoryStacks (past ++ [.accepted stack event]) =
      if stack ∈ memoryStacks past then memoryStacks past else memoryStacks past ++ [stack] := by
  rw [memoryStacks, recorded_accepted, List.filter_append,
    List.filter_cons_of_pos (by simp [hMemory]), List.filter_nil, List.map_append, List.map_cons,
    List.map_nil, eraseDups_concat]
  rfl

theorem memoryStacks_accepted_blocked (past : List Mark) (stack : CallStack) {event : Event}
    (hMemory : event.kind ≠ .memory) :
    memoryStacks (past ++ [.accepted stack event]) = memoryStacks past := by
  rw [memoryStacks, recorded_accepted, List.filter_append,
    List.filter_cons_of_neg (by simp [hMemory]), List.filter_nil, List.append_nil]
  rfl

theorem memoryStacks_rotation (past : List Mark) :
    memoryStacks (past ++ [.rotation]) = memoryStacks past := by
  rw [memoryStacks, recorded_rotation, List.filter_map, List.map_map]
  rfl

/-- A flush is two rotations, one after the other. -/
theorem flushed_eq (past : List Mark) :
    flushed past = if unsettled past then past ++ [.rotation] ++ [.rotation] else past := by
  rw [flushed, List.append_assoc, List.singleton_append]

theorem memoryStacks_flushed (past : List Mark) :
    memoryStacks (flushed past) = memoryStacks past := by
  rw [flushed_eq]
  split
  · rw [memoryStacks_rotation, memoryStacks_rotation]
  · rfl

theorem nodup_memoryStacks (past : List Mark) : (memoryStacks past).Nodup :=
  nodup_eraseDups _

theorem mem_memoryStacks {past : List Mark} {stack : CallStack} :
    stack ∈ memoryStacks past ↔ ∃ entry ∈ recorded past, entry.isMemoryOf stack = true := by
  simp only [memoryStacks, List.mem_eraseDups, List.mem_map, List.mem_filter,
    Recorded.isMemoryOf, decide_eq_true_eq, and_assoc]

/-- At a stack without memory events nothing is tallied. -/
theorem site_of_not_mem {past : List Mark} {stack : CallStack}
    (hUnseen : stack ∉ memoryStacks past) : site past stack = .fresh .memory stack := by
  have hNone : (recorded past).filter (Recorded.isMemoryOf stack) = [] :=
    List.filter_eq_nil_iff.mpr fun entry hMem hIs =>
      hUnseen (mem_memoryStacks.mpr ⟨entry, hMem, hIs⟩)
  simp only [site, generations, memoryEvents, hNone]
  rfl

/-! ## Settled and unsettled pasts -/

/-- A tally of memory events is empty only if there are none. -/
theorem pristine_iff (past : List Mark) (stack : CallStack) :
    (generations past stack).pristine = true ↔ memoryEvents past stack (2 ≤ ·) = [] := by
  have hMemory : ∀ event ∈ memoryEvents past stack (2 ≤ ·), event.kind = .memory := by
    intro event hMem
    simp only [memoryEvents, List.mem_map, List.mem_filter, Recorded.isMemoryOf,
      decide_eq_true_eq] at hMem
    obtain ⟨entry, ⟨⟨-, hKind, -⟩, -⟩, rfl⟩ := hMem
    exact hKind
  simp only [MemGenerations.pristine, generations, MemGenerations.ofEvents, MemTally.ofEvents,
    Bool.and_eq_true, decide_eq_true_eq, capped_eq_zero_iff]
  generalize memoryEvents past stack (2 ≤ ·) = events at hMemory
  cases events with
  | nil => simp
  | cons event rest =>
    have hKind := hMemory event List.mem_cons_self
    cases event with
    | allocation bytes => simp [Event.allocs]
    | release bytes => simp [Event.frees]
    | blocked cycles => cases hKind

theorem unsettled_iff (past : List Mark) :
    unsettled past = true ↔
      ∀ stack ∈ memoryStacks past, (generations past stack).pristine = true := by
  simp only [pristine_iff, memoryEvents, List.map_eq_nil_iff, List.filter_eq_nil_iff,
    List.mem_filter, unsettled, List.all_eq_true, mem_memoryStacks]
  constructor
  · rintro hYoung stack - entry ⟨hMem, hIs⟩ hOld
    have hAge := hYoung entry hMem
    simp [Recorded.isMemoryOf] at hIs hOld hAge
    rcases hAge with hKind | hAge
    · exact hKind hIs.1
    · omega
  · intro hYoung entry hMem
    by_cases hKind : entry.event.kind = .memory
    · have hIs : entry.isMemoryOf entry.stack = true := by simp [Recorded.isMemoryOf, hKind]
      have hAge := hYoung entry.stack ⟨entry, hMem, hIs⟩ entry ⟨hMem, hIs⟩
      simp at hAge ⊢
      exact .inr hAge
    · simp [hKind]

/-- Two rotations settle a past that has a memory event. -/
theorem unsettled_flushed {past : List Mark} (hSeen : memoryStacks past ≠ []) :
    unsettled (flushed past) = false := by
  rw [flushed_eq]
  split
  · obtain ⟨stack, hStack⟩ := List.exists_mem_of_ne_nil _ hSeen
    obtain ⟨entry, hMem, hIs⟩ := mem_memoryStacks.mp hStack
    rw [unsettled, recorded_rotation, recorded_rotation, List.all_eq_false]
    refine ⟨_, List.mem_map_of_mem (List.mem_map_of_mem hMem), ?_⟩
    simp only [Recorded.isMemoryOf, decide_eq_true_eq] at hIs
    simp [hIs.1]
  next hSettled => exact Bool.not_eq_true _ ▸ hSettled

end Mark

end SiteProfiler
