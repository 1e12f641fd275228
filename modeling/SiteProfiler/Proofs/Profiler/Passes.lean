import SiteProfiler.Proofs.Profiler.Copying
import SiteProfiler.Proofs.Profiler.Sessions

/-!
# Exports in two passes

An export goes through its profile twice: once to count, and once more side by side with the
caller's buffer, writing item after item into record after record.  Nothing but the count tells the
second pass where to stop.  `Keeps` is the contract of an export with its caller, and it holds
because both passes choose the same items and because writing an item leaves nothing of a record.
-/

namespace SiteProfiler

/-- How the first pass counts: by picking items, or by looking up a number that is kept of them. -/
inductive Count (β : Type) where
  | picked (items : List β)
  | kept (number : Nat)

def Count.number {β : Type} : Count β → Nat
  | picked items => items.length
  | kept number => number

/-- How an export goes through a profile. -/
structure Passes (α β : Type) where
  first : Count β
  /-- What the second pass goes through. -/
  items : List β
  refill : α → β → α
  blank : α
  field : α → StackField
  stack : β → CallStack

/-- A stack in a field: its frames and then zeros up to the width of the field. -/
def CallStack.padded (stack : CallStack) : List Address :=
  stack.frames ++ List.replicate (maxFrames - stack.frames.length) 0

namespace Passes

variable {α β : Type}

/-- Go along records and items until either end. -/
def fillAlong (refill : α → β → α) : List α → List β → List α
  | record :: buffer, item :: items => refill record item :: fillAlong refill buffer items
  | buffer, _ => buffer

/-- The export: the second pass is made only if the buffer has room for what the first counted. -/
def run (passes : Passes α β) (buffer : List α) : Export α where
  needed := passes.first.number
  complete := passes.first.number ≤ buffer.length
  buffer :=
    if passes.first.number ≤ buffer.length then fillAlong passes.refill buffer passes.items
    else buffer

/-- The records that the items make, whatever they are written over. -/
def records (passes : Passes α β) : List α := passes.items.map (passes.refill passes.blank)

/-- What an export promises its caller. -/
structure Keeps (passes : Passes α β) (exported : List α → Export α) : Prop where
  /-- It is made in two passes. -/
  runs : ∀ buffer, exported buffer = passes.run buffer
  /-- The first picks what the second goes through, or looks up the number of it. -/
  same : passes.first = .picked passes.items ∨ passes.first = .kept passes.items.length
  /-- The count does not depend on the buffer, and whether it is complete only on its length. -/
  needed : ∀ buffer, (exported buffer).needed = passes.records.length
  complete : ∀ buffer, (exported buffer).complete = decide (passes.records.length ≤ buffer.length)
  /-- A buffer that is too short is not touched. -/
  unchanged : ∀ buffer, buffer.length < passes.records.length → (exported buffer).buffer = buffer
  /-- Otherwise the first records are overwritten and the others are not touched. -/
  written : ∀ buffer, passes.records.length ≤ buffer.length →
    (exported buffer).buffer = passes.records ++ buffer.drop passes.records.length
  /-- Of a record that is written over, nothing is left. -/
  overwritten : ∀ record, ∀ item ∈ passes.items,
    passes.refill record item = passes.refill passes.blank item
  slots : passes.records.map (fun record => (passes.field record).slots) =
    passes.items.map fun item => (passes.stack item).padded

section Sound

variable {passes : Passes α β}

theorem length_records : passes.records.length = passes.items.length := List.length_map _

/-- If writing leaves nothing of a record, the second pass puts the records in front. -/
theorem fillAlong_eq {refill : α → β → α} {blank : α} {items : List β} {buffer : List α}
    (hOver : ∀ record, ∀ item ∈ items, refill record item = refill blank item)
    (hRoom : items.length ≤ buffer.length) :
    fillAlong refill buffer items = items.map (refill blank) ++ buffer.drop items.length := by
  induction items generalizing buffer with
  | nil => cases buffer <;> rfl
  | cons item items ih =>
    cases buffer with
    | nil => exact absurd hRoom (Nat.not_succ_le_zero _)
    | cons record buffer =>
      have hMore : ∀ record, ∀ item ∈ items, refill record item = refill blank item :=
        fun record item hMem => hOver record item (List.mem_cons_of_mem _ hMem)
      rw [fillAlong, hOver record item List.mem_cons_self,
        ih hMore (Nat.le_of_succ_le_succ hRoom)]
      rfl

/-- An export of the records keeps the contract of any passes that make them. -/
theorem keeps_of {exported : List α → Export α}
    (hExport : ∀ buffer,
      exported buffer = Export.of (fun _ record => record) buffer passes.records)
    (hSame : passes.first = .picked passes.items ∨ passes.first = .kept passes.items.length)
    (hOver : ∀ record, ∀ item ∈ passes.items,
      passes.refill record item = passes.refill passes.blank item)
    (hSlots : ∀ record, ∀ item ∈ passes.items,
      (passes.field (passes.refill record item)).slots = (passes.stack item).padded) :
    passes.Keeps exported := by
  have hCounted : passes.first.number = passes.items.length := by
    rcases hSame with hPicked | hKept
    · rw [hPicked]
      rfl
    · rw [hKept]
      rfl
  have hWritten : ∀ buffer, passes.records.length ≤ buffer.length →
      (exported buffer).buffer = passes.records ++ buffer.drop passes.records.length := by
    intro buffer hRoom
    rw [hExport]
    exact copyOut_records hRoom
  have hUnchanged : ∀ buffer, buffer.length < passes.records.length →
      (exported buffer).buffer = buffer := by
    intro buffer hShort
    rw [hExport]
    exact copyOut_of_lt hShort
  have hLength : passes.records.length = passes.items.length := length_records
  constructor
  · intro buffer
    have hBuffer : (exported buffer).buffer = (passes.run buffer).buffer := by
      unfold run
      by_cases hRoom : passes.items.length ≤ buffer.length
      · rw [hWritten buffer (by omega), hLength]
        simp only [hCounted, if_pos hRoom]
        exact (fillAlong_eq hOver hRoom).symm
      · rw [hUnchanged buffer (by omega)]
        simp only [hCounted, if_neg hRoom]
    rw [hExport] at hBuffer ⊢
    simp only [Export.of, run, Export.mk.injEq] at hBuffer ⊢
    rw [hCounted] at hBuffer
    rw [hLength, hCounted]
    exact ⟨rfl, rfl, hBuffer⟩
  · exact hSame
  · intro buffer
    rw [hExport]
    rfl
  · intro buffer
    rw [hExport]
    rfl
  · exact hUnchanged
  · exact hWritten
  · exact hOver
  · unfold records
    rw [List.map_map]
    apply List.map_congr_left
    intro item hMem
    exact hSlots passes.blank item hMem

end Sound

end Passes

/-! ## The three exports -/

/-- Whether a memory profile includes a bucket. -/
def Bucket.included (includeZeroed : Bool) (bucket : Bucket) : Bool :=
  bucket.counters.memory?.any fun gens => includeZeroed || gens.inUse

/-- Write a bucket into a record; one of the other kind changes nothing. -/
def MemRecord.refill (record : MemRecord) (bucket : Bucket) : MemRecord :=
  match bucket.counters.memory? with
  | some gens => record.fill gens bucket.stack
  | none => record

def BlockRecord.refill (record : BlockRecord) (bucket : Bucket) : BlockRecord :=
  match bucket.counters.blocking? with
  | some tally => record.fill tally bucket.stack
  | none => record

namespace SiteTable

variable (table : SiteTable)

/-- The buckets that a memory profile includes, in creation order. -/
def included (includeZeroed : Bool) : List Bucket :=
  (table.iter .memory).filter (Bucket.included includeZeroed)

theorem map_memSites_included (includeZeroed : Bool) :
    ((table.memSites includeZeroed).map fun site => MemRecord.zero.fill site.1 site.2) =
      (table.included includeZeroed).map MemRecord.zero.refill := by
  unfold memSites included
  rw [List.map_filterMap, ← List.filterMap_eq_map, List.filterMap_filter]
  apply List.filterMap_congr
  intro bucket _
  cases hGens : bucket.counters.memory? with
  | none => simp [Bucket.included, hGens]
  | some gens =>
    simp only [Bucket.included, MemRecord.refill, hGens, Option.any_some, Function.comp_apply]
    split <;> rfl

variable {table}

/-- The length kept for a list is the number of buckets on it. -/
theorem Threaded.len_eq_length_iter (threaded : table.Threaded) (kind : EventKind) :
    table.len kind = (table.iter kind).length := by
  rw [threaded.len_eq, threaded.iter_eq, keys, List.countP_map, ← List.countP_eq_length_filter]
  rfl

/-- Buckets of the blocking list have blocking counters. -/
theorem Threaded.blocking? (threaded : table.Threaded) {bucket : Bucket}
    (hMem : bucket ∈ table.iter .blocking) : ∃ tally, bucket.counters.blocking? = some tally := by
  rw [threaded.iter_eq, List.mem_filter] at hMem
  obtain ⟨hBucket, hKind⟩ := hMem
  obtain ⟨id, hAt⟩ := List.mem_iff_getElem?.mp hBucket
  have hGet : table.get? id = some bucket := by
    rw [get?, ← Array.getElem?_toList]
    exact hAt
  have hTag := threaded.tagged id bucket hGet
  rw [of_decide_eq_true hKind] at hTag
  cases hCounters : bucket.counters with
  | memory gens =>
    rw [hCounters] at hTag
    cases hTag
  | blocking tally => exact ⟨tally, rfl⟩

theorem Threaded.map_blockSites_iter (threaded : table.Threaded) :
    (table.blockSites.map fun site => BlockRecord.zero.fill site.1 site.2) =
      (table.iter .blocking).map BlockRecord.zero.refill := by
  unfold blockSites
  rw [List.map_filterMap, ← List.filterMap_eq_map]
  apply List.filterMap_congr
  intro bucket hMem
  obtain ⟨tally, hTally⟩ := threaded.blocking? hMem
  simp [BlockRecord.refill, hTally]

end SiteTable

namespace Profiler

variable (profiler : Profiler)

/-- The memory profile is counted anew after a flush. -/
def memPasses (includeZeroed : Bool) : Passes MemRecord Bucket where
  first := .picked
    (if profiler.table.pristine then profiler.table.rotate.rotate.included includeZeroed
      else profiler.table.included includeZeroed)
  items := profiler.table.flush.included includeZeroed
  refill := MemRecord.refill
  blank := .zero
  field := MemRecord.field
  stack := Bucket.stack

/-- The blocking profile takes the length of the list for its count. -/
def blockPasses : Passes BlockRecord Bucket where
  first := .kept (profiler.table.len .blocking)
  items := profiler.table.iter .blocking
  refill := BlockRecord.refill
  blank := .zero
  field := BlockRecord.field
  stack := Bucket.stack

def threadPasses : Passes StackRecord Worker where
  first := .picked profiler.roster.snapshot
  items := profiler.roster.snapshot
  refill := fun record worker => record.fill worker.createStack
  blank := .zero
  field := StackRecord.field
  stack := Worker.createStack

theorem keeps_memProfile (includeZeroed : Bool) :
    (profiler.memPasses includeZeroed).Keeps fun buffer =>
      (profiler.memProfile buffer includeZeroed).1 := by
  have hFill : ∀ bucket ∈ (profiler.memPasses includeZeroed).items, ∃ gens, ∀ record,
      MemRecord.refill record bucket = record.fill gens bucket.stack := by
    intro bucket hMem
    have hIncluded := (List.mem_filter.mp hMem).2
    obtain ⟨gens, hGens, -⟩ := (Option.any_eq_true _ _).mp hIncluded
    refine ⟨gens, fun record => ?_⟩
    simp only [MemRecord.refill, hGens]
  apply Passes.keeps_of
  · intro buffer
    have hRecords := profiler.table.flush.map_memSites_included includeZeroed
    exact (Export.of_map MemRecord.overwrites buffer _).trans (congrArg _ hRecords)
  · left
    unfold memPasses SiteTable.flush
    dsimp only
    split <;> rfl
  · intro record bucket hMem
    obtain ⟨gens, hRefill⟩ := hFill bucket hMem
    change MemRecord.refill record bucket = MemRecord.refill .zero bucket
    rw [hRefill, hRefill, record.fill_eq]
  · intro record bucket hMem
    obtain ⟨gens, hRefill⟩ := hFill bucket hMem
    change (MemRecord.refill record bucket).field.slots = _
    rw [hRefill]
    exact record.field.slots_fill bucket.stack

theorem keeps_threadProfile :
    profiler.threadPasses.Keeps fun buffer => (profiler.threadProfile buffer).1 := by
  apply Passes.keeps_of
  · intro buffer
    exact Export.of_map StackRecord.overwrites buffer _
  · exact .inl rfl
  · intro record worker _
    exact record.fill_eq worker.createStack
  · intro record worker _
    exact record.field.slots_fill worker.createStack

variable {profiler}

theorem keeps_blockProfile (threaded : profiler.table.Threaded) :
    profiler.blockPasses.Keeps fun buffer => (profiler.blockProfile buffer).1 := by
  have hFill : ∀ bucket ∈ profiler.table.iter .blocking, ∃ tally, ∀ record,
      BlockRecord.refill record bucket = record.fill tally bucket.stack := by
    intro bucket hMem
    obtain ⟨tally, hTally⟩ := threaded.blocking? hMem
    refine ⟨tally, fun record => ?_⟩
    simp only [BlockRecord.refill, hTally]
  apply Passes.keeps_of
  · intro buffer
    exact (Export.of_map BlockRecord.overwrites buffer _).trans
      (congrArg _ threaded.map_blockSites_iter)
  · exact .inr (congrArg Count.kept (threaded.len_eq_length_iter .blocking))
  · intro record bucket hMem
    obtain ⟨tally, hRefill⟩ := hFill bucket hMem
    change BlockRecord.refill record bucket = BlockRecord.refill .zero bucket
    rw [hRefill, hRefill, record.fill_eq]
  · intro record bucket hMem
    obtain ⟨tally, hRefill⟩ := hFill bucket hMem
    change (BlockRecord.refill record bucket).field.slots = _
    rw [hRefill]
    exact record.field.slots_fill bucket.stack

end Profiler

/-- Whatever threads have done with a profiler, poisoned lock or not, each export counts and then
copies: what it needs does not depend on the caller's buffer, a buffer that is too short stays as
it is, and in one with room the first records are written over whole and no other is touched. -/
theorem exports_count_then_copy (settings : Settings) (inside : ThreadId → Bool)
    (requests : List (ThreadId × Request)) :
    let profiler := ((Session.ofSettings settings inside).afterAll requests).profiler
    (∀ includeZeroed, (profiler.memPasses includeZeroed).Keeps fun buffer =>
      (profiler.memProfile buffer includeZeroed).1) ∧
    (profiler.blockPasses.Keeps fun buffer => (profiler.blockProfile buffer).1) ∧
    profiler.threadPasses.Keeps fun buffer => (profiler.threadProfile buffer).1 := by
  intro profiler
  have threaded := Session.threaded_afterAll settings inside requests
  exact ⟨profiler.keeps_memProfile, Profiler.keeps_blockProfile threaded,
    profiler.keeps_threadProfile⟩

end SiteProfiler
