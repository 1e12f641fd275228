import SiteProfiler.Proofs.Profiler.Passes
import SiteProfiler.Proofs.Site.Conservation

/-!
# Exports that have no effects

A memory export of a table in which nothing has been folded into the cumulative generations rotates
it twice first, whether or not it goes on to copy anything.  After two rotations all that a site
ever counted is cumulative, so a third changes nothing: an export that comes later and rotates
again, because the table still looks as if nothing had been folded, is free of effects too.  No
rotation changes what the three generations of a site add up to.
-/

namespace SiteProfiler

/-! ## Rotating again -/

/-- What counters of either kind add up to. -/
def Counters.total : Counters → MemTally ⊕ BlockTally
  | memory gens => .inl gens.total
  | blocking tally => .inr tally

theorem Counters.total_rotate (counters : Counters) : counters.rotate.total = counters.total := by
  cases counters with
  | memory gens => exact congrArg Sum.inl gens.total_rotate
  | blocking tally => rfl

theorem Counters.rotate_rotate_rotate (counters : Counters) :
    counters.rotate.rotate.rotate = counters.rotate.rotate := by
  cases counters with
  | memory gens => exact congrArg memory gens.rotate_rotate_rotate
  | blocking tally => rfl

namespace Bucket

def rotate (bucket : Bucket) : Bucket := { bucket with counters := bucket.counters.rotate }

theorem rotate_rotate_rotate (bucket : Bucket) :
    bucket.rotate.rotate.rotate = bucket.rotate.rotate := by
  unfold rotate
  rw [bucket.counters.rotate_rotate_rotate]

end Bucket

namespace SiteTable

/-- The sites, oldest first, with what the counters of each add up to. -/
def totals (table : SiteTable) : List ((EventKind × CallStack) × (MemTally ⊕ BlockTally)) :=
  table.buckets.toList.map fun bucket => (bucket.key, bucket.counters.total)

theorem frame_foldl_update (ids : List BucketId) (change : Counters → Counters)
    (table : SiteTable) :
    let updated := ids.foldl (fun updated id => updated.update id change) table
    updated.chains = table.chains ∧ updated.memory = table.memory ∧
      updated.blocking = table.blocking := by
  induction ids generalizing table with
  | nil => exact ⟨rfl, rfl, rfl⟩
  | cons id rest ih => exact ih (table.update id change)

namespace Threaded

variable {table : SiteTable} (threaded : table.Threaded)
include threaded

/-- A rotation goes through all the buckets and touches nothing else. -/
theorem rotate_eq :
    table.rotate = { table with buckets := table.buckets.map Bucket.rotate } := by
  have hBuckets : table.rotate.buckets = table.buckets.map Bucket.rotate := by
    apply Array.ext_getElem?
    intro id
    rw [Array.getElem?_map]
    exact threaded.get?_rotate id
  obtain ⟨hChains, hMemory, hBlocking⟩ :=
    frame_foldl_update (table.ids .memory) Counters.rotate table
  calc table.rotate
      = ⟨table.rotate.buckets, table.rotate.chains, table.rotate.memory,
          table.rotate.blocking⟩ := rfl
    _ = { table with buckets := table.buckets.map Bucket.rotate } := by
      rw [hBuckets, show table.rotate.chains = table.chains from hChains,
        show table.rotate.memory = table.memory from hMemory,
        show table.rotate.blocking = table.blocking from hBlocking]

theorem rotate_rotate_rotate : table.rotate.rotate.rotate = table.rotate.rotate := by
  have hOnce := threaded.rotate
  have hTwice := hOnce.rotate
  have hBuckets : Bucket.rotate ∘ Bucket.rotate ∘ Bucket.rotate = Bucket.rotate ∘ Bucket.rotate :=
    funext Bucket.rotate_rotate_rotate
  rw [hTwice.rotate_eq, hOnce.rotate_eq, threaded.rotate_eq]
  simp only [Array.map_map, hBuckets]

theorem totals_rotate : table.rotate.totals = table.totals := by
  rw [threaded.rotate_eq]
  unfold totals
  rw [Array.toList_map, List.map_map]
  apply List.map_congr_left
  intro bucket _
  exact congrArg (Prod.mk bucket.key) bucket.counters.total_rotate

/-! ## Flushing again -/

/-- The second flush finds all that was counted folded, or nothing to fold. -/
theorem flush_flush : table.flush.flush = table.flush := by
  unfold SiteTable.flush
  by_cases hPristine : table.pristine = true
  · rw [if_pos hPristine, threaded.rotate_rotate_rotate, threaded.rotate_rotate_rotate]
    exact ite_self _
  · rw [if_neg hPristine, if_neg hPristine]

theorem totals_flush : table.flush.totals = table.totals := by
  unfold SiteTable.flush
  split
  · rw [threaded.rotate.totals_rotate, threaded.totals_rotate]
  · rfl

end Threaded

theorem flush_of_not_pristine {table : SiteTable} (hPristine : table.pristine = false) :
    table.flush = table := by
  unfold flush
  rw [hPristine]
  rfl

end SiteTable

/-! ## Calls that read the memory profile -/

/-- Whether a call exports the memory profile. -/
def Service.readsMemory : Service → Bool
  | .memProfile _ _ | .memSnapshot _ => true
  | _ => false

/-- Whether a call ends a collection cycle. -/
def Service.cycles : Service → Bool
  | .cycle => true
  | _ => false

namespace Profiler

/-- The profiler after calls that record nothing. -/
def served (profiler : Profiler) (services : List Service) : Profiler :=
  services.foldl (fun reached service => (reached.serve service).2.1) profiler

section Tables

theorem exported_memProfile (profiler : Profiler) (buffer : List MemRecord)
    (includeZeroed : Bool) : (profiler.memProfile buffer includeZeroed).2.1 = profiler.flushed :=
  rfl

theorem needed_memProfile (profiler : Profiler) (buffer : List MemRecord) (includeZeroed : Bool) :
    (profiler.memProfile buffer includeZeroed).1.needed =
      (profiler.memListed includeZeroed).length := by
  simp only [memProfile, memListed, flushed, Export.of, List.length_map]

theorem complete_memProfile (profiler : Profiler) (buffer : List MemRecord)
    (includeZeroed : Bool) : (profiler.memProfile buffer includeZeroed).1.complete =
      decide ((profiler.memListed includeZeroed).length ≤ buffer.length) := by
  simp only [memProfile, memListed, flushed, Export.of, List.length_map]

theorem serve_memSnapshot (profiler : Profiler) (includeZeroed : Bool) :
    (profiler.serve (.memSnapshot includeZeroed)).2.1 =
      (profiler.memSnapshot includeZeroed).2.1 := by
  simp only [serve]

variable {profiler later : Profiler} {includeZeroed : Bool}

/-- What is listed depends on the table only as flushed. -/
theorem memListed_congr (hFlush : later.table.flush = profiler.table.flush)
    (includeZeroed : Bool) : later.memListed includeZeroed = profiler.memListed includeZeroed := by
  unfold memListed flushed
  rw [hFlush]

variable (threaded : profiler.table.Threaded)
include threaded

theorem flushed_flushed_of_threaded : profiler.flushed.flushed = profiler.flushed := by
  unfold flushed
  rw [threaded.flush_flush]

theorem memSnapshot_of_threaded (includeZeroed : Bool) :
    (profiler.memSnapshot includeZeroed).1 =
        ⟨profiler.memListed includeZeroed, profiler.collectionCycles⟩ ∧
      (profiler.memSnapshot includeZeroed).2.1 = profiler.flushed :=
  memSnapshot_eq includeZeroed fun _ => flushed_flushed_of_threaded threaded

/-- A call that reads the memory profile leaves the flushed profiler. -/
theorem serve_of_readsMemory {service : Service} (hReads : service.readsMemory = true) :
    (profiler.serve service).2.1 = profiler.flushed := by
  cases service with
  | memProfile buffer includeZeroed => rfl
  | memSnapshot includeZeroed =>
    rw [serve_memSnapshot]
    exact (memSnapshot_of_threaded threaded includeZeroed).2
  | _ => cases hReads

/-- Other calls leave the table as it is, but for those that end a cycle. -/
theorem table_serve {service : Service} (hCycles : service.cycles = false) :
    (profiler.serve service).2.1.table = profiler.table ∨
      (profiler.serve service).2.1.table = profiler.table.flush := by
  cases service with
  | memProfile buffer includeZeroed => exact .inr rfl
  | memSnapshot includeZeroed =>
    right
    rw [serve_memSnapshot, (memSnapshot_of_threaded threaded includeZeroed).2]
    rfl
  | cycle => cases hCycles
  | _ => exact .inl rfl

theorem totals_serve (service : Service) :
    (profiler.serve service).2.1.table.totals = profiler.table.totals := by
  cases hCycles : service.cycles with
  | true =>
    cases service with
    | cycle => exact threaded.totals_rotate
    | _ => cases hCycles
  | false =>
    rcases table_serve threaded hCycles with hSame | hFlush
    · rw [hSame]
    · rw [hFlush, threaded.totals_flush]

/-- A table that a flush leaves as it is stays as it is until a cycle ends. -/
theorem table_served (hFlush : profiler.table.flush = profiler.table) {services : List Service}
    (hCycles : ∀ service ∈ services, service.cycles = false) :
    (profiler.served services).table = profiler.table := by
  induction services generalizing profiler with
  | nil => rfl
  | cons service rest ih =>
    have hTable : (profiler.serve service).2.1.table = profiler.table := by
      rcases table_serve threaded (hCycles service List.mem_cons_self) with hSame | hFlushed
      · exact hSame
      · exact hFlushed.trans hFlush
    have hRest : ∀ service ∈ rest, service.cycles = false :=
      fun service hMem => hCycles service (List.mem_cons_of_mem _ hMem)
    exact (ih (hTable ▸ threaded) (by rw [hTable, hFlush]) hRest).trans hTable

end Tables

/-- Memory exports of a profiler have no effects beyond the first, and none at all on what the
generations add up to. -/
structure Repeats (profiler : Profiler) : Prop where
  /-- After an export the table stays as it is, until an event or a cycle. -/
  still : ∀ buffer includeZeroed services, (∀ service ∈ services, service.cycles = false) →
    let first := (profiler.memProfile buffer includeZeroed).2.1
    (first.served services).table = first.table
  /-- Later exports need as many records as the first would have, into whatever buffers, and if
  complete have the same. -/
  same : ∀ buffer includeZeroed services, (∀ service ∈ services, service.cycles = false) →
    let later := (profiler.memProfile buffer includeZeroed).2.1.served services
    ∀ other another again, (later.memProfile another again).1.needed =
        (profiler.memProfile other again).1.needed ∧
      ((profiler.memProfile other again).1.complete = true →
        ((later.memProfile another again).1.complete = true →
          (later.memProfile another again).1.buffer.take (later.memProfile another again).1.needed =
            (profiler.memProfile other again).1.buffer.take
              (profiler.memProfile other again).1.needed) ∧
        (later.memSnapshot again).1.records = (profiler.memProfile other again).1.buffer.take
          (profiler.memProfile other again).1.needed)
  /-- If something was folded already, the first changes nothing either. -/
  first : profiler.table.pristine = false → ∀ service : Service, service.readsMemory = true →
    (profiler.serve service).2.1 = profiler
  /-- No call but a recording changes what the generations of any site add up to. -/
  totals : ∀ service, (profiler.serve service).2.1.table.totals = profiler.table.totals

/-- The leading records of a complete export are the listing. -/
theorem take_memProfile {profiler : Profiler} {buffer : List MemRecord} {includeZeroed : Bool}
    (hComplete : (profiler.memProfile buffer includeZeroed).1.complete = true) :
    (profiler.memProfile buffer includeZeroed).1.buffer.take
      (profiler.memProfile buffer includeZeroed).1.needed = profiler.memListed includeZeroed := by
  have hAttempt : (profiler.attemptMem buffer includeZeroed).1 =
      .done ((profiler.memProfile buffer includeZeroed).1.buffer.take
        (profiler.memProfile buffer includeZeroed).1.needed) := attempt_of_complete hComplete
  have hRoom : (profiler.memListed includeZeroed).length ≤ buffer.length := by
    rw [complete_memProfile] at hComplete
    exact of_decide_eq_true hComplete
  rw [attemptMem_of_le hRoom] at hAttempt
  exact (Attempt.done.inj hAttempt).symm

/-- The table of the flushed profiler stays as it is. -/
theorem table_served_flushed {profiler : Profiler} (threaded : profiler.table.Threaded)
    {services : List Service} (hCycles : ∀ service ∈ services, service.cycles = false) :
    (profiler.flushed.served services).table = profiler.table.flush := by
  have hFlush : profiler.flushed.table.flush = profiler.flushed.table := threaded.flush_flush
  exact table_served (threaded_flushed threaded) hFlush hCycles

theorem repeats {profiler : Profiler} (threaded : profiler.table.Threaded) : profiler.Repeats where
  still := by
    intro buffer includeZeroed services hCycles
    rw [exported_memProfile]
    exact table_served_flushed threaded hCycles
  same := by
    intro buffer includeZeroed services hCycles later other another again
    have hTable : later.table = profiler.table.flush := table_served_flushed threaded hCycles
    have hFlush : later.table.flush = profiler.table.flush := by
      rw [hTable, threaded.flush_flush]
    have hListed := memListed_congr hFlush again
    have hThreaded : later.table.Threaded := hTable ▸ threaded.flush
    constructor
    · rw [needed_memProfile, needed_memProfile, hListed]
    · intro hComplete
      rw [take_memProfile hComplete]
      constructor
      · intro hLater
        rw [take_memProfile hLater, hListed]
      · rw [(memSnapshot_of_threaded hThreaded again).1, hListed]
  first := by
    intro hPristine service hReads
    rw [serve_of_readsMemory threaded hReads, flushed,
      SiteTable.flush_of_not_pristine hPristine]
  totals := totals_serve threaded

end Profiler

/-- Whatever threads have done with a profiler, repeating a memory export is free of effects. -/
theorem memory_exports_repeat (settings : Settings) (inside : ThreadId → Bool)
    (requests : List (ThreadId × Request)) :
    ((Session.ofSettings settings inside).afterAll requests).profiler.Repeats :=
  Profiler.repeats (Session.threaded_afterAll settings inside requests)

end SiteProfiler
