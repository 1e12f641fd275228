import SiteProfiler.Proofs.Profiler.Copying
import SiteProfiler.Proofs.Profiler.Past

/-!
# Profiles as functions of the past

However recordings, switches, cycles and exports follow each other, the memory buckets of a
profiler are the sites of its past: one for each stack that had an accepted memory event, in the
order of the first of them, with the generations that the past gives it.  What an export reports
then is a function of the past alone.
-/

namespace SiteProfiler

inductive ProfilerCall where
  | record (stack : CallStack) (event : Event)
  | enable
  | disable
  | cycle
  | memProfile (buffer : List MemRecord) (includeZeroed : Bool)
  | memSnapshot (includeZeroed : Bool)
  | blockProfile (buffer : List BlockRecord)
  | blockSnapshot

namespace Profiler

/-- The profiler after a call. -/
def after (profiler : Profiler) : ProfilerCall → Profiler
  | .record stack event =>
    (Caller.record stack event Caller.quiet ⟨profiler, false⟩).caller.profiler
  | .enable => profiler.enable
  | .disable => profiler.disable
  | .cycle => profiler.onCycle.1
  | .memProfile buffer includeZeroed => (profiler.memProfile buffer includeZeroed).2.1
  | .memSnapshot includeZeroed => (profiler.memSnapshot includeZeroed).2.1
  | .blockProfile _ | .blockSnapshot => profiler

def afterAll (profiler : Profiler) (calls : List ProfilerCall) : Profiler :=
  calls.foldl after profiler

end Profiler

/-- What calls on a profiler come to: whether it accepts events, and its past. -/
structure Past where
  accepting : Bool
  marks : List Mark

namespace Past

def ofSettings (settings : Settings) : Past := ⟨settings.startEnabled, []⟩

/-- The past after a call. -/
def after (past : Past) : ProfilerCall → Past
  | .record stack event =>
    if past.accepting then { past with marks := past.marks ++ [.accepted stack event] } else past
  | .enable => { past with accepting := true }
  | .disable => { past with accepting := false }
  | .cycle => { past with marks := past.marks ++ [.rotation] }
  | .memProfile _ _ | .memSnapshot _ => { past with marks := Mark.flushed past.marks }
  | .blockProfile _ | .blockSnapshot => past

def afterAll (past : Past) (calls : List ProfilerCall) : Past := calls.foldl after past

end Past

namespace SiteTable

/-- The memory sites of a table, in the order of creation. -/
def memorySites (table : SiteTable) : List Site :=
  table.sites.filter fun site => site.kind = .memory

/-- The memory buckets are the sites of the past. -/
structure Reflects (past : List Mark) (table : SiteTable) : Prop where
  threaded : table.Threaded
  memory_eq : table.memorySites = (Mark.memoryStacks past).map (Mark.site past)

/-! ## Recording -/

theorem Threaded.nodup_sites {table : SiteTable} (threaded : table.Threaded) :
    (table.sites.map Site.key).Nodup := by
  rw [map_key_sites]
  exact threaded.distinct

theorem map_of_key_not_mem {sites : List Site} {key : EventKind × CallStack}
    (hUnseen : key ∉ sites.map Site.key) (change : Site → Site) :
    (sites.map fun site => if site.key = key then change site else site) = sites := by
  have hKept : ∀ site ∈ sites, (if site.key = key then change site else site) = site := by
    intro site hMem
    apply if_neg
    rintro rfl
    exact hUnseen (List.mem_map_of_mem hMem)
  rw [List.map_congr_left hKept, List.map_id']

/-- A change at the place of a pair is a change wherever that pair stands. -/
theorem modify_idxOf_key (key : EventKind × CallStack) (change : Site → Site) :
    ∀ {sites : List Site}, (sites.map Site.key).Nodup →
      sites.modify ((sites.map Site.key).idxOf key) change =
        sites.map fun site => if site.key = key then change site else site
  | [], _ => by simp
  | site :: rest, hNodup => by
    obtain ⟨hNotMem, hRest⟩ := List.nodup_cons.mp hNodup
    have ih := modify_idxOf_key key change hRest
    by_cases hKey : site.key = key
    · have hOthers := map_of_key_not_mem (hKey ▸ hNotMem) change
      rw [List.map_cons, List.map_cons, hKey, List.idxOf_cons_self, List.modify_zero_cons,
        if_pos rfl, hOthers]
    · rw [List.map_cons, List.map_cons, List.idxOf_cons_ne _ hKey, List.modify_succ_cons, ih,
        if_neg hKey]

/-- The table after an event is recorded at a stack. -/
def record (table : SiteTable) (stack : CallStack) (event : Event) : SiteTable :=
  (table.lookup event.kind stack).table.update (table.lookup event.kind stack).id
    (Counters.tally event)

theorem Threaded.record {table : SiteTable} (threaded : table.Threaded) (stack : CallStack)
    (event : Event) : (table.record stack event).Threaded :=
  (threaded.lookup event.kind stack).tally _ event

/-- Recording tallies the event in the site of its pair, which is appended if it is new. -/
theorem Threaded.sites_record {table : SiteTable} (threaded : table.Threaded) (stack : CallStack)
    (event : Event) :
    (table.record stack event).sites =
      (if (event.kind, stack) ∈ table.keys then table.sites
        else table.sites ++ [.fresh event.kind stack]).map fun site =>
          if site.key = (event.kind, stack) then site.tally event else site := by
  have hSites : (table.lookup event.kind stack).table.sites =
      if (event.kind, stack) ∈ table.keys then table.sites
        else table.sites ++ [.fresh event.kind stack] := by
    rw [← map_key_sites]
    exact threaded.sites_call (.lookup event.kind stack)
  have hId : (table.lookup event.kind stack).id =
      ((table.lookup event.kind stack).table.sites.map Site.key).idxOf (event.kind, stack) := by
    rw [map_key_sites]
    by_cases hSeen : (event.kind, stack) ∈ table.keys
    · rw [threaded.lookup_of_mem hSeen]
    · rw [threaded.lookup_of_not_mem hSeen, threaded.keys_create,
        List.idxOf_append_of_notMem hSeen, length_keys]
      simp
  rw [SiteTable.record, sites_update, hId,
    modify_idxOf_key _ _ (threaded.lookup event.kind stack).nodup_sites, hSites]
  rfl

theorem Threaded.memorySites_record {table : SiteTable} (threaded : table.Threaded)
    (stack : CallStack) {event : Event} (hMemory : event.kind = .memory) :
    (table.record stack event).memorySites =
      (if (.memory, stack) ∈ table.keys then table.memorySites
        else table.memorySites ++ [.fresh .memory stack]).map fun site =>
          if site.key = (.memory, stack) then site.tally event else site := by
  rw [memorySites, threaded.sites_record, hMemory, List.filter_map]
  have hKind : (fun site : Site => decide (site.kind = .memory)) ∘ (fun site =>
      if site.key = (.memory, stack) then site.tally event else site) =
        fun site => decide (site.kind = .memory) := by
    funext site
    rw [Function.comp_apply]
    split <;> rfl
  rw [hKind]
  split
  · rfl
  · rw [List.filter_append]
    rfl

theorem Threaded.memorySites_record_blocked {table : SiteTable} (threaded : table.Threaded)
    (stack : CallStack) {event : Event} (hBlocked : event.kind ≠ .memory) :
    (table.record stack event).memorySites = table.memorySites := by
  have hKind : (fun site : Site => decide (site.kind = .memory)) ∘ (fun site =>
      if site.key = (event.kind, stack) then site.tally event else site) =
        fun site => decide (site.kind = .memory) := by
    funext site
    rw [Function.comp_apply]
    split <;> rfl
  have hUnseen : (event.kind, stack) ∉ table.memorySites.map Site.key := by
    intro hKey
    obtain ⟨site, hMem, hSame⟩ := List.mem_map.mp hKey
    have hMemory := of_decide_eq_true (List.mem_filter.mp hMem).2
    exact hBlocked ((Prod.mk.inj hSame).1.symm.trans hMemory)
  have hFresh : [Site.fresh event.kind stack].filter (fun site => site.kind = .memory) = [] := by
    simp [Site.fresh, hBlocked]
  rw [memorySites, threaded.sites_record, List.filter_map, hKind, apply_ite (List.filter _),
    List.filter_append, hFresh, List.append_nil, ite_self]
  exact map_of_key_not_mem hUnseen (Site.tally event)

/-! ## Exports -/

/-- A memory profile reads no more of a bucket than is seen from outside. -/
theorem memSites_eq_filterMap (table : SiteTable) (includeZeroed : Bool) :
    table.memSites includeZeroed =
      ((table.iter .memory).map Bucket.site).filterMap fun site =>
        site.counters.memory?.bind fun gens =>
          if includeZeroed || gens.inUse then some (gens, site.stack) else none := by
  rw [List.filterMap_map, memSites]
  refine List.filterMap_congr fun bucket _ => ?_
  rw [Function.comp_apply, Bucket.site]
  cases bucket.counters.memory? <;> rfl

theorem pristine_eq_all (table : SiteTable) :
    table.pristine = ((table.iter .memory).map Bucket.site).all fun site =>
      site.counters.memory?.all MemGenerations.pristine := by
  rw [List.all_map]
  rfl

namespace Reflects

variable {past : List Mark} {table : SiteTable} (reflects : table.Reflects past)
include reflects

theorem mem_keys_iff (stack : CallStack) :
    (.memory, stack) ∈ table.keys ↔ stack ∈ Mark.memoryStacks past := by
  have hStacks : ((Mark.memoryStacks past).map (Mark.site past)).map Site.stack =
      Mark.memoryStacks past := by
    rw [List.map_map]
    exact List.map_id _
  rw [← map_key_sites, ← hStacks, ← reflects.memory_eq]
  simp only [memorySites, List.mem_map, List.mem_filter, Site.key, Prod.mk.injEq,
    decide_eq_true_eq, and_assoc]

theorem record (stack : CallStack) (event : Event) :
    (table.record stack event).Reflects (past ++ [.accepted stack event]) where
  threaded := reflects.threaded.record stack event
  memory_eq := by
    by_cases hMemory : event.kind = .memory
    · have hStacks : (if (.memory, stack) ∈ table.keys then table.memorySites
          else table.memorySites ++ [.fresh .memory stack]) =
          (Mark.memoryStacks (past ++ [.accepted stack event])).map (Mark.site past) := by
        rw [Mark.memoryStacks_accepted past stack hMemory]
        by_cases hSeen : stack ∈ Mark.memoryStacks past
        · rw [if_pos hSeen, if_pos ((reflects.mem_keys_iff stack).mpr hSeen), reflects.memory_eq]
        · rw [if_neg hSeen, if_neg (mt (reflects.mem_keys_iff stack).mp hSeen),
            reflects.memory_eq, List.map_append, List.map_singleton, Mark.site_of_not_mem hSeen]
      rw [reflects.threaded.memorySites_record stack hMemory, hStacks, List.map_map]
      apply List.map_congr_left
      intro other _
      rw [Function.comp_apply, Mark.key_site]
      by_cases hOther : stack = other
      · rw [hOther, if_pos rfl, Mark.site_accepted_self past other hMemory]
      · rw [if_neg fun hKey => hOther (Prod.mk.inj hKey).2.symm,
          Mark.site_accepted_other past (.inr hOther)]
    · rw [reflects.threaded.memorySites_record_blocked stack hMemory, reflects.memory_eq,
        Mark.memoryStacks_accepted_blocked past stack hMemory]
      apply List.map_congr_left
      intro other _
      rw [Mark.site_accepted_other past (.inl hMemory)]

theorem rotate : table.rotate.Reflects (past ++ [.rotation]) where
  threaded := reflects.threaded.rotate
  memory_eq := by
    have hKind : (fun site : Site => decide (site.kind = .memory)) ∘ Site.rotate =
        fun site => decide (site.kind = .memory) := rfl
    have hSites : Site.rotate ∘ Mark.site past = Mark.site (past ++ [.rotation]) := by
      funext stack
      exact (Mark.site_rotation past stack).symm
    rw [memorySites, reflects.threaded.sites_rotate, List.filter_map, hKind, ← memorySites,
      reflects.memory_eq, List.map_map, hSites, Mark.memoryStacks_rotation]

/-- The memory buckets, as they are seen from outside. -/
theorem iter_eq : (table.iter .memory).map Bucket.site =
    (Mark.memoryStacks past).map (Mark.site past) := by
  rw [reflects.threaded.iter_eq, ← reflects.memory_eq, memorySites, sites, List.filter_map]
  rfl

/-- An export forces rotations exactly on an unsettled past. -/
theorem pristine_eq : table.pristine = Mark.unsettled past := by
  rw [pristine_eq_all, reflects.iter_eq, Bool.eq_iff_iff, Mark.unsettled_iff, List.all_map,
    List.all_eq_true]
  rfl

theorem flush : table.flush.Reflects (Mark.flushed past) := by
  rw [SiteTable.flush, Mark.flushed_eq, reflects.pristine_eq]
  split
  · exact reflects.rotate.rotate
  · exact reflects

theorem memSites_eq (includeZeroed : Bool) :
    table.memSites includeZeroed = (Mark.profiled past includeZeroed).map fun stack =>
      (Mark.generations past stack, stack) := by
  rw [memSites_eq_filterMap, reflects.iter_eq, List.filterMap_map, Mark.profiled,
    ← List.filterMap_eq_map, List.filterMap_filter]
  rfl

theorem flush_flush (hSeen : Mark.memoryStacks past ≠ []) : table.flush.flush = table.flush := by
  rw [SiteTable.flush, reflects.flush.pristine_eq, Mark.unsettled_flushed hSeen]
  rfl

end Reflects

theorem reflects_withCapacity (chains capacity : Nat) :
    (withCapacity chains capacity).Reflects [] :=
  ⟨threaded_withCapacity chains capacity, rfl⟩

end SiteTable

/-! ## Runs -/

/-- What a profile is, given the past.  A memory export reads the past with its own rotations. -/
structure Profiler.Profiles (past : List Mark) (profiler : Profiler) : Prop where
  /-- Every memory bucket has the generations of its stack. -/
  counters_eq : ∀ id bucket, profiler.table.get? id = some bucket → bucket.kind = .memory →
    bucket.counters = .memory (Mark.generations past bucket.stack)
  /-- Every stack with a memory event has one bucket, in the order of the first events. -/
  stacks_eq : (profiler.table.iter .memory).map Bucket.stack = Mark.memoryStacks past
  /-- An export rotates, twice, exactly if no memory event is two rotations old. -/
  export_rotates : ∀ buffer includeZeroed, (profiler.memProfile buffer includeZeroed).2.1 =
    if Mark.unsettled past then profiler.rotate.rotate else profiler
  /-- An export tells how many stacks it lists; it copies one record for each of them, or nothing
  if the buffer is too short. -/
  export_eq : ∀ buffer includeZeroed,
    let listed := Mark.profiled (Mark.flushed past) includeZeroed
    (profiler.memProfile buffer includeZeroed).1 =
      { needed := listed.length
        complete := listed.length ≤ buffer.length
        buffer :=
          if listed.length ≤ buffer.length then
            listed.map (Mark.record (Mark.flushed past)) ++ buffer.drop listed.length
          else buffer }
  listed_distinct : ∀ includeZeroed, (Mark.profiled (Mark.flushed past) includeZeroed).Nodup
  /-- With fully freed sites included, the list is that of all stacks. -/
  listed_all : Mark.profiled (Mark.flushed past) true = Mark.memoryStacks past
  snapshot_eq : ∀ includeZeroed, (profiler.memSnapshot includeZeroed).1.records =
    (Mark.profiled (Mark.flushed past) includeZeroed).map (Mark.record (Mark.flushed past))

namespace SiteTable.Reflects

variable {past : List Mark} {profiler : Profiler} (reflects : profiler.table.Reflects past)
include reflects

theorem memListed_eq (includeZeroed : Bool) :
    profiler.memListed includeZeroed =
      (Mark.profiled (Mark.flushed past) includeZeroed).map (Mark.record (Mark.flushed past)) := by
  have hFlush : profiler.flushed.table.Reflects (Mark.flushed past) := reflects.flush
  rw [Profiler.memListed, hFlush.memSites_eq, List.map_map]
  exact List.map_congr_left fun stack _ => (Mark.record_eq_fill _ stack).symm

theorem memProfile_eq (buffer : List MemRecord) (includeZeroed : Bool) :
    let listed := Mark.profiled (Mark.flushed past) includeZeroed
    (profiler.memProfile buffer includeZeroed).1 =
      { needed := listed.length
        complete := listed.length ≤ buffer.length
        buffer :=
          if listed.length ≤ buffer.length then
            listed.map (Mark.record (Mark.flushed past)) ++ buffer.drop listed.length
          else buffer } := by
  intro listed
  have hFlush : profiler.table.flush.Reflects (Mark.flushed past) := reflects.flush
  have hLength : (profiler.table.flush.memSites includeZeroed).length = listed.length := by
    rw [hFlush.memSites_eq, List.length_map]
  rw [Profiler.memProfile, Export.of]
  simp only [hLength]
  congr 1
  split
  next hRoom =>
    have hRecords : ((fun site => MemRecord.zero.fill site.1 site.2) ∘ fun stack =>
        (Mark.generations (Mark.flushed past) stack, stack)) = Mark.record (Mark.flushed past) :=
      funext fun stack => (Mark.record_eq_fill _ stack).symm
    rw [copyOut_of_le MemRecord.overwrites (hLength ▸ hRoom), hFlush.memSites_eq, List.map_map,
      List.length_map, hRecords]
  next hShort => exact copyOut_of_lt (hLength ▸ Nat.lt_of_not_le hShort)

theorem flushed_flushed {includeZeroed : Bool} (hListed : profiler.memListed includeZeroed ≠ []) :
    profiler.flushed.flushed = profiler.flushed := by
  have hSeen : Mark.memoryStacks past ≠ [] := by
    intro hNone
    apply hListed
    rw [reflects.memListed_eq, Mark.profiled, Mark.memoryStacks_flushed, hNone]
    rfl
  have hFlush := reflects.flush_flush hSeen
  rw [Profiler.flushed, Profiler.flushed, hFlush]

/-- A table that reflects the past shows the profiles of the past. -/
theorem profiles : profiler.Profiles past where
  counters_eq := by
    intro id bucket hGet hKind
    have hMem : bucket.site ∈ profiler.table.memorySites :=
      List.mem_filter.mpr ⟨List.mem_of_getElem? (i := id) (by rw [sites_getElem?, hGet]; rfl),
        decide_eq_true hKind⟩
    rw [reflects.memory_eq] at hMem
    obtain ⟨stack, -, hSite⟩ := List.mem_map.mp hMem
    obtain ⟨-, hStack, hCounters⟩ := Site.mk.inj hSite
    rw [← hStack, ← hCounters]
  stacks_eq := by
    have hStacks := congrArg (List.map Site.stack) reflects.iter_eq
    rw [List.map_map, List.map_map] at hStacks
    exact hStacks.trans (List.map_id _)
  export_rotates := by
    intro buffer includeZeroed
    rw [← reflects.pristine_eq]
    simp only [Profiler.memProfile, SiteTable.flush, Profiler.rotate]
    split <;> rfl
  export_eq := reflects.memProfile_eq
  listed_distinct := fun includeZeroed => (Mark.nodup_memoryStacks _).filter _
  listed_all := by
    rw [Mark.profiled, Mark.memoryStacks_flushed]
    exact List.filter_true _
  snapshot_eq := by
    intro includeZeroed
    rw [(Profiler.memSnapshot_eq includeZeroed reflects.flushed_flushed).1, reflects.memListed_eq]

end SiteTable.Reflects

namespace Profiler

/-- Nothing happens while a new bucket is announced. -/
theorem tallyAt_quiet (caller : Caller) (stack : CallStack) (event : Event) :
    ∃ journal, Caller.tallyAt stack event Caller.quiet caller =
      ⟨.returned (),
        { caller with
          profiler := { caller.profiler with table := caller.profiler.table.record stack event } },
        journal⟩ := by
  simp only [Caller.tallyAt, Caller.quiet]
  cases (caller.profiler.table.lookup event.kind stack).created with
  | false => exact ⟨_, rfl⟩
  | true => exact ⟨_, rfl⟩

theorem after_record (profiler : Profiler) (stack : CallStack) (event : Event) :
    profiler.after (.record stack event) =
      if profiler.enabled then { profiler with table := profiler.table.record stack event }
      else profiler := by
  obtain ⟨journal, hTally⟩ := tallyAt_quiet ⟨profiler, true⟩ stack event
  rw [after, Caller.record]
  split
  · simp only [Caller.guarded, Caller.hold, hTally, Outcome.map, Bool.false_eq_true, if_false]
  · rfl

/-- The profiler accepts events as its past says, and its table reflects that past. -/
structure Remembers (past : Past) (profiler : Profiler) : Prop where
  enabled_eq : profiler.enabled = past.accepting
  reflects : profiler.table.Reflects past.marks

theorem Remembers.after {past : Past} {profiler : Profiler} (remembers : profiler.Remembers past)
    (call : ProfilerCall) : (profiler.after call).Remembers (past.after call) := by
  have hEnabled := remembers.enabled_eq
  have hReflects := remembers.reflects
  cases call with
  | record stack event =>
    rw [after_record, Past.after, hEnabled]
    split
    · exact ⟨rfl, hReflects.record stack event⟩
    · exact remembers
  | enable => exact ⟨rfl, hReflects⟩
  | disable => exact ⟨rfl, hReflects⟩
  | cycle => exact ⟨hEnabled, hReflects.rotate⟩
  | memProfile buffer includeZeroed => exact ⟨hEnabled, hReflects.flush⟩
  | memSnapshot includeZeroed =>
    have hAfter : profiler.after (.memSnapshot includeZeroed) = profiler.flushed :=
      (memSnapshot_eq includeZeroed hReflects.flushed_flushed).2
    rw [hAfter]
    exact ⟨hEnabled, hReflects.flush⟩
  | blockProfile buffer => exact remembers
  | blockSnapshot => exact remembers

theorem Remembers.afterAll {past : Past} {profiler : Profiler}
    (remembers : profiler.Remembers past) (calls : List ProfilerCall) :
    (profiler.afterAll calls).Remembers (past.afterAll calls) := by
  induction calls generalizing past profiler with
  | nil => exact remembers
  | cons call rest ih => exact ih (remembers.after call)

theorem remembers_ofSettings (settings : Settings) :
    (ofSettings settings).Remembers (.ofSettings settings) :=
  ⟨rfl, SiteTable.reflects_withCapacity settings.hashChains settings.bucketCapacity⟩

/-- After any run, what memory profiles show is a function of the past alone. -/
theorem profiles_afterAll (settings : Settings) (calls : List ProfilerCall) :
    ((ofSettings settings).afterAll calls).Profiles
      ((Past.ofSettings settings).afterAll calls).marks :=
  ((remembers_ofSettings settings).afterAll calls).reflects.profiles

end Profiler

end SiteProfiler
