import Mathlib.Logic.Function.Iterate
import SiteProfiler.Proofs.Profiler.Sharing

/-!
# Profiles in the order of the sites

An export reads the sites one after the other, and whether it flushes the table first does not
depend on their order.  So two profilers that hold the same sites in different orders export the
same records, each in the order of its sites.
-/

namespace SiteProfiler

/-- What a site is found by. -/
abbrev SiteKey := EventKind × CallStack

namespace Site

/-- The record of a site in a memory profile, if it is listed there. -/
def memRecord? (includeZeroed : Bool) (site : Site) : Option MemRecord :=
  if site.kind = .memory then
    site.counters.memory?.bind fun gens =>
      if includeZeroed || gens.inUse then some (MemRecord.zero.fill gens site.stack) else none
  else none

/-- The record of a site in a blocking profile, if it is listed there. -/
def blockRecord? (site : Site) : Option BlockRecord :=
  if site.kind = .blocking then
    site.counters.blocking?.map fun tally => BlockRecord.zero.fill tally site.stack
  else none

/-- Whether a memory export may flush the table for all that this site holds. -/
def pristine (site : Site) : Bool :=
  site.kind ≠ .memory || site.counters.memory?.all MemGenerations.pristine

end Site

namespace SiteTable.Threaded

variable {table : SiteTable} (threaded : table.Threaded)
include threaded

theorem map_site_iter (kind : EventKind) :
    (table.iter kind).map Bucket.site = table.sites.filter fun site => site.kind = kind := by
  rw [threaded.iter_eq, sites, List.filter_map]
  rfl

theorem map_memSites (includeZeroed : Bool) :
    ((table.memSites includeZeroed).map fun site => MemRecord.zero.fill site.1 site.2) =
      table.sites.filterMap (Site.memRecord? includeZeroed) := by
  rw [memSites_eq_filterMap, threaded.map_site_iter, List.filterMap_filter, List.map_filterMap]
  refine List.filterMap_congr fun site _ => ?_
  simp only [Site.memRecord?, decide_eq_true_eq]
  split
  · cases site.counters.memory? with
    | none => rfl
    | some gens =>
      simp only [Option.bind_some]
      split <;> rfl
  · rfl

theorem map_blockSites :
    (table.blockSites.map fun site => BlockRecord.zero.fill site.1 site.2) =
      table.sites.filterMap Site.blockRecord? := by
  have hSites : table.blockSites = ((table.iter .blocking).map Bucket.site).filterMap fun site =>
      site.counters.blocking?.map fun tally => (tally, site.stack) := by
    rw [List.filterMap_map]
    rfl
  rw [hSites, threaded.map_site_iter, List.filterMap_filter, List.map_filterMap]
  refine List.filterMap_congr fun site _ => ?_
  simp only [Site.blockRecord?, decide_eq_true_eq]
  split
  · cases site.counters.blocking? <;> rfl
  · rfl

theorem pristine_eq : table.pristine = table.sites.all Site.pristine := by
  rw [pristine_eq_all, threaded.map_site_iter, List.all_filter]
  congr 1
  funext site
  simp only [Site.pristine, ne_eq, decide_not]

end SiteTable.Threaded

/-- The sites after a memory export, given their order. -/
def flushedSites (order : List SiteKey) (site : SiteKey → Site) : SiteKey → Site :=
  if order.all fun key => (site key).pristine then Site.rotate ∘ Site.rotate ∘ site else site

theorem flushedSites_perm {order other : List SiteKey} (hPerm : order.Perm other)
    (site : SiteKey → Site) : flushedSites order site = flushedSites other site := by
  rw [flushedSites, flushedSites, hPerm.all_eq]

/-- Exports that differ at most in the order of their records. -/
structure Export.Reorders {α : Type} (first second : Export α) : Prop where
  needed_eq : first.needed = second.needed
  complete_eq : first.complete = second.complete
  buffer_perm : first.buffer.Perm second.buffer

theorem Export.reorders_of_perm {α : Type} (buffer : List α) {records others : List α}
    (hPerm : records.Perm others) :
    (Export.of (fun _ record => record) buffer records).Reorders
      (Export.of (fun _ record => record) buffer others) where
  needed_eq := hPerm.length_eq
  complete_eq := by rw [Export.of, Export.of, hPerm.length_eq]
  buffer_perm := by
    rw [Export.of, Export.of]
    by_cases hRoom : records.length ≤ buffer.length
    · rw [copyOut_records hRoom, copyOut_records (hPerm.length_eq ▸ hRoom), hPerm.length_eq]
      exact hPerm.append_right _
    · have hShort := Nat.lt_of_not_le hRoom
      rw [copyOut_of_lt hShort, copyOut_of_lt (hPerm.length_eq ▸ hShort)]

namespace Profiler

/-- The sites of a profiler, in order. -/
structure Lists (order : List SiteKey) (site : SiteKey → Site) (profiler : Profiler) : Prop where
  threaded : profiler.table.Threaded
  sites_eq : profiler.table.sites = order.map site

/-- The profiler after some collection cycles. -/
def cycled (cycles : Nat) (profiler : Profiler) : Profiler :=
  (fun profiler => profiler.onCycle.1)^[cycles] profiler

theorem collectionCycles_cycled (cycles : Nat) (profiler : Profiler) :
    (profiler.cycled cycles).collectionCycles = profiler.collectionCycles + cycles := by
  induction cycles generalizing profiler with
  | zero => rfl
  | succ fewer ih => exact (ih profiler.onCycle.1).trans (Nat.add_right_comm _ 1 fewer)

/-- Exports whose records are found at the sites, in their order. -/
structure ExportsIn (order : List SiteKey) (memory snapshot : Bool → SiteKey → Option MemRecord)
    (block : SiteKey → Option BlockRecord) (profiler : Profiler) : Prop where
  memProfile_eq : ∀ buffer includeZeroed, (profiler.memProfile buffer includeZeroed).1 =
    .of (fun _ record => record) buffer (order.filterMap (memory includeZeroed))
  memSnapshot_eq : ∀ includeZeroed, (profiler.memSnapshot includeZeroed).1 =
    ⟨order.filterMap (snapshot includeZeroed), profiler.collectionCycles⟩
  blockProfile_eq : ∀ buffer, (profiler.blockProfile buffer).1 =
    .of (fun _ record => record) buffer (order.filterMap block)
  blockSnapshot_eq : profiler.blockSnapshot.1 = ⟨order.filterMap block⟩

/-- Exports of two profilers that differ at most in the order of their records. -/
structure Reorders (first second : Profiler) : Prop where
  memProfile : ∀ buffer includeZeroed, (first.memProfile buffer includeZeroed).1.Reorders
    (second.memProfile buffer includeZeroed).1
  memSnapshot : ∀ includeZeroed,
    (first.memSnapshot includeZeroed).1.records.Perm (second.memSnapshot includeZeroed).1.records ∧
      (first.memSnapshot includeZeroed).1.collectionCycles =
        (second.memSnapshot includeZeroed).1.collectionCycles
  blockProfile : ∀ buffer, (first.blockProfile buffer).1.Reorders (second.blockProfile buffer).1
  blockSnapshot : first.blockSnapshot.1.records.Perm second.blockSnapshot.1.records

theorem ExportsIn.reorders {order other : List SiteKey} {first second : Profiler}
    {memory snapshot : Bool → SiteKey → Option MemRecord} {block : SiteKey → Option BlockRecord}
    (hPerm : order.Perm other) (hFirst : first.ExportsIn order memory snapshot block)
    (hSecond : second.ExportsIn other memory snapshot block)
    (hCycles : first.collectionCycles = second.collectionCycles) : first.Reorders second where
  memProfile := by
    intro buffer includeZeroed
    rw [hFirst.memProfile_eq, hSecond.memProfile_eq]
    exact Export.reorders_of_perm buffer (hPerm.filterMap _)
  memSnapshot := by
    intro includeZeroed
    rw [hFirst.memSnapshot_eq, hSecond.memSnapshot_eq]
    exact ⟨hPerm.filterMap _, hCycles⟩
  blockProfile := by
    intro buffer
    rw [hFirst.blockProfile_eq, hSecond.blockProfile_eq]
    exact Export.reorders_of_perm buffer (hPerm.filterMap _)
  blockSnapshot := by
    rw [hFirst.blockSnapshot_eq, hSecond.blockSnapshot_eq]
    exact hPerm.filterMap _

namespace Lists

variable {order : List SiteKey} {site : SiteKey → Site} {profiler : Profiler}

section

variable (lists : profiler.Lists order site)
include lists

theorem rotate : profiler.rotate.Lists order (Site.rotate ∘ site) where
  threaded := lists.threaded.rotate
  sites_eq := by
    rw [Profiler.rotate, lists.threaded.sites_rotate, lists.sites_eq, List.map_map]

theorem flushed : profiler.flushed.Lists order (flushedSites order site) := by
  have hPristine : profiler.table.pristine = order.all fun key => (site key).pristine := by
    rw [lists.threaded.pristine_eq, lists.sites_eq, List.all_map]
    rfl
  have hFlushed : profiler.flushed =
      if profiler.table.pristine then profiler.rotate.rotate else profiler := by
    rw [Profiler.flushed, SiteTable.flush]
    split <;> rfl
  rw [hFlushed, flushedSites, hPristine]
  split
  · exact lists.rotate.rotate
  · exact lists

theorem memListed_eq (includeZeroed : Bool) :
    profiler.memListed includeZeroed = order.filterMap fun key =>
      (flushedSites order site key).memRecord? includeZeroed := by
  rw [memListed, lists.flushed.threaded.map_memSites, lists.flushed.sites_eq, List.filterMap_map]
  rfl

theorem blockListed_eq :
    profiler.blockListed = order.filterMap fun key => (site key).blockRecord? := by
  rw [blockListed, lists.threaded.map_blockSites, lists.sites_eq, List.filterMap_map]
  rfl

end

theorem exportsIn (lists : profiler.Lists order site)
    {snapshot : Bool → SiteKey → Option MemRecord}
    (hSnapshot : ∀ includeZeroed,
      (memRecords includeZeroed 1 [] profiler).1 = order.filterMap (snapshot includeZeroed)) :
    profiler.ExportsIn order
      (fun includeZeroed key => (flushedSites order site key).memRecord? includeZeroed) snapshot
      fun key => (site key).blockRecord? where
  memProfile_eq := by
    intro buffer includeZeroed
    rw [← lists.memListed_eq]
    exact Export.of_map MemRecord.overwrites buffer _
  memSnapshot_eq := by
    intro includeZeroed
    have hCycles := memRecords_induction
      (motive := fun later => later.collectionCycles = profiler.collectionCycles)
      (fun _ hSame => hSame) rfl includeZeroed 1 []
    simp only [memSnapshot, hSnapshot, hCycles]
  blockProfile_eq := by
    intro buffer
    rw [← lists.blockListed_eq]
    exact Export.of_map BlockRecord.overwrites buffer _
  blockSnapshot_eq := by rw [blockSnapshot_eq, lists.blockListed_eq]

theorem cycled (lists : profiler.Lists order site) (cycles : Nat) :
    (profiler.cycled cycles).Lists order (Site.rotate^[cycles] ∘ site) := by
  induction cycles generalizing profiler site with
  | zero => exact lists
  | succ fewer ih =>
    have hFirst : profiler.onCycle.1.Lists order (Site.rotate ∘ site) :=
      ⟨lists.rotate.threaded, lists.rotate.sites_eq⟩
    exact ih hFirst

end Lists

/-! ## Two orders -/

section

variable {order other : List SiteKey} (hPerm : order.Perm other)
include hPerm

theorem length_memListed_eq {first second : Profiler} {site : SiteKey → Site}
    (hFirst : first.Lists order site) (hSecond : second.Lists other site) (includeZeroed : Bool) :
    (second.memListed includeZeroed).length = (first.memListed includeZeroed).length := by
  rw [hFirst.memListed_eq, hSecond.memListed_eq, flushedSites_perm hPerm]
  exact (hPerm.filterMap _).length_eq.symm

theorem exists_memRecords_eq_of_le {first second : Profiler} {site : SiteKey → Site}
    (hFirst : first.Lists order site) (hSecond : second.Lists other site) {includeZeroed : Bool}
    {buffer : List MemRecord} (hRoom : (first.memListed includeZeroed).length ≤ buffer.length)
    (retries : Nat) :
    ∃ entry, (memRecords includeZeroed retries buffer first).1 = order.filterMap entry ∧
      (memRecords includeZeroed retries buffer second).1 = other.filterMap entry := by
  have hOther : (second.memListed includeZeroed).length ≤ buffer.length :=
    length_memListed_eq hPerm hFirst hSecond includeZeroed ▸ hRoom
  refine ⟨_, (memRecords_of_le hRoom retries).1.trans (hFirst.memListed_eq includeZeroed), ?_⟩
  rw [(memRecords_of_le hOther retries).1, hSecond.memListed_eq, flushedSites_perm hPerm]

/-- Both profilers need as many attempts at a snapshot, with buffers of the same lengths. -/
theorem exists_memRecords_eq {first second : Profiler} {site : SiteKey → Site}
    (hFirst : first.Lists order site) (hSecond : second.Lists other site) (includeZeroed : Bool)
    (retries : Nat) (buffer : List MemRecord) :
    ∃ entry, (memRecords includeZeroed retries buffer first).1 = order.filterMap entry ∧
      (memRecords includeZeroed retries buffer second).1 = other.filterMap entry := by
  induction retries generalizing first second site buffer with
  | zero =>
    have hLength := length_memListed_eq hPerm hFirst hSecond includeZeroed
    by_cases hRoom : (first.memListed includeZeroed).length ≤ buffer.length
    · exact exists_memRecords_eq_of_le hPerm hFirst hSecond hRoom 0
    · have hShort := Nat.lt_of_not_le hRoom
      refine ⟨fun _ => none, ?_, ?_⟩
      · rw [memRecords_zero_of_lt hShort, List.filterMap_none]
      · rw [memRecords_zero_of_lt (hLength ▸ hShort), List.filterMap_none]
  | succ fewer ih =>
    have hLength := length_memListed_eq hPerm hFirst hSecond includeZeroed
    by_cases hRoom : (first.memListed includeZeroed).length ≤ buffer.length
    · exact exists_memRecords_eq_of_le hPerm hFirst hSecond hRoom (fewer + 1)
    · have hShort := Nat.lt_of_not_le hRoom
      -- A buffer that is too short is not written to, so both are regrown alike.
      rw [(memRecords_of_lt hShort fewer).1, (memRecords_of_lt (hLength ▸ hShort) fewer).1, hLength]
      exact ih hFirst.flushed (flushedSites_perm hPerm site ▸ hSecond.flushed) _

theorem exists_exportsIn {first second : Profiler} {site : SiteKey → Site}
    (hFirst : first.Lists order site) (hSecond : second.Lists other site) :
    ∃ memory snapshot block, first.ExportsIn order memory snapshot block ∧
      second.ExportsIn other memory snapshot block := by
  choose snapshot hFirstSnapshot hSecondSnapshot using fun includeZeroed =>
    exists_memRecords_eq hPerm hFirst hSecond includeZeroed 1 []
  refine ⟨_, snapshot, _, hFirst.exportsIn hFirstSnapshot, ?_⟩
  rw [flushedSites_perm hPerm]
  exact hSecond.exportsIn hSecondSnapshot

end

end Profiler

end SiteProfiler
