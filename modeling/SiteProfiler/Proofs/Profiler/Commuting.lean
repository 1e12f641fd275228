import Mathlib.Data.List.Count
import SiteProfiler.Proofs.Profiler.Listing
import SiteProfiler.Proofs.Profiler.Sessions

/-!
# The order of recordings

Recordings commute at every site, since a counter is a sum that is cut at the end of its range.  So
what threads record comes to the same sites in whatever order they get hold of the table; only the
order of the sites tells in which order their first events came.
-/

namespace SiteProfiler

/-! ## Tallies commute -/

theorem cappedSum_right_comm (a b c : UInt64) :
    cappedSum (cappedSum a b) c = cappedSum (cappedSum a c) b := by
  apply UInt64.toNat_inj.mp
  simp only [toNat_cappedSum]
  omega

theorem MemTally.merge_right_comm (tally first second : MemTally) :
    (tally.merge first).merge second = (tally.merge second).merge first := by
  simp only [merge, cappedSum_right_comm]

theorem Counters.tally_comm (first second : Event) (counters : Counters) :
    Counters.tally second (Counters.tally first counters) =
      Counters.tally first (Counters.tally second counters) := by
  cases counters with
  | memory gens =>
    cases first <;> cases second <;>
      simp only [Counters.tally, MemGenerations.allocate, MemGenerations.release,
        gens.recent.merge_right_comm]
  | blocking tally =>
    cases first <;> cases second <;>
      simp only [Counters.tally, BlockTally.block, cappedSum_right_comm]

namespace Site

/-- A site after some events. -/
def tallyAll (site : Site) (events : List Event) : Site :=
  events.foldl (fun site event => site.tally event) site

theorem key_tallyAll (site : Site) (events : List Event) :
    (site.tallyAll events).key = site.key := by
  induction events generalizing site with
  | nil => rfl
  | cons event rest ih => exact ih (site.tally event)

theorem tallyAll_perm (site : Site) {events others : List Event} (hPerm : events.Perm others) :
    site.tallyAll events = site.tallyAll others := by
  have hComm : RightCommutative fun (site : Site) (event : Event) => site.tally event :=
    ⟨fun site first second =>
      congrArg (Site.mk site.kind site.stack) (Counters.tally_comm first second site.counters)⟩
  exact hPerm.foldl_eq site

end Site

/-- An event that reaches the table, and its stack. -/
abbrev Arrival := CallStack × Event

def Arrival.key (arrival : Arrival) : SiteKey := (arrival.2.kind, arrival.1)

namespace SiteTable

/-- The table after some arrivals. -/
def recordAll (table : SiteTable) (arrivals : List Arrival) : SiteTable :=
  arrivals.foldl (fun table arrival => table.record arrival.1 arrival.2) table

/-- The order of the sites after some arrivals: new sites follow in the order of their first
events. -/
def orderAfter (table : SiteTable) (arrivals : List Arrival) : List SiteKey :=
  (table.keys ++ arrivals.map Arrival.key).eraseDups

/-- The site of a key; a fresh one if there is none. -/
def siteAt (table : SiteTable) (key : SiteKey) : Site :=
  (table.sites.find? fun site => site.key = key).getD (.fresh key.1 key.2)

/-- The site of a key after some arrivals: it tallies those that have its key. -/
def siteAfter (table : SiteTable) (arrivals : List Arrival) (key : SiteKey) : Site :=
  (table.siteAt key).tallyAll ((arrivals.filter fun arrival => arrival.key = key).map Prod.snd)

/-! ## One table -/

theorem key_siteAt (table : SiteTable) (key : SiteKey) : (table.siteAt key).key = key := by
  rw [siteAt]
  cases hFound : table.sites.find? fun site => site.key = key with
  | none => rfl
  | some site =>
    have hKey := List.find?_some hFound
    exact of_decide_eq_true hKey

theorem key_siteAfter (table : SiteTable) (arrivals : List Arrival) (key : SiteKey) :
    (table.siteAfter arrivals key).key = key :=
  (Site.key_tallyAll _ _).trans (table.key_siteAt key)

theorem siteAt_of_not_mem {table : SiteTable} {key : SiteKey} (hUnseen : key ∉ table.keys) :
    table.siteAt key = .fresh key.1 key.2 := by
  have hNone : (table.sites.find? fun site => site.key = key) = none := by
    rw [List.find?_eq_none]
    intro site hMem hKey
    rw [← map_key_sites] at hUnseen
    exact hUnseen (of_decide_eq_true hKey ▸ List.mem_map_of_mem hMem)
  rw [siteAt, hNone]
  rfl

/-- Of sites with distinct keys, each is found by its own. -/
theorem find?_key {sites : List Site} (hNodup : (sites.map Site.key).Nodup) {site : Site}
    (hMem : site ∈ sites) : (sites.find? fun other => other.key = site.key) = some site := by
  induction sites with
  | nil => cases hMem
  | cons first rest ih =>
    obtain ⟨hNotMem, hRest⟩ := List.nodup_cons.mp hNodup
    rcases List.mem_cons.mp hMem with rfl | hLater
    · simp only [List.find?_cons, decide_true]
    · have hOther : ¬ first.key = site.key := fun hKey =>
        hNotMem (hKey ▸ List.mem_map_of_mem hLater)
      rw [List.find?_cons_of_neg (by simpa using hOther)]
      exact ih hRest hLater

theorem nodup_orderAfter (table : SiteTable) (arrivals : List Arrival) :
    (table.orderAfter arrivals).Nodup :=
  nodup_eraseDups _

theorem orderAfter_concat (table : SiteTable) (arrivals : List Arrival) (last : Arrival) :
    table.orderAfter (arrivals ++ [last]) =
      if last.key ∈ table.orderAfter arrivals then table.orderAfter arrivals
      else table.orderAfter arrivals ++ [last.key] := by
  rw [orderAfter, List.map_append, List.map_singleton, ← List.append_assoc, eraseDups_concat]
  rfl

theorem siteAfter_concat_self (table : SiteTable) (arrivals : List Arrival) (last : Arrival) :
    table.siteAfter (arrivals ++ [last]) last.key =
      (table.siteAfter arrivals last.key).tally last.2 := by
  have hCounts : [last].filter (fun arrival => arrival.key = last.key) = [last] := by
    simp only [List.filter_singleton, decide_true, cond_true]
  rw [siteAfter, siteAfter, List.filter_append, hCounts, List.map_append, Site.tallyAll,
    List.foldl_append]
  rfl

theorem siteAfter_concat_other (table : SiteTable) (arrivals : List Arrival) {last : Arrival}
    {key : SiteKey} (hOther : last.key ≠ key) :
    table.siteAfter (arrivals ++ [last]) key = table.siteAfter arrivals key := by
  have hCounts : [last].filter (fun arrival => arrival.key = key) = [] := by
    simp [hOther]
  rw [siteAfter, siteAfter, List.filter_append, hCounts, List.append_nil]

/-- At a key that no arrival has, there is a site only if there was one. -/
theorem siteAfter_of_not_mem {table : SiteTable} {arrivals : List Arrival} {key : SiteKey}
    (hUnseen : key ∉ table.orderAfter arrivals) :
    table.siteAfter arrivals key = .fresh key.1 key.2 := by
  simp only [orderAfter, List.mem_eraseDups, List.mem_append, not_or, List.mem_map,
    not_exists, not_and] at hUnseen
  obtain ⟨hTable, hArrivals⟩ := hUnseen
  have hNone : arrivals.filter (fun arrival => arrival.key = key) = [] :=
    List.filter_eq_nil_iff.mpr fun arrival hMem hKey =>
      hArrivals arrival hMem (of_decide_eq_true hKey)
  rw [siteAfter, hNone, siteAt_of_not_mem hTable]
  rfl

theorem recordAll_concat (table : SiteTable) (arrivals : List Arrival) (last : Arrival) :
    table.recordAll (arrivals ++ [last]) = (table.recordAll arrivals).record last.1 last.2 := by
  rw [recordAll, List.foldl_append]
  rfl

theorem Threaded.recordAll {table : SiteTable} (threaded : table.Threaded)
    (arrivals : List Arrival) : (table.recordAll arrivals).Threaded := by
  induction arrivals generalizing table with
  | nil => exact threaded
  | cons arrival rest ih => exact ih (threaded.record arrival.1 arrival.2)

theorem Threaded.sites_eq_map {table : SiteTable} (threaded : table.Threaded) :
    table.sites = table.keys.map table.siteAt := by
  have hFound : ∀ site ∈ table.sites, table.siteAt site.key = site := by
    intro site hMem
    rw [siteAt, find?_key threaded.nodup_sites hMem]
    rfl
  rw [← map_key_sites, List.map_map]
  exact ((List.map_congr_left hFound).trans (List.map_id' _)).symm

/-- After some arrivals, each site has tallied those of its key. -/
theorem Threaded.sites_recordAll {table : SiteTable} (threaded : table.Threaded)
    (arrivals : List Arrival) :
    (table.recordAll arrivals).sites =
      (table.orderAfter arrivals).map (table.siteAfter arrivals) := by
  induction arrivals using List.reverseRecOn with
  | nil =>
    rw [orderAfter, List.map_nil, List.append_nil, eraseDups_of_nodup threaded.distinct]
    exact threaded.sites_eq_map
  | append_singleton front last ih =>
    have hKeys : (table.recordAll front).keys = table.orderAfter front := by
      rw [← map_key_sites, ih, List.map_map]
      exact (List.map_congr_left fun key _ => table.key_siteAfter front key).trans (List.map_id' _)
    -- New or not, the site of the last arrival is as the arrivals before it leave it.
    have hLinked : (if last.key ∈ table.orderAfter front then
          (table.orderAfter front).map (table.siteAfter front)
        else (table.orderAfter front).map (table.siteAfter front) ++
          [.fresh last.key.1 last.key.2]) =
        (table.orderAfter (front ++ [last])).map (table.siteAfter front) := by
      rw [orderAfter_concat]
      split
      · rfl
      next hUnseen => rw [List.map_append, List.map_singleton, siteAfter_of_not_mem hUnseen]
    have hSites := (threaded.recordAll front).sites_record last.1 last.2
    rw [hKeys, ih] at hSites
    rw [recordAll_concat, hSites]
    refine (congrArg _ hLinked).trans ?_
    rw [List.map_map]
    refine List.map_congr_left fun key _ => ?_
    rw [Function.comp_apply, key_siteAfter]
    split
    next hKey =>
      subst hKey
      exact (table.siteAfter_concat_self front last).symm
    next hOther => exact (table.siteAfter_concat_other front (Ne.symm hOther)).symm

/-- The order of arrivals shows only in the order of the sites. -/
theorem siteAfter_perm (table : SiteTable) {arrivals others : List Arrival}
    (hPerm : arrivals.Perm others) : table.siteAfter arrivals = table.siteAfter others := by
  funext key
  exact Site.tallyAll_perm _ ((hPerm.filter _).map _)

theorem orderAfter_perm (table : SiteTable) {arrivals others : List Arrival}
    (hPerm : arrivals.Perm others) :
    (table.orderAfter arrivals).Perm (table.orderAfter others) := by
  rw [List.perm_ext_iff_of_nodup (table.nodup_orderAfter _) (table.nodup_orderAfter _)]
  intro key
  simp only [orderAfter, List.mem_eraseDups, List.mem_append, (hPerm.map Arrival.key).mem_iff]

end SiteTable

/-! ## Many threads -/

/-- A recording of a thread: where the event comes from, and the event. -/
abbrev Recording := Origin × Event

/-- An order of recordings in which each thread makes those of its list one after the other. -/
def Interleaves (lists : ThreadId → List Recording) (order : List (ThreadId × Recording)) : Prop :=
  ∀ thread, order.filter (·.1 = thread) = (lists thread).map (Prod.mk thread)

/-- Interleavings of the same lists are orders of the same recordings. -/
theorem Interleaves.perm {lists : ThreadId → List Recording}
    {first second : List (ThreadId × Recording)} (hFirst : Interleaves lists first)
    (hSecond : Interleaves lists second) : first.Perm second := by
  rw [List.perm_iff_count]
  intro recording
  have hCount {order : List (ThreadId × Recording)} (hOrder : Interleaves lists order) :
      order.count recording =
        ((lists recording.1).map (Prod.mk recording.1)).count recording := by
    rw [← hOrder, List.count_filter (by simp)]
  rw [hCount hFirst, hCount hSecond]

namespace Session

/-- The session after some recordings. -/
def recordAll (session : Session) (recordings : List (ThreadId × Recording)) : Session :=
  session.afterAll (recordings.map fun (thread, origin, event) =>
    (thread, .act (.record origin event) 0 {}))

/-- The recordings that reach the table: those of threads outside the profiler, while recording is
on. -/
def arrivals (session : Session) (recordings : List (ThreadId × Recording)) : List Arrival :=
  recordings.filterMap fun (thread, origin, event) =>
    if session.profiler.enabled && !session.inside thread then
      some (session.profiler.siteOf origin, event)
    else none

/-- How many recordings are dropped: those of threads inside the profiler, while recording is on. -/
def drops (session : Session) (recordings : List (ThreadId × Recording)) : Nat :=
  recordings.countP fun recording => session.profiler.enabled && session.inside recording.1

theorem after_recording (session : Session) (thread : ThreadId) (origin : Origin) (event : Event) :
    session.after thread (.act (.record origin event) 0 {}) =
      { session with
        profiler :=
          if session.profiler.enabled then
            if session.inside thread then session.profiler.countDropped
            else
              { session.profiler with
                table := session.profiler.table.record (session.profiler.siteOf origin) event }
          else session.profiler } := by
  have hWhole : session.cutsShort thread (.act (.record origin event) 0 {}) = false := by
    simp only [cutsShort, Profiler.cutShort, Bool.and_false]
  obtain ⟨journal, hReply⟩ := session.reply_record thread origin event 0 {}
  have hRecorded := session.profiler.recorded_of (session.profiler.siteOf origin) event []
  rw [Profiler.afterNested_nil, ite_self] at hRecorded
  rw [after, hReply, hWhole]
  simp only [Outcome.unwinds, Bool.or_false, Bool.false_eq_true, if_false, Caller.recordedBy,
    Function.update_eq_self]
  split
  · split
    · rfl
    · exact congrArg (fun profiler => { session with profiler := profiler }) hRecorded
  · rfl

theorem recordAll_concat (session : Session) (recordings : List (ThreadId × Recording))
    (last : ThreadId × Recording) :
    session.recordAll (recordings ++ [last]) =
      (session.recordAll recordings).after last.1 (.act (.record last.2.1 last.2.2) 0 {}) := by
  rw [recordAll, List.map_append, afterAll_append]
  rfl

theorem arrivals_concat (session : Session) (recordings : List (ThreadId × Recording))
    (thread : ThreadId) (origin : Origin) (event : Event) :
    session.arrivals (recordings ++ [(thread, origin, event)]) =
      session.arrivals recordings ++ if session.profiler.enabled && !session.inside thread then
        [(session.profiler.siteOf origin, event)] else [] := by
  rw [arrivals, List.filterMap_append, ← arrivals, List.filterMap_cons, List.filterMap_nil]
  congr 1
  cases hArrives : session.profiler.enabled && !session.inside thread with
  | false => simp only [hArrives, Bool.false_eq_true, if_false]
  | true => simp only [hArrives, if_true]

theorem drops_concat (session : Session) (recordings : List (ThreadId × Recording))
    (thread : ThreadId) (origin : Origin) (event : Event) :
    session.drops (recordings ++ [(thread, origin, event)]) =
      session.drops recordings +
        if session.profiler.enabled && session.inside thread then 1 else 0 := by
  rw [drops, List.countP_append, ← drops, List.countP_singleton]

/-- Recordings change the table and the count of drops. -/
theorem recordAll_eq (session : Session) (recordings : List (ThreadId × Recording)) :
    session.recordAll recordings =
      { session with
        profiler := { session.profiler.countDrops (session.drops recordings) with
          table := session.profiler.table.recordAll (session.arrivals recordings) } } := by
  induction recordings using List.reverseRecOn with
  | nil => rfl
  | append_singleton front last ih =>
    obtain ⟨thread, origin, event⟩ := last
    rw [recordAll_concat, ih, after_recording, arrivals_concat, drops_concat]
    cases hEnabled : session.profiler.enabled with
    | false => simp [Profiler.countDrops, hEnabled]
    | true =>
      cases hInside : session.inside thread with
      | true => simp [Profiler.countDrops, Profiler.countDropped, hEnabled, Nat.add_assoc]
      | false =>
        have hSite : ({ session.profiler.countDrops (session.drops front) with
            table := session.profiler.table.recordAll (session.arrivals front) } : Profiler).siteOf
              origin = session.profiler.siteOf origin := by
          cases origin <;> rfl
        rw [hSite]
        simp [Profiler.countDrops, SiteTable.recordAll_concat, hEnabled]

theorem lists_recordAll {session : Session} (threaded : session.profiler.table.Threaded)
    (recordings : List (ThreadId × Recording)) :
    (session.recordAll recordings).profiler.Lists
      (session.profiler.table.orderAfter (session.arrivals recordings))
      (session.profiler.table.siteAfter (session.arrivals recordings)) := by
  rw [recordAll_eq]
  exact ⟨threaded.recordAll _, threaded.sites_recordAll _⟩

/-- From any state that a session can reach, two interleavings of what the threads record leave the
same sites with the same counters, those that are new in the order of their first events, and
nothing else that differs.  After any number of cycles the exports have the same records; they are
found site by site in the same way, each list in the order of its sites. -/
theorem interleavings_agree (settings : Settings) (inside : ThreadId → Bool)
    (requests : List (ThreadId × Request)) {lists : ThreadId → List Recording}
    {first second : List (ThreadId × Recording)} (hFirst : Interleaves lists first)
    (hSecond : Interleaves lists second) :
    let start := (ofSettings settings inside).afterAll requests
    let order (recordings : List (ThreadId × Recording)) :=
      start.profiler.table.orderAfter (start.arrivals recordings)
    let one := start.recordAll first
    let other := start.recordAll second
    (order first).Nodup ∧ (order first).Perm (order second) ∧
    other = { one with profiler := { one.profiler with table := other.profiler.table } } ∧
    (∃ site : SiteKey → Site, (∀ key, (site key).key = key) ∧
      one.profiler.table.sites = (order first).map site ∧
      other.profiler.table.sites = (order second).map site) ∧
    ∀ cycles, (one.profiler.cycled cycles).Reorders (other.profiler.cycled cycles) ∧
      ∃ memory snapshot block,
        (one.profiler.cycled cycles).ExportsIn (order first) memory snapshot block ∧
        (other.profiler.cycled cycles).ExportsIn (order second) memory snapshot block := by
  intro start order one other
  have threaded : start.profiler.table.Threaded := threaded_afterAll settings inside requests
  have hPerm : first.Perm second := hFirst.perm hSecond
  have hArrivals : (start.arrivals first).Perm (start.arrivals second) := hPerm.filterMap _
  have hOrder : (order first).Perm (order second) :=
    start.profiler.table.orderAfter_perm hArrivals
  have hOne := lists_recordAll threaded first
  have hOther := lists_recordAll threaded second
  rw [← start.profiler.table.siteAfter_perm hArrivals] at hOther
  have hRest : other = { one with profiler := { one.profiler with
      table := other.profiler.table } } := by
    simp only [other, one, recordAll_eq, drops, hPerm.countP_eq]
  refine ⟨start.profiler.table.nodup_orderAfter _, hOrder, hRest,
    ⟨_, start.profiler.table.key_siteAfter _, hOne.sites_eq, hOther.sites_eq⟩, fun cycles => ?_⟩
  have hCycles : (one.profiler.cycled cycles).collectionCycles =
      (other.profiler.cycled cycles).collectionCycles := by
    rw [Profiler.collectionCycles_cycled, Profiler.collectionCycles_cycled, hRest]
  obtain ⟨memory, snapshot, block, hOneExports, hOtherExports⟩ :=
    Profiler.exists_exportsIn hOrder (hOne.cycled cycles) (hOther.cycled cycles)
  exact ⟨hOneExports.reorders hOrder hOtherExports hCycles, memory, snapshot, block, hOneExports,
    hOtherExports⟩

/-- Two threads that meet at two stacks, where a counter is cut at its end. -/
def meetingLists (thread : ThreadId) : List Recording :=
  if thread = 1 then
    [(.stack (.ofAddresses [7]), .allocation 0xffffffffffffffff),
      (.stack (.ofAddresses [5]), .release 1)]
  else if thread = 2 then
    [(.stack (.ofAddresses [5]), .allocation 3), (.here [7], .allocation 2)]
  else []

def oneByOne : List (ThreadId × Recording) :=
  (meetingLists 1).map (Prod.mk 1) ++ (meetingLists 2).map (Prod.mk 2)

def alternating : List (ThreadId × Recording) :=
  [(2, (.stack (.ofAddresses [5]), .allocation 3)),
    (1, (.stack (.ofAddresses [7]), .allocation 0xffffffffffffffff)),
    (2, (.here [7], .allocation 2)),
    (1, (.stack (.ofAddresses [5]), .release 1))]

/-- The sites come in the other order, and the profiles are the same but for that. -/
theorem interleavings_agree_meeting :
    let start := (ofSettings { hashChains := 1 } fun _ => false).afterAll []
    let one := start.recordAll oneByOne
    let other := start.recordAll alternating
    Interleaves meetingLists oneByOne ∧ Interleaves meetingLists alternating ∧
    one.profiler.table.keys.reverse = other.profiler.table.keys ∧
    one.profiler.table.keys ≠ other.profiler.table.keys ∧
    (one.profiler.cycled 2).Reorders (other.profiler.cycled 2) := by
  have hFirst : Interleaves meetingLists oneByOne := by
    intro thread
    by_cases hOne : thread = 1
    · subst hOne
      rfl
    · by_cases hTwo : thread = 2
      · subst hTwo
        rfl
      · simp [oneByOne, meetingLists, hOne, hTwo, Ne.symm hOne, Ne.symm hTwo]
  have hSecond : Interleaves meetingLists alternating := by
    intro thread
    by_cases hOne : thread = 1
    · subst hOne
      rfl
    · by_cases hTwo : thread = 2
      · subst hTwo
        rfl
      · simp [alternating, meetingLists, hOne, hTwo, Ne.symm hOne, Ne.symm hTwo]
  exact ⟨hFirst, hSecond, by decide, by decide,
    ((interleavings_agree { hashChains := 1 } (fun _ => false) [] hFirst hSecond).2.2.2.2 2).1⟩

end Session

end SiteProfiler
