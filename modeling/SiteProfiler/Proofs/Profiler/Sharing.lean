import Mathlib.Logic.Function.Basic
import SiteProfiler.Pause.Safepoint
import SiteProfiler.Proofs.Profiler.Nesting

/-!
# Threads that share a profiler

Clones of a profiler share one table, and every thread has its own mark.  The table is locked from
the look-up of a bucket to its tally, so recordings follow each other, whichever threads make them;
but between the capture of a stack and its recording the other threads may take turns.  Each event
raises the counters of one site, is counted as dropped or, while recording is off, is ignored, and
what is nested in a recording can as well come after it: without its recordings, the table is the
same.
-/

namespace SiteProfiler

/-- Work on a profiler that records no event.  Exports that only read are left out. -/
inductive Upkeep where
  | cycle
  | memProfile (buffer : List MemRecord) (includeZeroed : Bool)
  | memSnapshot (includeZeroed : Bool)
  | registerWorker (createStack : CallStack)

/-- What a thread does at its turn. -/
inductive Turn where
  /-- An action, with what is nested in it if it creates a bucket. -/
  | act (action : Action) (nested : List Action)
  /-- The first stage of recording an event where the given walk of the stack started. -/
  | capture (walk : List Address) (event : Event)
  /-- The second stage. -/
  | tally (nested : List Action)
  /-- The thread enters or leaves the profiler through another call than a recording. -/
  | mark (inside : Bool)
  | upkeep (work : Upkeep)

namespace Turn

/-- Whether a turn is the second stage of a recording. -/
def tallies : Turn → Bool
  | tally _ => true
  | _ => false

/-- The actions nested in a turn. -/
def nested : Turn → List Action
  | act _ nested | tally nested => nested
  | _ => []

/-- The turn with nothing nested in it. -/
def bare : Turn → Turn
  | act action _ => .act action []
  | tally _ => .tally []
  | turn => turn

theorem nested_bare (turn : Turn) : turn.bare.nested = [] := by
  cases turn <;> rfl

end Turn

/-- The plan of a thread that does some actions when its bucket is announced. -/
def AtCreation.of (nested : List Action) : AtCreation := { actions := nested }

def Profiler.upkeep (profiler : Profiler) : Upkeep → Profiler
  | .cycle => profiler.onCycle.1
  | .memProfile buffer includeZeroed => (profiler.memProfile buffer includeZeroed).2.1
  | .memSnapshot includeZeroed => (profiler.memSnapshot includeZeroed).2.1
  | .registerWorker createStack => (profiler.registerWorker createStack).2

/-- A shared profiler and where the threads stand. -/
structure Crew where
  profiler : Profiler
  inside : ThreadId → Bool
  /-- A stack that a thread has captured, and the event it is about to record there. -/
  captured : ThreadId → Option (CallStack × Event)

namespace Crew

/-- A new profiler; some threads may be inside a profiler already. -/
def ofSettings (settings : Settings) (inside : ThreadId → Bool) : Crew :=
  ⟨.ofSettings settings, inside, fun _ => none⟩

/-- The profiler as a thread finds it. -/
def caller (crew : Crew) (thread : ThreadId) : Caller := ⟨crew.profiler, crew.inside thread⟩

/-- What a call of a thread leaves behind. -/
def putBack (crew : Crew) (thread : ThreadId) (caller : Caller) : Crew :=
  { crew with
    profiler := caller.profiler
    inside := Function.update crew.inside thread caller.inside }

def setCaptured (crew : Crew) (thread : ThreadId) (captured : Option (CallStack × Event)) : Crew :=
  { crew with captured := Function.update crew.captured thread captured }

def countDrops (crew : Crew) (count : Nat) : Crew :=
  { crew with profiler := crew.profiler.countDrops count }

/-- The crew after a turn of a thread. -/
def after (crew : Crew) (thread : ThreadId) : Turn → Crew
  | .act action nested =>
    crew.putBack thread (Caller.act action (AtCreation.of nested).run (crew.caller thread)).caller
  | .capture walk event =>
    let reply := Caller.captureHere walk (crew.caller thread)
    (crew.putBack thread reply.caller).setCaptured thread <|
      match reply.outcome with
      | .returned (some stack) => some (stack, event)
      | _ => none
  | .tally nested =>
    match crew.captured thread with
    | some (stack, event) =>
      (crew.putBack thread
        (Caller.record stack event (AtCreation.of nested).run
          (crew.caller thread)).caller).setCaptured thread none
    | none => crew
  | .mark inside => { crew with inside := Function.update crew.inside thread inside }
  | .upkeep work => { crew with profiler := crew.profiler.upkeep work }

def afterAll (crew : Crew) (turns : List (ThreadId × Turn)) : Crew :=
  turns.foldl (fun crew turn => crew.after turn.1 turn.2) crew

/-! ## Runs -/

/-- Which turns may be taken. -/
structure Admits (crew : Crew) (thread : ThreadId) (turn : Turn) : Prop where
  /-- A thread that has captured a stack goes on to record there. -/
  stages : (crew.captured thread).isSome = turn.tallies
  /-- No thread switches recording while another is in the middle of a recording. -/
  steady : (crew.after thread turn).profiler.enabled = crew.profiler.enabled ∨
    ∀ other, other ≠ thread → crew.captured other = none

/-- Every turn may be taken. -/
def Undisturbed (crew : Crew) : List (ThreadId × Turn) → Prop
  | [] => True
  | (thread, turn) :: rest => crew.Admits thread turn ∧ (crew.after thread turn).Undisturbed rest

/-! ## What becomes of an event -/

/-- An event raises the counters of the one site of its kind and stack, which is appended if it is
new, and leaves every other site as it is; what is nested happens only with a new site, and of that
only switches take effect and drops are counted. -/
structure Tallied (profiler : Profiler) (stack : CallStack) (event : Event) (nested : List Action)
    (next : Profiler) : Prop where
  raises_seen : (event.kind, stack) ∈ profiler.table.keys → ∃ before after,
    ⟨event.kind, stack, before⟩ ∈ profiler.table.sites ∧ event.Raises before after ∧
      next.table.sites = profiler.table.sites.map fun site =>
        if site.key = (event.kind, stack) then ⟨event.kind, stack, after⟩ else site
  raises_new : (event.kind, stack) ∉ profiler.table.keys → ∃ after,
    event.Raises (.untallied event.kind) after ∧
      next.table.sites = profiler.table.sites ++ [⟨event.kind, stack, after⟩]
  nodup : (next.table.sites.map Site.key).Nodup
  /-- Every site counts events of its kind. -/
  kinds : ∀ site ∈ next.table.sites, site.counters.kind = site.kind
  of_seen : (event.kind, stack) ∈ profiler.table.keys →
    next = { profiler with table := next.table }
  of_new : (event.kind, stack) ∉ profiler.table.keys →
    next = { profiler.afterNested nested with table := next.table }

/-- What a thread's recording makes of an event. -/
structure Accounts (crew : Crew) (thread : ThreadId) (stack : CallStack) (event : Event)
    (nested : List Action) (next : Crew) : Prop where
  of_disabled : crew.profiler.enabled = false → next = crew
  of_inside : crew.profiler.enabled = true → crew.inside thread = true → next = crew.countDrops 1
  of_outside : crew.profiler.enabled = true → crew.inside thread = false →
    ∃ profiler, next = { crew with profiler := profiler } ∧
      Tallied crew.profiler stack event nested profiler

/-- What a turn makes of the events it handles. -/
def Settles (crew : Crew) (thread : ThreadId) : Turn → Prop
  | .act (.record origin event) nested =>
    crew.Accounts thread (crew.profiler.siteOf origin) event nested
      (crew.after thread (.act (.record origin event) nested))
  | .capture walk event =>
    let next := crew.after thread (.capture walk event)
    (crew.profiler.enabled = false → next = crew) ∧
      (crew.profiler.enabled = true → crew.inside thread = true → next = crew.countDrops 1) ∧
      (crew.profiler.enabled = true → crew.inside thread = false →
        next = crew.setCaptured thread (some (crew.profiler.collector.capture walk, event)))
  | .tally nested =>
    -- Neither stage drops what the other has accepted.
    crew.profiler.enabled = true ∧ crew.inside thread = false ∧
      ∃ stack event, crew.captured thread = some (stack, event) ∧
        (crew.setCaptured thread none).Accounts thread stack event nested
          (crew.after thread (.tally nested))
  | turn => (crew.after thread turn).profiler.droppedEvents = crew.profiler.droppedEvents

/-! ## Runs without nesting -/

/-- Whether a turn of a thread creates a bucket. -/
def announces (crew : Crew) (thread : ThreadId) : Turn → Bool
  | .act (.record origin event) _ =>
    crew.profiler.enabled && !crew.inside thread &&
      crew.profiler.creates (crew.profiler.siteOf origin) event
  | .tally _ =>
    crew.profiler.enabled && !crew.inside thread &&
      (crew.captured thread).any fun site => crew.profiler.creates site.1 site.2
  | _ => false

/-- The nested actions that happen in a turn. -/
def happening (crew : Crew) (thread : ThreadId) (turn : Turn) : List Action :=
  if crew.announces thread turn then turn.nested else []

/-- A turn, and after it the switches that are nested in it. -/
def unnest (crew : Crew) (thread : ThreadId) (turn : Turn) : List (ThreadId × Turn) :=
  (thread, turn.bare) ::
    ((crew.happening thread turn).filter Action.isSwitch).map fun action => (thread, .act action [])

/-- A run with the nested recordings left out and each nested switch made after the recording it
is nested in. -/
def unnestAll (crew : Crew) : List (ThreadId × Turn) → List (ThreadId × Turn)
  | [] => []
  | (thread, turn) :: rest =>
    crew.unnest thread turn ++ (crew.after thread turn).unnestAll rest

/-- How many events are dropped in the nested recordings of a run. -/
def nestedDrops (crew : Crew) : List (ThreadId × Turn) → Nat
  | [] => 0
  | (thread, turn) :: rest =>
    Action.attempts crew.profiler.enabled (crew.happening thread turn) +
      (crew.after thread turn).nestedDrops rest

end Crew

/-! ## Upkeep -/

theorem SiteTable.Threaded.flush {table : SiteTable} (threaded : table.Threaded) :
    table.flush.Threaded := by
  unfold SiteTable.flush
  split
  · exact threaded.rotate.rotate
  · exact threaded

namespace Profiler

theorem attemptMem_countDrops (profiler : Profiler) (count : Nat) (buffer : List MemRecord)
    (includeZeroed : Bool) :
    (profiler.countDrops count).attemptMem buffer includeZeroed =
      ((profiler.attemptMem buffer includeZeroed).1,
        (profiler.attemptMem buffer includeZeroed).2.1.countDrops count,
        (profiler.attemptMem buffer includeZeroed).2.2) := rfl

/-- How often a snapshot is attempted does not depend on the events dropped. -/
theorem memRecords_countDrops (profiler : Profiler) (count : Nat) (includeZeroed : Bool)
    (retries : Nat) (buffer : List MemRecord) :
    (memRecords includeZeroed retries buffer (profiler.countDrops count)).2.1 =
      (memRecords includeZeroed retries buffer profiler).2.1.countDrops count := by
  induction retries generalizing buffer profiler with
  | zero =>
    rw [memRecords, memRecords, attemptMem_countDrops]
    obtain ⟨records | longer, exported, journal⟩ := profiler.attemptMem buffer includeZeroed
    · rfl
    · rfl
  | succ left ih =>
    rw [memRecords, memRecords, attemptMem_countDrops]
    obtain ⟨records | longer, exported, journal⟩ := profiler.attemptMem buffer includeZeroed
    · rfl
    · simp only [ih exported longer]

/-- A snapshot leaves a profiler that was flushed some number of times. -/
theorem memRecords_induction {motive : Profiler → Prop}
    (hFlush : ∀ profiler, motive profiler → motive profiler.flushed) {profiler : Profiler}
    (hMotive : motive profiler) (includeZeroed : Bool) (retries : Nat) (buffer : List MemRecord) :
    motive (memRecords includeZeroed retries buffer profiler).2.1 := by
  have hExported : motive (profiler.attemptMem buffer includeZeroed).2.1 := hFlush profiler hMotive
  induction retries generalizing buffer profiler with
  | zero =>
    rw [memRecords]
    split
    next hAttempt =>
      rw [hAttempt] at hExported
      exact hExported
    next hAttempt =>
      rw [hAttempt] at hExported
      exact hExported
  | succ left ih =>
    rw [memRecords]
    split
    next hAttempt =>
      rw [hAttempt] at hExported
      exact hExported
    next longer exported journal hAttempt =>
      rw [hAttempt] at hExported
      simp only
      exact ih hExported longer (hFlush exported hExported)

theorem upkeep_memSnapshot (profiler : Profiler) (includeZeroed : Bool) :
    profiler.upkeep (.memSnapshot includeZeroed) =
      (memRecords includeZeroed 1 [] profiler).2.1 := by
  rw [upkeep, memSnapshot]

theorem upkeep_countDrops (profiler : Profiler) (count : Nat) (work : Upkeep) :
    (profiler.countDrops count).upkeep work = (profiler.upkeep work).countDrops count := by
  cases work with
  | memSnapshot includeZeroed =>
    rw [upkeep_memSnapshot, upkeep_memSnapshot, memRecords_countDrops]
  | _ => rfl

theorem upkeep_frame (profiler : Profiler) (work : Upkeep) :
    (profiler.upkeep work).enabled = profiler.enabled ∧
      (profiler.upkeep work).droppedEvents = profiler.droppedEvents := by
  cases work with
  | memSnapshot includeZeroed =>
    rw [upkeep_memSnapshot]
    exact memRecords_induction
      (motive := fun later => later.enabled = profiler.enabled ∧
        later.droppedEvents = profiler.droppedEvents)
      (fun _ hFrame => hFrame) ⟨rfl, rfl⟩ includeZeroed 1 []
  | _ => exact ⟨rfl, rfl⟩

theorem threaded_flushed {profiler : Profiler} (threaded : profiler.table.Threaded) :
    profiler.flushed.table.Threaded :=
  threaded.flush

theorem threaded_upkeep {profiler : Profiler} (threaded : profiler.table.Threaded)
    (work : Upkeep) : (profiler.upkeep work).table.Threaded := by
  cases work with
  | cycle => exact threaded.rotate
  | memProfile buffer includeZeroed => exact threaded_flushed threaded
  | memSnapshot includeZeroed =>
    rw [upkeep_memSnapshot]
    exact memRecords_induction (motive := fun later => later.table.Threaded)
      (fun _ => threaded_flushed) threaded includeZeroed 1 []
  | registerWorker createStack => exact threaded

/-! ## One recording -/

theorem countDrops_comm (profiler : Profiler) (count other : Nat) :
    (profiler.countDrops count).countDrops other =
      (profiler.countDrops other).countDrops count := by
  rw [countDrops, countDrops, countDrops, countDrops, Nat.add_right_comm]

theorem afterNested_nil (profiler : Profiler) : profiler.afterNested [] = profiler := rfl

theorem afterNested_countDrops (profiler : Profiler) (count : Nat) (actions : List Action) :
    (profiler.countDrops count).afterNested actions =
      (profiler.afterNested actions).countDrops count :=
  congrArg (fun counted : Profiler =>
      { counted with enabled := Action.switched profiler.enabled actions })
    (profiler.countDrops_comm count (Action.attempts profiler.enabled actions))

/-- Only the switches among nested actions matter, but for the count of drops. -/
theorem afterNested_eq_filter (profiler : Profiler) (actions : List Action) :
    profiler.afterNested actions =
      (profiler.afterNested (actions.filter Action.isSwitch)).countDrops
        (Action.attempts profiler.enabled actions) := by
  simp only [afterNested, countDrops, Action.switched_filter_isSwitch,
    Action.attempts_filter_isSwitch, Nat.add_zero]

theorem recorded_countDrops (profiler : Profiler) (count : Nat) (stack : CallStack)
    (event : Event) (plan : AtCreation) :
    (profiler.countDrops count).recorded stack event plan =
      (profiler.recorded stack event plan).countDrops count := by
  have hCreates : (profiler.countDrops count).creates stack event =
      profiler.creates stack event := rfl
  simp only [recorded, hCreates, afterNested_countDrops]
  split
  · rfl
  · rfl

theorem recorded_of (profiler : Profiler) (stack : CallStack) (event : Event)
    (nested : List Action) :
    profiler.recorded stack event (.of nested) =
      { (if profiler.creates stack event then profiler.afterNested nested else profiler) with
        table := profiler.table.record stack event } := by
  have hEnds : profiler.cutShort stack event (.of nested) = false := Bool.and_false _
  simp only [recorded, hEnds]
  rfl

end Profiler

namespace SiteTable

/-- A change of the sites with the key of a site is a change of that one. -/
theorem map_of_key {sites : List Site} (hNodup : (sites.map Site.key).Nodup) {site : Site}
    (hMem : site ∈ sites) (change : Site → Site) :
    (sites.map fun other => if other.key = site.key then change other else other) =
      sites.map fun other => if other.key = site.key then change site else other := by
  apply List.map_congr_left
  intro other hOther
  by_cases hKey : other.key = site.key
  · rw [List.inj_on_of_nodup_map hNodup hOther hMem hKey]
  · rw [if_neg hKey, if_neg hKey]

/-- Every site counts events of its kind. -/
theorem Threaded.kind_counters {table : SiteTable} (threaded : table.Threaded) {site : Site}
    (hMem : site ∈ table.sites) : site.counters.kind = site.kind := by
  rw [sites, List.mem_map] at hMem
  obtain ⟨bucket, hBucket, rfl⟩ := hMem
  obtain ⟨id, hGet⟩ := List.getElem?_of_mem hBucket
  exact threaded.tagged id bucket (by rwa [Array.getElem?_toList] at hGet)

/-- Recording an event at a pair that was seen before raises the counters of its site. -/
theorem Threaded.raises_seen {table : SiteTable} (threaded : table.Threaded) {stack : CallStack}
    {event : Event} (hSeen : (event.kind, stack) ∈ table.keys) :
    ∃ before after, ⟨event.kind, stack, before⟩ ∈ table.sites ∧ event.Raises before after ∧
      (table.record stack event).sites = table.sites.map fun site =>
        if site.key = (event.kind, stack) then ⟨event.kind, stack, after⟩ else site := by
  have hKeys := hSeen
  rw [← map_key_sites, List.mem_map] at hKeys
  obtain ⟨⟨kind, at_, before⟩, hMem, hKey⟩ := hKeys
  obtain ⟨rfl, rfl⟩ := Prod.mk.inj hKey
  refine ⟨before, before.tally event, hMem, Event.raises_tally (threaded.kind_counters hMem), ?_⟩
  rw [threaded.sites_record, if_pos hSeen]
  exact map_of_key threaded.nodup_sites hMem (Site.tally event)

/-- Recording an event at a new pair appends its site, raised from nothing. -/
theorem Threaded.raises_new {table : SiteTable} (threaded : table.Threaded) {stack : CallStack}
    {event : Event} (hNew : (event.kind, stack) ∉ table.keys) :
    ∃ after, event.Raises (.untallied event.kind) after ∧
      (table.record stack event).sites = table.sites ++ [⟨event.kind, stack, after⟩] := by
  have hKind : (Counters.untallied event.kind).kind = event.kind := by
    cases event <;> rfl
  refine ⟨(Counters.untallied event.kind).tally event, Event.raises_tally hKind, ?_⟩
  have hKept := map_of_key_not_mem (map_key_sites table ▸ hNew) (Site.tally event)
  rw [threaded.sites_record, if_neg hNew, List.map_append, hKept, List.map_singleton,
    Counters.untallied_eq_zero]
  exact congrArg (fun site => table.sites ++ [site]) (if_pos rfl)

end SiteTable

theorem SiteTable.Threaded.creates_iff {profiler : Profiler} (threaded : profiler.table.Threaded)
    (stack : CallStack) (event : Event) :
    profiler.creates stack event = true ↔ (event.kind, stack) ∉ profiler.table.keys := by
  rw [Profiler.creates]
  by_cases hSeen : (event.kind, stack) ∈ profiler.table.keys
  · simp [threaded.lookup_of_mem hSeen, hSeen]
  · simp [threaded.lookup_of_not_mem hSeen, hSeen]

namespace Crew

theorem tallied_recorded {profiler : Profiler} (threaded : profiler.table.Threaded)
    (stack : CallStack) (event : Event) (nested : List Action) :
    Tallied profiler stack event nested (profiler.recorded stack event (.of nested)) := by
  have hRecorded := profiler.recorded_of stack event nested
  have hTable : (profiler.recorded stack event (.of nested)).table =
      profiler.table.record stack event := by rw [hRecorded]
  have hCreates := threaded.creates_iff stack event
  have hLater := threaded.record stack event
  refine ⟨hTable ▸ threaded.raises_seen, hTable ▸ threaded.raises_new, hTable ▸ hLater.nodup_sites,
    hTable ▸ fun site hMem => hLater.kind_counters hMem, ?_, ?_⟩
  · intro hSeen
    rw [hRecorded, if_neg (by rw [hCreates]; exact not_not_intro hSeen)]
  · intro hNew
    rw [hRecorded, if_pos (hCreates.mpr hNew)]

/-! ## One turn -/

@[simp] theorem putBack_caller (crew : Crew) (thread : ThreadId) (profiler : Profiler) :
    crew.putBack thread { crew.caller thread with profiler := profiler } =
      { crew with profiler := profiler } := by
  simp only [putBack, caller, Function.update_eq_self]

theorem putBack_self (crew : Crew) (thread : ThreadId) :
    crew.putBack thread (crew.caller thread) = crew := by
  simp only [putBack, caller, Function.update_eq_self]

/-- A recording leaves everything but the profiler as it was. -/
theorem after_record (crew : Crew) (thread : ThreadId) (origin : Origin) (event : Event)
    (nested : List Action) :
    crew.after thread (.act (.record origin event) nested) =
      { crew with
        profiler := ((crew.caller thread).recordedBy (crew.profiler.siteOf origin) event
          (.of nested)).profiler } := by
  obtain ⟨journal, hAct⟩ := Caller.act_record_eq (crew.caller thread) origin event (.of nested)
  simp only [after, hAct]
  exact crew.putBack_caller thread _

theorem after_switch (crew : Crew) (thread : ThreadId) {action : Action}
    (hSwitch : action.isSwitch = true) (nested : List Action) :
    crew.after thread (.act action nested) =
      { crew with profiler := crew.profiler.afterNested [action] } := by
  cases action with
  | record origin event => cases hSwitch
  | enable => exact crew.putBack_caller thread crew.profiler.enable
  | disable => exact crew.putBack_caller thread crew.profiler.disable

theorem after_tally {crew : Crew} {thread : ThreadId} {stack : CallStack} {event : Event}
    (hCaptured : crew.captured thread = some (stack, event)) (nested : List Action) :
    crew.after thread (.tally nested) =
      { crew.setCaptured thread none with
        profiler := ((crew.caller thread).recordedBy stack event (.of nested)).profiler } := by
  obtain ⟨journal, hRecord⟩ := Caller.record_eq (crew.caller thread) stack event (.of nested)
  simp only [after, hCaptured, hRecord, Caller.recordedBy, putBack_caller]
  rfl

theorem captured_setCaptured (crew : Crew) (thread : ThreadId)
    (captured : Option (CallStack × Event)) :
    (crew.setCaptured thread captured).captured thread = captured := by
  simp only [setCaptured, Function.update_self]

theorem setCaptured_self {crew : Crew} {thread : ThreadId} (hNone : crew.captured thread = none) :
    crew.setCaptured thread none = crew := by
  rw [setCaptured, ← hNone, Function.update_eq_self]

/-- A capture changes at most the count of dropped events and what its thread has captured. -/
theorem after_capture (crew : Crew) (thread : ThreadId) (walk : List Address) (event : Event) :
    crew.after thread (.capture walk event) =
      if crew.profiler.enabled then
        if crew.inside thread then (crew.countDrops 1).setCaptured thread none
        else crew.setCaptured thread (some (crew.profiler.collector.capture walk, event))
      else crew.setCaptured thread none := by
  cases hEnabled : crew.profiler.enabled with
  | false =>
    have hReply := @Caller.captureHere_of_disabled (crew.caller thread) hEnabled walk
    simp only [after, hReply, putBack_self, Bool.false_eq_true, if_false]
  | true =>
    cases hInside : crew.inside thread with
    | true =>
      have hReply := @Caller.captureHere_of_inside (crew.caller thread) hEnabled hInside
        walk
      simp only [after, hReply, putBack_caller, if_true]
      rfl
    | false =>
      have hReply := @Caller.captureHere_of_outside (crew.caller thread) hEnabled hInside
        walk
      simp only [after, hReply, putBack_self, if_true, Bool.false_eq_true, if_false]
      rfl

/-- What a recording leaves of the profiler accounts for its event. -/
theorem accounts_recordedBy {crew : Crew} (threaded : crew.profiler.table.Threaded)
    (thread : ThreadId) (stack : CallStack) (event : Event) (nested : List Action) :
    crew.Accounts thread stack event nested
      { crew with
        profiler := ((crew.caller thread).recordedBy stack event (.of nested)).profiler } where
  of_disabled := by
    intro hDisabled
    simp only [Caller.recordedBy, caller, hDisabled, Bool.false_eq_true, if_false]
  of_inside := by
    intro hEnabled hInside
    simp only [Caller.recordedBy, caller, hEnabled, hInside, if_true]
    rfl
  of_outside := by
    intro hEnabled hOutside
    refine ⟨_, rfl, ?_⟩
    simp only [Caller.recordedBy, caller, hEnabled, hOutside, if_true, Bool.false_eq_true, if_false]
    exact tallied_recorded threaded stack event nested

/-! ## Runs -/

/-- All that the threads rely on. -/
structure Sound (crew : Crew) : Prop where
  threaded : crew.profiler.table.Threaded
  /-- Recording stays on, and a thread outside, between the two stages. -/
  captured : ∀ thread, crew.captured thread ≠ none →
    crew.profiler.enabled = true ∧ crew.inside thread = false

theorem sound_ofSettings (settings : Settings) (inside : ThreadId → Bool) :
    (ofSettings settings inside).Sound :=
  ⟨SiteTable.threaded_withCapacity _ _, fun _ hCaptured => absurd rfl hCaptured⟩

/-- What the other threads have captured, and their marks, stay as they are. -/
theorem after_others (crew : Crew) {thread other : ThreadId} (hOther : other ≠ thread)
    (turn : Turn) :
    (crew.after thread turn).captured other = crew.captured other ∧
      (crew.after thread turn).inside other = crew.inside other := by
  cases turn with
  | act action nested => exact ⟨rfl, Function.update_of_ne hOther _ _⟩
  | capture walk event =>
    exact ⟨Function.update_of_ne hOther _ _, Function.update_of_ne hOther _ _⟩
  | tally nested =>
    simp only [after]
    split
    · exact ⟨Function.update_of_ne hOther _ _, Function.update_of_ne hOther _ _⟩
    · exact ⟨rfl, rfl⟩
  | mark inside => exact ⟨rfl, Function.update_of_ne hOther _ _⟩
  | upkeep work => exact ⟨rfl, rfl⟩

theorem threaded_after {crew : Crew} (threaded : crew.profiler.table.Threaded)
    (thread : ThreadId) (turn : Turn) : (crew.after thread turn).profiler.table.Threaded := by
  cases turn with
  | act action nested =>
    cases action with
    | record origin event =>
      rw [after_record]
      exact Profiler.threaded_recordedBy threaded _ event _
    | enable => exact threaded
    | disable => exact threaded
  | capture walk event =>
    rw [after_capture]
    split
    · split
      · exact threaded
      · exact threaded
    · exact threaded
  | tally nested =>
    cases hCaptured : crew.captured thread with
    | none =>
      simp only [after, hCaptured]
      exact threaded
    | some site =>
      rw [after_tally hCaptured]
      exact Profiler.threaded_recordedBy threaded site.1 site.2 _
  | mark inside => exact threaded
  | upkeep work => exact Profiler.threaded_upkeep threaded work

/-- Whatever a thread holds after its turn, it has just captured outside the profiler. -/
theorem captured_after {crew : Crew} {thread : ThreadId} {turn : Turn}
    (admits : crew.Admits thread turn)
    (hCaptured : (crew.after thread turn).captured thread ≠ none) :
    (crew.after thread turn).profiler.enabled = true ∧
      (crew.after thread turn).inside thread = false := by
  have hNone (hTallies : turn.tallies = false) : crew.captured thread = none :=
    Option.isNone_iff_eq_none.mp (by rw [← Option.not_isSome, admits.stages, hTallies]; rfl)
  cases turn with
  | capture walk event =>
    rw [after_capture] at hCaptured ⊢
    split
    next hEnabled =>
      rw [if_pos hEnabled] at hCaptured
      split
      next hInside =>
        rw [if_pos hInside] at hCaptured
        exact absurd (captured_setCaptured _ thread none) hCaptured
      next hOutside => exact ⟨hEnabled, Bool.eq_false_iff.mpr hOutside⟩
    next hDisabled =>
      rw [if_neg hDisabled] at hCaptured
      exact absurd (captured_setCaptured _ thread none) hCaptured
  | tally nested =>
    obtain ⟨site, hSite⟩ := Option.isSome_iff_exists.mp admits.stages
    rw [after_tally hSite] at hCaptured
    exact absurd (captured_setCaptured crew thread none) hCaptured
  | act action nested => exact absurd (hNone rfl) hCaptured
  | mark inside => exact absurd (hNone rfl) hCaptured
  | upkeep work => exact absurd (hNone rfl) hCaptured

theorem Sound.after {crew : Crew} {thread : ThreadId} (sound : crew.Sound) {turn : Turn}
    (admits : crew.Admits thread turn) : (crew.after thread turn).Sound where
  threaded := threaded_after sound.threaded thread turn
  captured := by
    intro other hCaptured
    by_cases hOther : other = thread
    · subst hOther
      exact captured_after admits hCaptured
    · obtain ⟨hSame, hMark⟩ := crew.after_others hOther turn
      rw [hSame] at hCaptured
      obtain ⟨hEnabled, hOutside⟩ := sound.captured other hCaptured
      rcases admits.steady with hSteady | hAlone
      · exact ⟨hSteady.trans hEnabled, hMark.trans hOutside⟩
      · exact absurd (hAlone other hOther) hCaptured

theorem settles {crew : Crew} {thread : ThreadId} (sound : crew.Sound) {turn : Turn}
    (admits : crew.Admits thread turn) : crew.Settles thread turn := by
  have hNone (hTallies : turn.tallies = false) : crew.captured thread = none :=
    Option.isNone_iff_eq_none.mp (by rw [← Option.not_isSome, admits.stages, hTallies]; rfl)
  cases turn with
  | act action nested =>
    cases action with
    | record origin event =>
      rw [Settles, after_record]
      exact accounts_recordedBy sound.threaded thread _ event nested
    | enable => rfl
    | disable => rfl
  | capture walk event =>
    simp only [Settles, after_capture]
    refine ⟨?_, ?_, ?_⟩
    · intro hDisabled
      rw [hDisabled, if_neg Bool.false_ne_true, setCaptured_self (hNone rfl)]
    · intro hEnabled hInside
      rw [if_pos hEnabled, if_pos hInside]
      exact @setCaptured_self (crew.countDrops 1) thread (hNone rfl)
    · intro hEnabled hOutside
      rw [if_pos hEnabled, hOutside, if_neg Bool.false_ne_true]
  | tally nested =>
    obtain ⟨⟨stack, event⟩, hSite⟩ := Option.isSome_iff_exists.mp admits.stages
    have hCaptured : crew.captured thread ≠ none := by
      rw [hSite]
      exact Option.some_ne_none _
    obtain ⟨hEnabled, hOutside⟩ := sound.captured thread hCaptured
    refine ⟨hEnabled, hOutside, stack, event, hSite, ?_⟩
    rw [after_tally hSite]
    exact @accounts_recordedBy (crew.setCaptured thread none) sound.threaded thread stack
      event nested
  | mark inside => rfl
  | upkeep work => exact (crew.profiler.upkeep_frame work).2

/-! ## Undoing the nesting -/

theorem recordedBy_countDrops (crew : Crew) (count : Nat) (thread : ThreadId) (stack : CallStack)
    (event : Event) (plan : AtCreation) :
    (((crew.countDrops count).caller thread).recordedBy stack event plan).profiler =
      ((crew.caller thread).recordedBy stack event plan).profiler.countDrops count := by
  simp only [Caller.recordedBy]
  change (if crew.profiler.enabled then if crew.inside thread then _ else _ else _) =
    Profiler.countDrops (if crew.profiler.enabled then if crew.inside thread then _ else _ else _) _
  split
  · split
    · exact crew.profiler.countDrops_comm count 1
    · exact crew.profiler.recorded_countDrops count stack event plan
  · rfl

theorem after_countDrops (crew : Crew) (count : Nat) (thread : ThreadId) (turn : Turn) :
    (crew.countDrops count).after thread turn = (crew.after thread turn).countDrops count := by
  cases turn with
  | act action nested =>
    cases action with
    | record origin event =>
      rw [after_record, after_record, recordedBy_countDrops]
      rfl
    | enable => rfl
    | disable => rfl
  | capture walk event =>
    rw [after_capture, after_capture]
    change (if crew.profiler.enabled then if crew.inside thread then _ else _ else _) =
      countDrops (if crew.profiler.enabled then if crew.inside thread then _ else _ else _) _
    split
    · split
      · exact congrArg (fun profiler => { crew with profiler := profiler }.setCaptured thread none)
          (crew.profiler.countDrops_comm count 1)
      · rfl
    · rfl
  | tally nested =>
    cases hCaptured : crew.captured thread with
    | none => simp only [after, countDrops, hCaptured]
    | some site =>
      rw [after_tally hCaptured, @after_tally (crew.countDrops count) _ _ _ hCaptured,
        recordedBy_countDrops]
      rfl
  | mark inside => rfl
  | upkeep work =>
    exact congrArg (fun profiler => { crew with profiler := profiler })
      (crew.profiler.upkeep_countDrops count work)

theorem countDrops_countDrops (crew : Crew) (count other : Nat) :
    (crew.countDrops count).countDrops other = crew.countDrops (count + other) := by
  simp only [countDrops, Profiler.countDrops, Nat.add_assoc]

theorem afterAll_append (crew : Crew) (turns later : List (ThreadId × Turn)) :
    crew.afterAll (turns ++ later) = (crew.afterAll turns).afterAll later :=
  List.foldl_append

theorem afterAll_countDrops (crew : Crew) (count : Nat) (turns : List (ThreadId × Turn)) :
    (crew.countDrops count).afterAll turns = (crew.afterAll turns).countDrops count := by
  induction turns generalizing crew with
  | nil => rfl
  | cons turn rest ih =>
    exact (congrArg (·.afterAll rest) (crew.after_countDrops count turn.1 turn.2)).trans (ih _)

/-- The effect of the actions nested in a recording can be had after it. -/
theorem recordedBy_nested (caller : Caller) (stack : CallStack) (event : Event)
    (nested : List Action) :
    (caller.recordedBy stack event (.of nested)).profiler =
      (caller.recordedBy stack event (.of [])).profiler.afterNested
        (if caller.profiler.enabled && !caller.inside && caller.profiler.creates stack event then
          nested else []) := by
  simp only [Caller.recordedBy, Profiler.recorded_of]
  cases caller.profiler.enabled with
  | false => rfl
  | true =>
    cases caller.inside with
    | true => rfl
    | false =>
      cases caller.profiler.creates stack event with
      | false => rfl
      | true => rfl

theorem enabled_recordedBy (crew : Crew) (thread : ThreadId) (stack : CallStack) (event : Event) :
    ((crew.caller thread).recordedBy stack event (.of [])).profiler.enabled =
      crew.profiler.enabled := by
  simp only [Caller.recordedBy, Profiler.recorded_of]
  split
  · split
    · rfl
    · split <;> rfl
  · rfl

/-- A turn is the turn without nesting, followed by the nested actions that happen in it. -/
theorem after_eq_bare (crew : Crew) (thread : ThreadId) (turn : Turn) :
    crew.after thread turn =
      { crew.after thread turn.bare with
        profiler := (crew.after thread turn.bare).profiler.afterNested
          (crew.happening thread turn) } := by
  cases turn with
  | act action nested =>
    cases action with
    | record origin event =>
      rw [after_record, Turn.bare, after_record, recordedBy_nested]
      rfl
    | enable => rfl
    | disable => rfl
  | tally nested =>
    cases hCaptured : crew.captured thread with
    | none =>
      have hNothing : crew.happening thread (.tally nested) = [] := by
        simp only [happening, announces, hCaptured, Option.any_none, Bool.and_false,
          Bool.false_eq_true, if_false]
      simp only [after, Turn.bare, hCaptured, hNothing]
      rfl
    | some site =>
      have hHappening : crew.happening thread (.tally nested) =
          if crew.profiler.enabled && !crew.inside thread &&
            crew.profiler.creates site.1 site.2 then nested else [] := by
        simp only [happening, announces, hCaptured, Option.any_some, Turn.nested]
      rw [after_tally hCaptured, Turn.bare, after_tally hCaptured, recordedBy_nested, hHappening]
      rfl
  | capture walk event => rfl
  | mark inside => rfl
  | upkeep work => rfl

theorem afterAll_switches (crew : Crew) (thread : ThreadId) {switches : List Action}
    (hSwitches : ∀ action ∈ switches, action.isSwitch = true) :
    crew.afterAll (switches.map fun action => (thread, .act action [])) =
      { crew with profiler := crew.profiler.afterNested switches } := by
  induction switches generalizing crew with
  | nil => rfl
  | cons action rest ih =>
    rw [Profiler.afterNested_cons, List.map_cons, afterAll, List.foldl_cons, ← afterAll,
      after_switch crew thread (hSwitches action List.mem_cons_self),
      ih _ fun other hMem => hSwitches other (List.mem_cons_of_mem action hMem)]

theorem attempts_happening (crew : Crew) (thread : ThreadId) (turn : Turn) :
    Action.attempts (crew.after thread turn.bare).profiler.enabled (crew.happening thread turn) =
      Action.attempts crew.profiler.enabled (crew.happening thread turn) := by
  cases turn with
  | act action nested =>
    cases action with
    | record origin event => rw [Turn.bare, after_record, enabled_recordedBy]
    | enable => rfl
    | disable => rfl
  | tally nested =>
    cases hCaptured : crew.captured thread with
    | none => simp only [after, Turn.bare, hCaptured]
    | some site => rw [Turn.bare, after_tally hCaptured, enabled_recordedBy]
  | capture walk event => rfl
  | mark inside => rfl
  | upkeep work => rfl

/-- A turn is counted as dropping what it drops in nested recordings, and otherwise as good as
its unnested form. -/
theorem afterAll_unnest (crew : Crew) (thread : ThreadId) (turn : Turn) :
    (crew.afterAll (crew.unnest thread turn)).countDrops
        (Action.attempts crew.profiler.enabled (crew.happening thread turn)) =
      crew.after thread turn := by
  have hBare : crew.afterAll (crew.unnest thread turn) =
      { crew.after thread turn.bare with
        profiler := (crew.after thread turn.bare).profiler.afterNested
          ((crew.happening thread turn).filter Action.isSwitch) } := by
    rw [unnest, afterAll, List.foldl_cons, ← afterAll, afterAll_switches]
    intro action hMem
    exact (List.mem_filter.mp hMem).2
  rw [hBare, crew.after_eq_bare thread turn, Profiler.afterNested_eq_filter _
    (crew.happening thread turn), crew.attempts_happening thread turn]
  rfl

theorem afterAll_unnestAll (crew : Crew) (turns : List (ThreadId × Turn)) :
    (crew.afterAll (crew.unnestAll turns)).countDrops (crew.nestedDrops turns) =
      crew.afterAll turns := by
  induction turns generalizing crew with
  | nil => rfl
  | cons first rest ih =>
    obtain ⟨thread, turn⟩ := first
    have hFirst := crew.afterAll_unnest thread turn
    rw [unnestAll, nestedDrops, afterAll_append, ← countDrops_countDrops, ← afterAll_countDrops,
      hFirst, ih]
    rfl

/-! ## Runs -/

theorem nested_unnestAll (crew : Crew) (turns : List (ThreadId × Turn)) :
    ∀ turn ∈ crew.unnestAll turns, turn.2.nested = [] := by
  induction turns generalizing crew with
  | nil => exact fun _ hMem => absurd hMem List.not_mem_nil
  | cons first rest ih =>
    intro turn hMem
    rw [unnestAll, List.mem_append, unnest, List.mem_cons, List.mem_map] at hMem
    rcases hMem with (rfl | ⟨action, -, rfl⟩) | hRest
    · exact first.2.nested_bare
    · rfl
    · exact ih _ turn hRest

theorem Sound.settles_all {crew : Crew} (sound : crew.Sound) {before later : List (ThreadId × Turn)}
    {thread : ThreadId} {turn : Turn}
    (hTurns : crew.Undisturbed (before ++ (thread, turn) :: later)) :
    (crew.afterAll before).Settles thread turn := by
  induction before generalizing crew with
  | nil => exact settles sound hTurns.1
  | cons first rest ih => exact ih (sound.after hTurns.1) hTurns.2

/-- Every event of a run is settled at its turn, and the run with nested recordings left out and
nested switches moved behind comes to the same but for the drops counted. -/
theorem events_settle_unnested (settings : Settings) (inside : ThreadId → Bool)
    {turns : List (ThreadId × Turn)} (hTurns : (ofSettings settings inside).Undisturbed turns) :
    let start := ofSettings settings inside
    (∀ before thread turn later, turns = before ++ (thread, turn) :: later →
      (start.afterAll before).Settles thread turn) ∧
    (∀ turn ∈ start.unnestAll turns, turn.2.nested = []) ∧
    (start.afterAll (start.unnestAll turns)).countDrops (start.nestedDrops turns) =
      start.afterAll turns := by
  intro start
  refine ⟨?_, start.nested_unnestAll turns, start.afterAll_unnestAll turns⟩
  rintro before thread turn later rfl
  exact (sound_ofSettings settings inside).settles_all hTurns

/-- Thread 1 captures a stack and thread 2 records meanwhile, dropping a nested event; then
thread 1 records and switches recording off as its bucket is announced. -/
def sharedTurns : List (ThreadId × Turn) :=
  [(1, .capture [7, 9] (.allocation 64)),
    (2, .act (.record (.stack (.ofAddresses [5])) (.blocked 3))
      [.record (.here [7]) (.release 8)]),
    (1, .tally [.record (.stack (.ofAddresses [5])) (.blocked 2), .disable,
      .record (.here [5]) (.allocation 1)]),
    (2, .upkeep .cycle),
    (2, .act (.record (.here [7, 9]) (.release 64)) [])]

theorem events_settle_unnested_shared :
    let start := ofSettings { hashChains := 1 } fun _ => false
    start.Undisturbed sharedTurns ∧ start.nestedDrops sharedTurns = 2 ∧
      (∀ before thread turn later, sharedTurns = before ++ (thread, turn) :: later →
        (start.afterAll before).Settles thread turn) ∧
      (start.afterAll (start.unnestAll sharedTurns)).countDrops 2 =
        start.afterAll sharedTurns := by
  have hTurns : (ofSettings { hashChains := 1 } fun _ => false).Undisturbed sharedTurns :=
    ⟨⟨rfl, .inl rfl⟩, ⟨rfl, .inl rfl⟩, ⟨rfl, .inr fun _ hOther => Function.update_of_ne hOther _ _⟩,
      ⟨rfl, .inl rfl⟩, ⟨rfl, .inl rfl⟩, trivial⟩
  have hSettled := events_settle_unnested { hashChains := 1 } (fun _ => false) hTurns
  exact ⟨hTurns, rfl, hSettled.1, hSettled.2.2⟩

end Crew

end SiteProfiler
