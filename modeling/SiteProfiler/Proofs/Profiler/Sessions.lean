import Mathlib.Logic.Function.Iterate
import SiteProfiler.Proofs.Profiler.Sharing

/-!
# Sessions

A session is a run of calls that threads make on one profiler, with what each of them answers.  The
table is behind a lock that is poisoned for good once a holder has been left by unwinding; whoever
locks it afterwards goes on with the table as it was left.  Every call puts the mark of its thread
back to what it was, however it ends.
-/

namespace SiteProfiler

/-- Whether a call is left by unwinding. -/
def Outcome.unwinds {α : Type} : Outcome α → Bool
  | returned _ => false
  | unwound => true

/-- A table behind a lock. -/
structure TableLock where
  table : SiteTable
  /-- A holder has been left by unwinding. -/
  poisoned : Bool

namespace TableLock

/-- Take the lock; from a poisoned one the table comes as an error. -/
def lock (lock : TableLock) : Except SiteTable SiteTable :=
  if lock.poisoned then .error lock.table else .ok lock.table

/-- Take the lock and go on with the table, whether it is poisoned or not. -/
def enter (lock : TableLock) : SiteTable :=
  match lock.lock with
  | .ok table => table
  | .error table => table

theorem enter_eq (lock : TableLock) : lock.enter = lock.table := by
  rw [enter, TableLock.lock]
  cases lock.poisoned <;> rfl

end TableLock

/-! ## Calls -/

/-- A call that records no event. -/
inductive Service where
  | status
  | bucketCount (kind : EventKind)
  | registerWorker (createStack : CallStack)
  | registerHere (walk : List Address)
  | cycle
  | memProfile (buffer : List MemRecord) (includeZeroed : Bool)
  | blockProfile (buffer : List BlockRecord)
  | threadProfile (buffer : List StackRecord)
  | memSnapshot (includeZeroed : Bool)
  | blockSnapshot

/-- What a call answers. -/
inductive Served where
  | nothing
  | status (enabled : Bool) (droppedEvents collectionCycles : Nat) (workers : List Worker)
  | count (count : Nat)
  | worker (id : WorkerId)
  | captured (stack : Option CallStack)
  | memProfile (result : Export MemRecord)
  | blockProfile (result : Export BlockRecord)
  | threadProfile (result : Export StackRecord)
  | memSnapshot (snapshot : MemSnapshot)
  | blockSnapshot (snapshot : BlockSnapshot)

namespace Profiler

def serve (profiler : Profiler) : Service → Served × Profiler × List JournalLine
  | .status =>
    (.status profiler.enabled profiler.droppedEvents profiler.collectionCycles
      profiler.roster.snapshot, profiler, [])
  | .bucketCount kind => (.count (profiler.bucketCount kind), profiler, [])
  | .registerWorker createStack =>
    let (id, next) := profiler.registerWorker createStack
    (.worker id, next, [])
  | .registerHere walk =>
    let (id, next) := profiler.registerWorkerHere walk
    (.worker id, next, [])
  | .cycle =>
    let (next, journal) := profiler.onCycle
    (.nothing, next, journal)
  | .memProfile buffer includeZeroed =>
    let (result, next, journal) := profiler.memProfile buffer includeZeroed
    (.memProfile result, next, journal)
  | .blockProfile buffer =>
    let (result, journal) := profiler.blockProfile buffer
    (.blockProfile result, profiler, journal)
  | .threadProfile buffer =>
    let (result, journal) := profiler.threadProfile buffer
    (.threadProfile result, profiler, journal)
  | .memSnapshot includeZeroed =>
    let (snapshot, next, journal) := profiler.memSnapshot includeZeroed
    (.memSnapshot snapshot, next, journal)
  | .blockSnapshot =>
    let (snapshot, journal) := profiler.blockSnapshot
    (.blockSnapshot snapshot, profiler, journal)

end Profiler

inductive Request where
  /-- An action.  If it creates a bucket, the plan is carried out under so many further holds of the
  mark. -/
  | act (action : Action) (holds : Nat) (plan : AtCreation)
  /-- The first stage of recording an event where the given walk of the stack started; the second
  is an action at the stack it answers. -/
  | capture (walk : List Address)
  /-- Find or create a bucket and tally nothing.  If it is created, some actions are nested in its
  announcement. -/
  | link (kind : EventKind) (stack : CallStack) (nested : List Action)
  /-- The thread enters or leaves the profiler through another call than these. -/
  | mark (inside : Bool)
  | serve (service : Service)

namespace Caller

/-- A call with its answer replaced. -/
def answering {α β : Type} (answer : α → β) (body : Call α) : Call β := fun caller =>
  let reply := body caller
  { reply with outcome := reply.outcome.map answer }

/-- With the table locked: find or create the bucket, and announce it if it is new. -/
def linkAt (kind : EventKind) (stack : CallStack) (onCreation : Call Unit) : Call Unit :=
  fun caller =>
    let found := caller.profiler.table.lookup kind stack
    let linked := { caller with profiler := { caller.profiler with table := found.table } }
    if found.created then
      let reply := onCreation linked
      { reply with journal := .bucketCreated kind found.id stack.depth :: reply.journal }
    else quiet linked

/-- A call that records no event.  No one can tell whether the thread is marked in those that do
not touch the table. -/
def serve (service : Service) : Call Served := hold fun caller =>
  let (answer, profiler, journal) := caller.profiler.serve service
  ⟨.returned answer, { caller with profiler := profiler }, journal⟩

end Caller

/-- A request as a call of a thread. -/
def Request.call : Request → Call Served
  | act action holds plan =>
    Caller.answering (fun _ => .nothing) (Caller.act action (Caller.hold^[holds] plan.run))
  | capture walk => Caller.answering .captured (Caller.captureHere walk)
  | link kind stack nested =>
    Caller.answering (fun _ => .nothing)
      (Caller.hold (Caller.linkAt kind stack (AtCreation.of nested).run))
  | mark inside => fun caller => ⟨.returned .nothing, { caller with inside := inside }, []⟩
  | serve service => Caller.serve service

/-! ## Runs -/

/-- A shared profiler, its lock and the marks of the threads. -/
structure Session where
  profiler : Profiler
  poisoned : Bool
  inside : ThreadId → Bool

/-- What a call shows of itself. -/
structure Report where
  outcome : Outcome Served
  journal : List JournalLine

namespace Session

/-- A new profiler; some threads may be inside a profiler already. -/
def ofSettings (settings : Settings) (inside : ThreadId → Bool) : Session :=
  ⟨.ofSettings settings, false, inside⟩

/-- The lock around the table of the profiler. -/
def lock (session : Session) : TableLock := ⟨session.profiler.table, session.poisoned⟩

/-- The profiler as a call of a thread gets it. -/
def caller (session : Session) (thread : ThreadId) : Caller where
  profiler := { session.profiler with table := session.lock.enter }
  inside := session.inside thread

def reply (session : Session) (thread : ThreadId) (request : Request) : Reply Served :=
  request.call (session.caller thread)

def report (session : Session) (thread : ThreadId) (request : Request) : Report :=
  ⟨(session.reply thread request).outcome, (session.reply thread request).journal⟩

/-- The session after a request.  Only the table lock is held when a call is left by unwinding. -/
def after (session : Session) (thread : ThreadId) (request : Request) : Session where
  profiler := (session.reply thread request).caller.profiler
  poisoned := session.poisoned || (session.reply thread request).outcome.unwinds
  inside := Function.update session.inside thread (session.reply thread request).caller.inside

def afterAll (session : Session) (requests : List (ThreadId × Request)) : Session :=
  requests.foldl (fun session request => session.after request.1 request.2) session

/-- What each of some requests shows of itself. -/
def reportAll (session : Session) : List (ThreadId × Request) → List Report
  | [] => []
  | (thread, request) :: rest =>
    session.report thread request :: (session.after thread request).reportAll rest

/-- The session with its lock as good as new. -/
def healed (session : Session) : Session := { session with poisoned := false }

/-- Whether a request is left by unwinding: it creates a bucket and the plan fails. -/
def cutsShort (session : Session) (thread : ThreadId) : Request → Bool
  | .act (.record origin event) _ plan =>
    session.profiler.enabled && !session.inside thread &&
      session.profiler.cutShort (session.profiler.siteOf origin) event plan
  | _ => false

end Session

namespace Caller

/-! ## The mark of the thread -/

theorem inside_hold {α : Type} (body : Call α) (caller : Caller) :
    (hold body caller).caller.inside = caller.inside := rfl

theorem inside_guarded {α : Type} (body : Call α) (caller : Caller) :
    (guarded body caller).caller.inside = caller.inside := by
  rw [guarded]
  split
  · rfl
  · exact inside_hold body caller

theorem inside_record (stack : CallStack) (event : Event) (onCreation : Call Unit)
    (caller : Caller) : (record stack event onCreation caller).caller.inside = caller.inside := by
  have hGuarded := inside_guarded (tallyAt stack event onCreation) caller
  rw [record]
  split
  · simp only
    split
    · exact hGuarded
    · exact hGuarded
    · exact hGuarded
  · rfl

theorem inside_captureHere (walk : List Address) (caller : Caller) :
    (captureHere walk caller).caller.inside = caller.inside := by
  have hGuarded := inside_guarded
    (fun marked => ⟨.returned (marked.profiler.collector.capture walk), marked, []⟩) caller
  rw [captureHere]
  split
  · simp only
    split
    · exact hGuarded
    · exact hGuarded
  · rfl

/-- Whatever a thread does when its bucket is announced, and however that ends. -/
theorem inside_act (action : Action) (onCreation : Call Unit) (caller : Caller) :
    (act action onCreation caller).caller.inside = caller.inside := by
  cases action with
  | record origin event =>
    cases origin with
    | stack stack => exact inside_record stack event onCreation caller
    | here walk =>
      have hCaptured := inside_captureHere walk caller
      simp only [act, recordHere]
      split
      · exact (inside_record _ event onCreation _).trans hCaptured
      · exact hCaptured
      · exact hCaptured
  | enable => rfl
  | disable => rfl

/-! ## Further holds -/

/-- On a thread inside the profiler a plan keeps the mark. -/
theorem run_of_inside (plan : AtCreation) {caller : Caller} (hInside : caller.inside = true) :
    ∃ journal, plan.run caller = ⟨if plan.fails then .unwound else .returned (),
      { caller with profiler := caller.profiler.afterNested plan.actions }, journal⟩ := by
  obtain ⟨journal, hNested⟩ := actAll_of_inside plan.actions hInside
  refine ⟨journal, ?_⟩
  rw [AtCreation.run, hNested]
  cases plan.fails <;> rfl

theorem holds_run (holds : Nat) (plan : AtCreation) {caller : Caller}
    (hInside : caller.inside = true) : hold^[holds] plan.run caller = plan.run caller := by
  have hSelf : { caller with inside := true } = caller := hInside ▸ rfl
  induction holds with
  | zero => rfl
  | succ fewer ih =>
    obtain ⟨journal, hRun⟩ := run_of_inside plan hInside
    rw [Function.iterate_succ_apply', hold, hSelf, ih, hRun]

/-- The announcement of a bucket is made with the thread marked. -/
theorem tallyAt_congr {onCreation other : Call Unit}
    (hSame : ∀ caller : Caller, caller.inside = true → onCreation caller = other caller)
    (stack : CallStack) (event : Event) {caller : Caller} (hInside : caller.inside = true) :
    tallyAt stack event onCreation caller = tallyAt stack event other caller := by
  simp only [tallyAt, hSame { caller with
    profiler := { caller.profiler with
      table := (caller.profiler.table.lookup event.kind stack).table } } hInside]

theorem record_congr {onCreation other : Call Unit}
    (hSame : ∀ caller : Caller, caller.inside = true → onCreation caller = other caller)
    (stack : CallStack) (event : Event) (caller : Caller) :
    record stack event onCreation caller = record stack event other caller := by
  simp only [record, guarded, hold,
    @tallyAt_congr onCreation other hSame stack event { caller with inside := true } rfl]

theorem act_congr {onCreation other : Call Unit}
    (hSame : ∀ caller : Caller, caller.inside = true → onCreation caller = other caller)
    (action : Action) (caller : Caller) :
    act action onCreation caller = act action other caller := by
  cases action with
  | record origin event =>
    cases origin with
    | stack stack => exact record_congr hSame stack event caller
    | here walk => simp only [act, recordHere, record_congr hSame]
  | enable => rfl
  | disable => rfl

/-- Further holds around a plan change nothing. -/
theorem act_holds (action : Action) (holds : Nat) (plan : AtCreation) (caller : Caller) :
    act action (hold^[holds] plan.run) caller = act action plan.run caller :=
  act_congr (fun _ hInside => holds_run holds plan hInside) action caller

end Caller

namespace Profiler

/-! ## Calls that record nothing -/

/-- The upkeep that a call does. -/
def upkept (profiler : Profiler) : Service → Profiler
  | .registerWorker createStack => profiler.upkeep (.registerWorker createStack)
  | .registerHere walk => profiler.upkeep (.registerWorker (profiler.collector.capture walk))
  | .cycle => profiler.upkeep .cycle
  | .memProfile buffer includeZeroed => profiler.upkeep (.memProfile buffer includeZeroed)
  | .memSnapshot includeZeroed => profiler.upkeep (.memSnapshot includeZeroed)
  | _ => profiler

theorem profiler_serve (profiler : Profiler) (service : Service) :
    (profiler.serve service).2.1 = profiler.upkept service := by
  cases service <;> rfl

theorem threaded_serve {profiler : Profiler} (threaded : profiler.table.Threaded)
    (service : Service) : (profiler.serve service).2.1.table.Threaded := by
  rw [profiler_serve]
  cases service with
  | registerWorker createStack => exact threaded_upkeep threaded _
  | registerHere walk => exact threaded_upkeep threaded _
  | cycle => exact threaded_upkeep threaded _
  | memProfile buffer includeZeroed => exact threaded_upkeep threaded _
  | memSnapshot includeZeroed => exact threaded_upkeep threaded _
  | status => exact threaded
  | bucketCount kind => exact threaded
  | blockProfile buffer => exact threaded
  | threadProfile buffer => exact threaded
  | blockSnapshot => exact threaded

/-- The profiler after a bucket has been found or created. -/
def linked (profiler : Profiler) (kind : EventKind) (stack : CallStack) (nested : List Action) :
    Profiler :=
  { (if (profiler.table.lookup kind stack).created then profiler.afterNested nested
      else profiler) with
    table := (profiler.table.lookup kind stack).table }

end Profiler

theorem Caller.linkAt_of_inside {caller : Caller} (hInside : caller.inside = true)
    (kind : EventKind) (stack : CallStack) (nested : List Action) :
    ∃ journal, linkAt kind stack (AtCreation.of nested).run caller =
      ⟨.returned (), { caller with profiler := caller.profiler.linked kind stack nested },
        journal⟩ := by
  by_cases hCreated : (caller.profiler.table.lookup kind stack).created = true
  · obtain ⟨journal, hRun⟩ := @run_of_inside (.of nested)
      { caller with
        profiler := { caller.profiler with
          table := (caller.profiler.table.lookup kind stack).table } } hInside
    simp only [linkAt, Profiler.linked, hCreated, hRun, if_true]
    exact ⟨_, rfl⟩
  · simp only [linkAt, Profiler.linked, hCreated, quiet, Bool.false_eq_true, if_false]
    exact ⟨_, rfl⟩

namespace Session

/-! ## One request -/

/-- A call goes on with the table as it is, poisoned lock or not. -/
theorem caller_eq (session : Session) (thread : ThreadId) :
    session.caller thread = ⟨session.profiler, session.inside thread⟩ := by
  rw [caller, TableLock.enter_eq]
  rfl

theorem reply_healed (session : Session) (thread : ThreadId) (request : Request) :
    session.healed.reply thread request = session.reply thread request := by
  rw [reply, reply, caller_eq, caller_eq]
  rfl

theorem reply_act (session : Session) (thread : ThreadId) (action : Action) (holds : Nat)
    (plan : AtCreation) :
    session.reply thread (.act action holds plan) =
      Caller.answering (fun _ => .nothing) (Caller.act action plan.run)
        ⟨session.profiler, session.inside thread⟩ := by
  rw [reply, caller_eq, Request.call, Caller.answering, Caller.act_holds]
  rfl

/-- Every call but the explicit one puts the mark of its thread back. -/
theorem inside_after (session : Session) (thread : ThreadId) {request : Request}
    (hMark : ∀ inside, request ≠ .mark inside) :
    (session.after thread request).inside = session.inside := by
  have hSame : (session.reply thread request).caller.inside = session.inside thread := by
    cases request with
    | act action holds plan =>
      rw [reply_act]
      exact Caller.inside_act action plan.run _
    | capture walk => exact Caller.inside_captureHere walk _
    | link kind stack nested => exact Caller.inside_hold _ _
    | mark inside => exact absurd rfl (hMark inside)
    | serve service => exact Caller.inside_hold _ _
  rw [after, hSame, Function.update_eq_self]

/-- A recording ends as its event and its plan have it. -/
theorem reply_record (session : Session) (thread : ThreadId) (origin : Origin) (event : Event)
    (holds : Nat) (plan : AtCreation) :
    ∃ journal, session.reply thread (.act (.record origin event) holds plan) =
      ⟨if session.cutsShort thread (.act (.record origin event) holds plan) then .unwound
          else .returned .nothing,
        Caller.recordedBy ⟨session.profiler, session.inside thread⟩
          (session.profiler.siteOf origin) event plan, journal⟩ := by
  obtain ⟨journal, hAct⟩ := Caller.act_record_eq ⟨session.profiler, session.inside thread⟩ origin
    event plan
  refine ⟨journal, ?_⟩
  rw [reply_act, Caller.answering, hAct, cutsShort, Caller.endingOf]
  split <;> rfl

theorem reply_link (session : Session) (thread : ThreadId) (kind : EventKind) (stack : CallStack)
    (nested : List Action) :
    ∃ journal, session.reply thread (.link kind stack nested) =
      ⟨.returned .nothing,
        ⟨session.profiler.linked kind stack nested, session.inside thread⟩, journal⟩ := by
  obtain ⟨journal, hLink⟩ :=
    @Caller.linkAt_of_inside ⟨session.profiler, true⟩ rfl kind stack nested
  refine ⟨journal, ?_⟩
  rw [reply, caller_eq, Request.call, Caller.answering, Caller.hold, hLink]
  rfl

theorem reply_capture (session : Session) (thread : ThreadId) (walk : List Address) :
    ∃ stack, session.reply thread (.capture walk) =
      ⟨.returned (.captured stack),
        ⟨if session.profiler.enabled && session.inside thread then session.profiler.countDropped
          else session.profiler, session.inside thread⟩, []⟩ := by
  rw [reply, caller_eq, Request.call, Caller.answering]
  cases hEnabled : session.profiler.enabled with
  | false =>
    rw [@Caller.captureHere_of_disabled ⟨session.profiler, session.inside thread⟩ hEnabled]
    exact ⟨none, rfl⟩
  | true =>
    cases hInside : session.inside thread with
    | true =>
      rw [@Caller.captureHere_of_inside ⟨session.profiler, true⟩ hEnabled rfl]
      exact ⟨none, rfl⟩
    | false =>
      rw [@Caller.captureHere_of_outside ⟨session.profiler, false⟩ hEnabled rfl]
      exact ⟨some (session.profiler.collector.capture walk), rfl⟩

/-- A call is left by unwinding only if it is a recording that is cut short itself. -/
theorem unwinds_reply (session : Session) (thread : ThreadId) (request : Request) :
    (session.reply thread request).outcome.unwinds = session.cutsShort thread request := by
  cases request with
  | act action holds plan =>
    cases action with
    | record origin event =>
      obtain ⟨journal, hReply⟩ := session.reply_record thread origin event holds plan
      rw [hReply]
      cases session.cutsShort thread (.act (.record origin event) holds plan) <;> rfl
    | enable => rfl
    | disable => rfl
  | capture walk =>
    obtain ⟨stack, hReply⟩ := session.reply_capture thread walk
    rw [hReply]
    rfl
  | link kind stack nested =>
    obtain ⟨journal, hReply⟩ := session.reply_link thread kind stack nested
    rw [hReply]
    rfl
  | mark inside => rfl
  | serve service => rfl

/-! ## Runs -/

theorem threaded_after {session : Session} (threaded : session.profiler.table.Threaded)
    (thread : ThreadId) (request : Request) :
    (session.after thread request).profiler.table.Threaded := by
  rw [after]
  cases request with
  | act action holds plan =>
    cases action with
    | record origin event =>
      obtain ⟨journal, hReply⟩ := session.reply_record thread origin event holds plan
      rw [hReply]
      exact Profiler.threaded_recordedBy threaded _ event plan
    | enable =>
      rw [reply_act]
      exact threaded
    | disable =>
      rw [reply_act]
      exact threaded
  | capture walk =>
    obtain ⟨stack, hReply⟩ := session.reply_capture thread walk
    rw [hReply]
    dsimp only
    split
    · exact threaded
    · exact threaded
  | link kind stack nested =>
    obtain ⟨journal, hReply⟩ := session.reply_link thread kind stack nested
    rw [hReply]
    exact threaded.lookup kind stack
  | mark inside =>
    rw [reply, caller_eq]
    exact threaded
  | serve service =>
    rw [reply, caller_eq]
    exact Profiler.threaded_serve threaded service

theorem threaded_afterAll_of {session : Session} (threaded : session.profiler.table.Threaded)
    (requests : List (ThreadId × Request)) :
    (session.afterAll requests).profiler.table.Threaded := by
  induction requests generalizing session with
  | nil => exact threaded
  | cons request rest ih => exact ih (threaded_after threaded request.1 request.2)

theorem threaded_afterAll (settings : Settings) (inside : ThreadId → Bool)
    (requests : List (ThreadId × Request)) :
    ((ofSettings settings inside).afterAll requests).profiler.table.Threaded :=
  threaded_afterAll_of (SiteTable.threaded_withCapacity _ _) requests

theorem afterAll_append (session : Session) (requests later : List (ThreadId × Request)) :
    session.afterAll (requests ++ later) = (session.afterAll requests).afterAll later :=
  List.foldl_append

end Session

end SiteProfiler
