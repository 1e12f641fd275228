import SiteProfiler.Proofs.Profiler.Sessions

/-!
# Recordings that poison the lock

A recording that is left by unwinding has linked its bucket, and has tallied nothing.  The lock is
poisoned by it, and nothing else: the session goes on as if the bucket had been looked up and no
event recorded.
-/

namespace SiteProfiler

/-- The report of a call, and of one that was left by unwinding that of a call that returns. -/
def Report.settled (report : Report) : Report :=
  if report.outcome.unwinds then { report with outcome := .returned .nothing } else report

namespace Session

/-- A request, or in place of a recording that is cut short the look-up of its bucket. -/
def calm (session : Session) (thread : ThreadId) : Request → Request
  | .act (.record origin event) holds plan =>
    if session.cutsShort thread (.act (.record origin event) holds plan) then
      .link event.kind (session.profiler.siteOf origin) plan.actions
    else .act (.record origin event) holds plan
  | request => request

/-- A run with each recording that is cut short replaced by the look-up of its bucket. -/
def calmAll (session : Session) : List (ThreadId × Request) → List (ThreadId × Request)
  | [] => []
  | (thread, request) :: rest =>
    (thread, session.calm thread request) :: (session.after thread request).calmAll rest

/-- What a request of a session comes to, with its lock poisoned or not. -/
structure Weathers (session : Session) (thread : ThreadId) (request : Request) : Prop where
  /-- Every call returns, unless it is a recording that is cut short itself. -/
  returns : session.cutsShort thread request = false →
    ∃ answer, (session.report thread request).outcome = .returned answer
  unwinds : session.cutsShort thread request = true →
    (session.report thread request).outcome = .unwound
  poisoned : (session.after thread request).poisoned =
    (session.poisoned || session.cutsShort thread request)
  /-- The marks of all threads are what they were, whatever holds the call is left through. -/
  inside : (∀ inside, request ≠ .mark inside) →
    (session.after thread request).inside = session.inside
  /-- A recording that is cut short leaves its bucket, with nothing tallied in it, and the switches
  and drops nested in it. -/
  cut : ∀ origin event holds plan, request = .act (.record origin event) holds plan →
    session.cutsShort thread request = true →
    let next := (session.after thread request).profiler
    next = { session.profiler.afterNested plan.actions with table := next.table } ∧
      next.table.sites =
        session.profiler.table.sites ++ [.fresh event.kind (session.profiler.siteOf origin)]
  /-- Outside the profiler, any other event is recorded. -/
  accepts : ∀ origin event holds plan, request = .act (.record origin event) holds plan →
    session.profiler.enabled = true → session.inside thread = false →
    session.cutsShort thread request = false →
    Crew.Tallied session.profiler (session.profiler.siteOf origin) event plan.actions
      (session.after thread request).profiler

end Session

namespace Caller

/-! ## A recording that is cut short -/

/-- With the table locked, it is left by unwinding where the look-up alone returns. -/
theorem tallyAt_of_cutShort {caller : Caller} {stack : CallStack} {event : Event}
    {plan : AtCreation} (hCut : caller.profiler.cutShort stack event plan = true) :
    tallyAt stack event plan.run caller =
      { linkAt event.kind stack (AtCreation.of plan.actions).run caller with
        outcome := .unwound } := by
  obtain ⟨hCreated, hFails⟩ : (caller.profiler.table.lookup event.kind stack).created = true ∧
      plan.fails = true := by
    simpa only [Profiler.cutShort, Profiler.creates, Bool.and_eq_true] using hCut
  simp only [tallyAt, linkAt, AtCreation.run, AtCreation.of, hCreated, hFails, if_true,
    Bool.false_eq_true, if_false]

theorem record_of_cutShort {caller : Caller} (hEnabled : caller.profiler.enabled = true)
    (hOutside : caller.inside = false) {stack : CallStack} {event : Event} {plan : AtCreation}
    (hCut : caller.profiler.cutShort stack event plan = true) :
    record stack event plan.run caller =
      { hold (linkAt event.kind stack (AtCreation.of plan.actions).run) caller with
        outcome := .unwound } := by
  have hTally := @tallyAt_of_cutShort { caller with inside := true } stack event plan hCut
  simp only [record, guarded, hold, hEnabled, hOutside, hTally, if_true, Bool.false_eq_true,
    if_false, Outcome.map]

theorem act_of_cutShort {caller : Caller} (hEnabled : caller.profiler.enabled = true)
    (hOutside : caller.inside = false) {origin : Origin} {event : Event} {plan : AtCreation}
    (hCut : caller.profiler.cutShort (caller.profiler.siteOf origin) event plan = true) :
    act (.record origin event) plan.run caller =
      { hold (linkAt event.kind (caller.profiler.siteOf origin)
          (AtCreation.of plan.actions).run) caller with outcome := .unwound } := by
  cases origin with
  | stack stack => exact record_of_cutShort hEnabled hOutside hCut
  | here walk =>
    simp only [act, recordHere, captureHere_of_outside hEnabled hOutside, List.nil_append]
    exact record_of_cutShort hEnabled hOutside hCut

end Caller

theorem Profiler.recorded_of_whole {profiler : Profiler} {stack : CallStack} {event : Event}
    {plan : AtCreation} (hWhole : profiler.cutShort stack event plan = false) :
    profiler.recorded stack event plan = profiler.recorded stack event (.of plan.actions) := by
  have hEnds : profiler.cutShort stack event (.of plan.actions) = false := Bool.and_false _
  simp only [recorded, hWhole, hEnds]
  rfl

namespace Session

/-! ## One request -/

theorem cutsShort_record {session : Session} {thread : ThreadId} {origin : Origin} {event : Event}
    {holds : Nat} {plan : AtCreation} :
    session.cutsShort thread (.act (.record origin event) holds plan) = true ↔
      (session.profiler.enabled = true ∧ session.inside thread = false) ∧
        session.profiler.cutShort (session.profiler.siteOf origin) event plan = true := by
  simp only [cutsShort, Bool.and_eq_true, Bool.not_eq_true']

theorem calm_of_whole {session : Session} {thread : ThreadId} {request : Request}
    (hWhole : session.cutsShort thread request = false) :
    session.calm thread request = request := by
  cases request with
  | act action holds plan =>
    cases action with
    | record origin event => rw [calm, hWhole, if_neg Bool.false_ne_true]
    | enable => rfl
    | disable => rfl
  | _ => rfl

theorem cutsShort_calm (session : Session) (thread : ThreadId) (request : Request) :
    session.cutsShort thread (session.calm thread request) = false := by
  cases request with
  | act action holds plan =>
    cases action with
    | record origin event =>
      rw [calm]
      split
      · rfl
      next hWhole => exact Bool.eq_false_iff.mpr hWhole
    | enable => rfl
    | disable => rfl
  | _ => rfl

/-- The look-up answers where the recording is left by unwinding, and does all else alike. -/
theorem reply_calm_of_cutShort {session : Session} {thread : ThreadId} {request : Request}
    (hCut : session.cutsShort thread request = true) :
    session.reply thread (session.calm thread request) =
      { session.reply thread request with outcome := .returned .nothing } := by
  cases request with
  | act action holds plan =>
    cases action with
    | record origin event =>
      rw [calm, if_pos hCut]
      obtain ⟨⟨hEnabled, hOutside⟩, hCutShort⟩ := cutsShort_record.mp hCut
      have hAct := @Caller.act_of_cutShort ⟨session.profiler, session.inside thread⟩ hEnabled
        hOutside origin event plan hCutShort
      obtain ⟨journal, hLink⟩ := session.reply_link thread event.kind
        (session.profiler.siteOf origin) plan.actions
      -- That the look-up returns is all that is new; the rest of its reply is the recording's own.
      calc session.reply thread (.link event.kind (session.profiler.siteOf origin) plan.actions)
          = { session.reply thread (.link event.kind (session.profiler.siteOf origin) plan.actions)
              with outcome := .returned .nothing } := by rw [hLink]
        _ = _ := by
          rw [reply_act, Caller.answering, hAct, reply, caller_eq]
          rfl
    | enable => cases hCut
    | disable => cases hCut
  | _ => cases hCut

theorem report_calm (session : Session) (thread : ThreadId) (request : Request) :
    session.report thread (session.calm thread request) =
      (session.report thread request).settled := by
  have hUnwinds := session.unwinds_reply thread request
  rw [Report.settled]
  cases hCut : session.cutsShort thread request with
  | false =>
    have hReturns : ¬ (session.report thread request).outcome.unwinds = true := by
      rw [report, hUnwinds, hCut]
      exact Bool.false_ne_true
    rw [calm_of_whole hCut, if_neg hReturns]
  | true =>
    rw [report, reply_calm_of_cutShort hCut, if_pos (by rw [report, hUnwinds, hCut])]
    rfl

/-- But for the lock, a request leaves what the request in its place leaves. -/
theorem after_calm (session : Session) (thread : ThreadId) (request : Request) :
    session.healed.after thread (session.calm thread request) =
      (session.after thread request).healed := by
  have hHeld : (session.reply thread (session.calm thread request)).caller =
      (session.reply thread request).caller := by
    cases hCut : session.cutsShort thread request with
    | false => rw [calm_of_whole hCut]
    | true => rw [reply_calm_of_cutShort hCut]
  rw [after, reply_healed, unwinds_reply, cutsShort_calm, hHeld]
  rfl

theorem weathers (session : Session) (threaded : session.profiler.table.Threaded)
    (thread : ThreadId) (request : Request) : session.Weathers thread request where
  returns := by
    intro hWhole
    have hUnwinds := session.unwinds_reply thread request
    rw [hWhole] at hUnwinds
    cases hOutcome : (session.reply thread request).outcome with
    | returned answer => exact ⟨answer, hOutcome⟩
    | unwound =>
      rw [hOutcome] at hUnwinds
      cases hUnwinds
  unwinds := by
    intro hCut
    have hUnwinds := session.unwinds_reply thread request
    rw [hCut] at hUnwinds
    cases hOutcome : (session.reply thread request).outcome with
    | returned answer =>
      rw [hOutcome] at hUnwinds
      cases hUnwinds
    | unwound => exact hOutcome
  poisoned := by rw [after, unwinds_reply]
  inside := session.inside_after thread
  cut := by
    rintro origin event holds plan rfl hCut next
    obtain ⟨journal, hReply⟩ := session.reply_record thread origin event holds plan
    obtain ⟨⟨hEnabled, hOutside⟩, hCutShort⟩ := cutsShort_record.mp hCut
    have hCreates : session.profiler.creates (session.profiler.siteOf origin) event = true :=
      (Bool.and_eq_true_iff.mp hCutShort).1
    have hNext : next = { session.profiler.afterNested plan.actions with
        table := (session.profiler.table.lookup event.kind
          (session.profiler.siteOf origin)).table } := by
      simp only [next, after, hReply, Caller.recordedBy, Profiler.recorded, hEnabled, hOutside,
        hCutShort, hCreates, if_true, Bool.false_eq_true, if_false]
    refine ⟨by rw [hNext], ?_⟩
    have hNew := (threaded.creates_iff (session.profiler.siteOf origin) event).mp hCreates
    simp only [hNext, threaded.lookup_of_not_mem hNew]
    exact threaded.sites_create event.kind (session.profiler.siteOf origin)
  accepts := by
    rintro origin event holds plan rfl hEnabled hOutside hWhole
    obtain ⟨journal, hReply⟩ := session.reply_record thread origin event holds plan
    have hEnds : session.profiler.cutShort (session.profiler.siteOf origin) event plan = false := by
      simpa only [cutsShort, hEnabled, hOutside, Bool.not_false, Bool.true_and] using hWhole
    rw [after, hReply]
    simp only [Caller.recordedBy, hEnabled, hOutside, if_true, Bool.false_eq_true, if_false]
    exact Profiler.recorded_of_whole hEnds ▸
      Crew.tallied_recorded threaded (session.profiler.siteOf origin) event plan.actions

/-! ## Runs -/

theorem afterAll_calmAll (session : Session) (requests : List (ThreadId × Request)) :
    session.healed.afterAll (session.calmAll requests) = (session.afterAll requests).healed := by
  induction requests generalizing session with
  | nil => rfl
  | cons first rest ih =>
    obtain ⟨thread, request⟩ := first
    exact (congrArg (·.afterAll ((session.after thread request).calmAll rest))
      (session.after_calm thread request)).trans (ih (session.after thread request))

theorem reportAll_calmAll (session : Session) (requests : List (ThreadId × Request)) :
    session.healed.reportAll (session.calmAll requests) =
      (session.reportAll requests).map Report.settled := by
  induction requests generalizing session with
  | nil => rfl
  | cons first rest ih =>
    obtain ⟨thread, request⟩ := first
    have hReport : session.healed.report thread (session.calm thread request) =
        (session.report thread request).settled := by
      rw [report, reply_healed]
      exact session.report_calm thread request
    rw [calmAll, reportAll, hReport, after_calm, ih, reportAll, List.map_cons]

/-- A recording that is cut short costs its own event and nothing else.  With the bucket of each
looked up in its place, a session answers, notes and leaves the same, but for the poison in its
lock; and in any session, poisoned or not, all other calls return, outside the profiler every event
is recorded while recording is on, and the marks of the threads are put back. -/
theorem cut_short_costs_one_event (settings : Settings) (inside : ThreadId → Bool)
    (requests : List (ThreadId × Request)) :
    let start := ofSettings settings inside
    start.afterAll (start.calmAll requests) = (start.afterAll requests).healed ∧
    start.reportAll (start.calmAll requests) = (start.reportAll requests).map Report.settled ∧
    ∀ before thread request later, requests = before ++ (thread, request) :: later →
      (start.afterAll before).Weathers thread request := by
  intro start
  refine ⟨start.afterAll_calmAll requests, start.reportAll_calmAll requests, ?_⟩
  rintro before thread request later rfl
  exact weathers _ (threaded_afterAll settings inside before) thread request

/-- Thread 1 fails under two further holds while its bucket is announced, after a nested event;
it records there again, and thread 2 completes a cycle and asks for a profile. -/
def failingRequests : List (ThreadId × Request) :=
  [(1, .act (.record (.stack (.ofAddresses [7])) (.allocation 64)) 2
      ⟨[.record (.here [9]) (.release 1)], true⟩),
    (1, .act (.record (.stack (.ofAddresses [7])) (.allocation 8)) 0 {}),
    (2, .serve .cycle),
    (2, .serve (.memProfile [.zero] true))]

theorem cut_short_costs_one_event_poisoned :
    let start := ofSettings { hashChains := 1 } fun _ => false
    let final := start.afterAll failingRequests
    (start.reportAll failingRequests).map (·.outcome.unwinds) = [true, false, false, false] ∧
      final.poisoned = true ∧ final.inside 1 = false ∧ final.profiler.droppedEvents = 1 ∧
      start.afterAll (start.calmAll failingRequests) = final.healed ∧
      start.reportAll (start.calmAll failingRequests) =
        (start.reportAll failingRequests).map Report.settled :=
  have hWeathered := cut_short_costs_one_event { hashChains := 1 } (fun _ => false) failingRequests
  ⟨rfl, rfl, rfl, rfl, hWeathered.1, hWeathered.2.1⟩

end Session

end SiteProfiler
