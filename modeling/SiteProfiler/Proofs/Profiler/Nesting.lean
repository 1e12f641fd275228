import SiteProfiler.Proofs.Profiler.History

/-!
# Recordings and what is nested in them

Events that arrive on a thread inside the profiler are dropped and counted: they never reach the
table, and only switches made there take effect.  So whatever a thread does at the moment a new
bucket is announced, its recording leaves the same table; a failure at that moment costs the tally
of that one event and nothing else.
-/

namespace SiteProfiler

namespace Action

/-- Whether an action switches recording on or off. -/
def isSwitch : Action → Bool
  | .record _ _ => false
  | .enable | .disable => true

/-- Whether events are accepted after an action. -/
def switch (enabled : Bool) : Action → Bool
  | .record _ _ => enabled
  | .enable => true
  | .disable => false

/-- Whether events are accepted after some actions. -/
def switched (enabled : Bool) (actions : List Action) : Bool := actions.foldl switch enabled

/-- How many of some actions are recordings made while events are accepted. -/
def attempts : (enabled : Bool) → List Action → Nat
  | _, [] => 0
  | enabled, .record _ _ :: rest => enabled.toNat + attempts enabled rest
  | _, .enable :: rest => attempts true rest
  | _, .disable :: rest => attempts false rest

theorem switched_filter_isSwitch (enabled : Bool) (actions : List Action) :
    switched enabled (actions.filter isSwitch) = switched enabled actions := by
  induction actions generalizing enabled with
  | nil => rfl
  | cons action rest ih =>
    cases action with
    | record origin event => exact ih enabled
    | enable => exact ih true
    | disable => exact ih false

theorem attempts_filter_isSwitch (enabled : Bool) (actions : List Action) :
    attempts enabled (actions.filter isSwitch) = 0 := by
  induction actions generalizing enabled with
  | nil => rfl
  | cons action rest ih =>
    cases action with
    | record origin event => exact ih enabled
    | enable => exact ih true
    | disable => exact ih false

end Action

namespace Profiler

/-- Count some events as dropped. -/
def countDrops (profiler : Profiler) (count : Nat) : Profiler :=
  { profiler with droppedEvents := profiler.droppedEvents + count }

/-- The profiler after actions of a thread inside it. -/
def afterNested (profiler : Profiler) (actions : List Action) : Profiler :=
  { profiler.countDrops (Action.attempts profiler.enabled actions) with
    enabled := Action.switched profiler.enabled actions }

/-- The call stack that an event from some origin is recorded at. -/
def siteOf (profiler : Profiler) : Origin → CallStack
  | .stack stack => stack
  | .here walk => profiler.collector.capture walk

/-- Whether recording an event at a stack creates a bucket. -/
def creates (profiler : Profiler) (stack : CallStack) (event : Event) : Bool :=
  (profiler.table.lookup event.kind stack).created

/-- Whether a recording is left by unwinding: it creates a bucket and the plan fails. -/
def cutShort (profiler : Profiler) (stack : CallStack) (event : Event) (plan : AtCreation) : Bool :=
  profiler.creates stack event && plan.fails

/-- The profiler after an accepted recording.  What is nested in it happens only if it creates a
bucket; if that fails, the bucket stays and nothing is tallied. -/
def recorded (profiler : Profiler) (stack : CallStack) (event : Event) (plan : AtCreation) :
    Profiler :=
  let nested :=
    if profiler.creates stack event then profiler.afterNested plan.actions else profiler
  { nested with
    table :=
      if profiler.cutShort stack event plan then (profiler.table.lookup event.kind stack).table
      else profiler.table.record stack event }

theorem afterNested_cons (profiler : Profiler) (action : Action) (rest : List Action) :
    profiler.afterNested (action :: rest) =
      (profiler.afterNested [action]).afterNested rest := by
  cases action <;>
    simp [afterNested, countDrops, Action.switched, Action.switch, Action.attempts, Nat.add_assoc]

theorem afterNested_record (profiler : Profiler) (origin : Origin) (event : Event) :
    profiler.afterNested [.record origin event] =
      if profiler.enabled then profiler.countDropped else profiler := by
  obtain ⟨_, _, enabled, _, _, _, _⟩ := profiler
  cases enabled <;> rfl

end Profiler

namespace Caller

open Profiler

/-! ## On a thread inside the profiler -/

theorem record_of_disabled {caller : Caller} (hDisabled : caller.profiler.enabled = false)
    (stack : CallStack) (event : Event) (onCreation : Call Unit) :
    record stack event onCreation caller = quiet caller := by
  rw [record, hDisabled]
  rfl

theorem record_of_inside {caller : Caller} (hEnabled : caller.profiler.enabled = true)
    (hInside : caller.inside = true) (stack : CallStack) (event : Event) (onCreation : Call Unit) :
    record stack event onCreation caller =
      ⟨.returned (), { caller with profiler := caller.profiler.countDropped },
        [.reentrantDropped event.kind]⟩ := by
  simp only [record, guarded, hEnabled, hInside, if_true, List.nil_append]

theorem captureHere_of_disabled {caller : Caller} (hDisabled : caller.profiler.enabled = false)
    (walk : List Address) : captureHere walk caller = ⟨.returned none, caller, []⟩ := by
  rw [captureHere, hDisabled]
  rfl

theorem captureHere_of_inside {caller : Caller} (hEnabled : caller.profiler.enabled = true)
    (hInside : caller.inside = true) (walk : List Address) :
    captureHere walk caller =
      ⟨.returned none, { caller with profiler := caller.profiler.countDropped }, []⟩ := by
  simp only [captureHere, guarded, hEnabled, hInside, if_true]

/-- Outside the profiler a capture is a plain walk of the stack. -/
theorem captureHere_of_outside {caller : Caller} (hEnabled : caller.profiler.enabled = true)
    (hOutside : caller.inside = false) (walk : List Address) :
    captureHere walk caller =
      ⟨.returned (some (caller.profiler.collector.capture walk)), caller, []⟩ := by
  simp only [captureHere, guarded, hold, hEnabled, hOutside, if_true, Bool.false_eq_true, if_false,
    Outcome.map]
  rw [← hOutside]

/-- On a thread inside the profiler an action at most switches recording or counts a drop. -/
theorem act_of_inside {caller : Caller} (hInside : caller.inside = true) (action : Action)
    (onCreation : Call Unit) :
    ∃ journal, act action onCreation caller = ⟨.returned (),
      { caller with profiler := caller.profiler.afterNested [action] }, journal⟩ := by
  cases action with
  | enable => exact ⟨[], rfl⟩
  | disable => exact ⟨[], rfl⟩
  | record origin event =>
    rw [afterNested_record]
    cases origin with
    | stack stack =>
      cases hEnabled : caller.profiler.enabled with
      | false => exact ⟨_, record_of_disabled hEnabled stack event onCreation⟩
      | true => exact ⟨_, record_of_inside hEnabled hInside stack event onCreation⟩
    | here walk =>
      simp only [act, recordHere]
      cases hEnabled : caller.profiler.enabled with
      | false => exact ⟨_, by rw [captureHere_of_disabled hEnabled]; rfl⟩
      | true => exact ⟨_, by rw [captureHere_of_inside hEnabled hInside]; rfl⟩

theorem actAll_of_inside (actions : List Action) {caller : Caller}
    (hInside : caller.inside = true) :
    ∃ journal, actAll actions caller =
      ⟨.returned (), { caller with profiler := caller.profiler.afterNested actions }, journal⟩ := by
  induction actions generalizing caller with
  | nil => exact ⟨_, rfl⟩
  | cons action rest ih =>
    obtain ⟨journal, hAct⟩ := act_of_inside hInside action quiet
    obtain ⟨more, hRest⟩ :=
      @ih { caller with profiler := caller.profiler.afterNested [action] } hInside
    refine ⟨journal ++ more, ?_⟩
    simp only [actAll, hAct, hRest, ← afterNested_cons]

/-! ## On any thread -/

/-- With the table locked, what is nested happens between the creation of the bucket and the
tally. -/
theorem tallyAt_of_inside {caller : Caller} (hInside : caller.inside = true) (stack : CallStack)
    (event : Event) (plan : AtCreation) :
    ∃ journal, tallyAt stack event plan.run caller =
      ⟨if caller.profiler.cutShort stack event plan then .unwound else .returned (),
        { caller with profiler := caller.profiler.recorded stack event plan }, journal⟩ := by
  by_cases hCreated : (caller.profiler.table.lookup event.kind stack).created = true
  · obtain ⟨journal, hNested⟩ := @actAll_of_inside plan.actions
      { caller with
        profiler := { caller.profiler with
          table := (caller.profiler.table.lookup event.kind stack).table } } hInside
    simp only [tallyAt, Profiler.recorded, Profiler.cutShort, Profiler.creates, AtCreation.run,
      hCreated, hNested, if_true, Bool.true_and]
    cases plan.fails <;> exact ⟨_, rfl⟩
  · simp only [tallyAt, Profiler.recorded, Profiler.cutShort, Profiler.creates, hCreated, quiet,
      Bool.false_and, Bool.false_eq_true, if_false]
    exact ⟨_, rfl⟩

/-- Where a recording leaves the profiler. -/
def recordedBy (caller : Caller) (stack : CallStack) (event : Event) (plan : AtCreation) :
    Caller :=
  { caller with
    profiler :=
      if caller.profiler.enabled then
        if caller.inside then caller.profiler.countDropped
        else caller.profiler.recorded stack event plan
      else caller.profiler }

/-- How a recording ends. -/
def endingOf (caller : Caller) (stack : CallStack) (event : Event) (plan : AtCreation) :
    Outcome Unit :=
  if caller.profiler.enabled && !caller.inside && caller.profiler.cutShort stack event plan then
    .unwound
  else .returned ()

theorem record_eq (caller : Caller) (stack : CallStack) (event : Event) (plan : AtCreation) :
    ∃ journal, record stack event plan.run caller =
      ⟨caller.endingOf stack event plan, caller.recordedBy stack event plan, journal⟩ := by
  simp only [endingOf, recordedBy]
  cases hEnabled : caller.profiler.enabled with
  | false => exact ⟨_, record_of_disabled hEnabled stack event plan.run⟩
  | true =>
    cases hInside : caller.inside with
    | true =>
      refine ⟨[.reentrantDropped event.kind], ?_⟩
      rw [record_of_inside hEnabled hInside, hInside]
      rfl
    | false =>
      obtain ⟨journal, hTally⟩ :=
        @tallyAt_of_inside { caller with inside := true } rfl stack event plan
      refine ⟨journal, ?_⟩
      simp only [record, guarded, hold, hEnabled, hInside, hTally, if_true, Bool.false_eq_true,
        if_false, Bool.true_and, Bool.not_false]
      cases caller.profiler.cutShort stack event plan <;> rfl

/-- A recording of the thread's own stack is one at the stack captured: the two stages agree on
whether the event is accepted. -/
theorem act_record_eq (caller : Caller) (origin : Origin) (event : Event) (plan : AtCreation) :
    ∃ journal, act (.record origin event) plan.run caller =
      ⟨caller.endingOf (caller.profiler.siteOf origin) event plan,
        caller.recordedBy (caller.profiler.siteOf origin) event plan, journal⟩ := by
  cases origin with
  | stack stack => exact record_eq caller stack event plan
  | here walk =>
    obtain ⟨journal, hRecord⟩ :=
      record_eq caller (caller.profiler.collector.capture walk) event plan
    simp only [act, recordHere, siteOf]
    cases hEnabled : caller.profiler.enabled with
    | false =>
      refine ⟨[], ?_⟩
      simp only [captureHere_of_disabled hEnabled, endingOf, recordedBy, hEnabled,
        Bool.false_eq_true, if_false, Bool.false_and]
    | true =>
      cases hInside : caller.inside with
      | true =>
        refine ⟨[], ?_⟩
        simp only [captureHere_of_inside hEnabled hInside, endingOf, recordedBy, hEnabled, hInside,
          if_true, Bool.not_true, Bool.and_false, Bool.false_and, Bool.false_eq_true, if_false]
      | false =>
        refine ⟨journal, ?_⟩
        simp only [captureHere_of_outside hEnabled hInside, hRecord, List.nil_append]

end Caller

namespace Profiler

/-- The table after a recording: as it was, with the event tallied, or with no more than the
bucket of the event. -/
theorem table_recordedBy (caller : Caller) (stack : CallStack) (event : Event)
    (plan : AtCreation) :
    (caller.recordedBy stack event plan).profiler.table = caller.profiler.table ∨
      (caller.recordedBy stack event plan).profiler.table =
        caller.profiler.table.record stack event ∨
      (caller.recordedBy stack event plan).profiler.table =
        (caller.profiler.table.lookup event.kind stack).table := by
  simp only [Caller.recordedBy]
  split
  · split
    · exact .inl rfl
    · simp only [recorded]
      split
      · exact .inr (.inr rfl)
      · exact .inr (.inl rfl)
  · exact .inl rfl

theorem threaded_recordedBy {caller : Caller} (threaded : caller.profiler.table.Threaded)
    (stack : CallStack) (event : Event) (plan : AtCreation) :
    (caller.recordedBy stack event plan).profiler.table.Threaded := by
  rcases table_recordedBy caller stack event plan with hSame | hTallied | hLinked
  · exact hSame ▸ threaded
  · exact hTallied ▸ threaded.record stack event
  · exact hLinked ▸ threaded.lookup event.kind stack

end Profiler

end SiteProfiler
