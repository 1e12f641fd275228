import SiteProfiler.Pause.Script
import SiteProfiler.Proofs.Trace.Stages

/-!
# Dumps bracket their pause

A dump of all tasks can leave its pause in three ways: with its result, by unwinding, or because
the pause has moved it to another worker.  Each of them drops the pause, once and last.
-/

namespace SiteProfiler

/-! ## In the pause -/

/-- How a dump comes to leave its pause. -/
inductive Exit where
  | finished (written : Nat)
  | failed
  | moved (error : Rescheduled)
deriving DecidableEq, Repr

/-- How a dump ends that has left its pause, given how dropping the pause has ended.  A failure to
drop it ends the process if the dump is already unwinding, and unwinds from where the process would
have been ended otherwise. -/
def Exit.ending : Exit → Ending Unit → Ending Nat
  | finished written, .returned () => .returned written
  | failed, .returned () => .unwound
  | moved _, .returned () => .aborted
  | failed, .unwound => .aborted
  | finished _, .unwound | moved _, .unwound => .unwound
  | _, .aborted => .aborted
  | _, .waiting => .waiting

/-- What goes on in a pause that was taken on the worker `before` with the buffer at `out`, by what
the world answers when it is asked for the worker again: what is observed, how the pause is left,
and how the buffer is then. -/
inductive PauseCourse (before : WorkerId) (out : TraceBuffer) :
    Outcome WorkerId → List Observed → Exit → TraceBuffer → Prop where
  | unanswered : PauseCourse before out .unwound [.call .currentWorker true] .failed out
  | moved (after : WorkerId) (hMoved : before ≠ after) :
    PauseCourse before out (.returned after)
      [.call .currentWorker true, .line (.pauseBroken ⟨before, after⟩)]
      (.moved ⟨before, after⟩) out
  | unwritten (traces : TraceBuffer) :
    PauseCourse before out (.returned before) [.call .currentWorker true] .failed traces
  | unvisited (traces : TraceBuffer) :
    PauseCourse before out (.returned before)
      [.call .currentWorker true, .call .visitTasks true] .failed traces
  | visited (traces : TraceBuffer) :
    PauseCourse before out (.returned before)
      [.call .currentWorker true, .call .visitTasks true] (.finished traces.written) traces

/-- What is observed until a dump has its pause. -/
def enterEvents (task : TaskId) (held : Bool) : List Observed :=
  [.call .currentTask held, .call .currentWorker held] ++ World.waitEvents task held ++
    World.pauseEvents task

theorem line_mem_enterEvents (task : TaskId) (held : Bool) (line : JournalLine) :
    .line line ∈ enterEvents task held ↔ line = .paused task := by
  cases held <;> simp [enterEvents, World.waitEvents, World.pauseEvents]

/-- No call made to drop a pause has failed: if the task was let go, the world was resumed. -/
def DroppedInFull (task : TaskId) (observed : List Observed) : Prop :=
  ∀ held, .call (.setCollectionHold task false) held ∈ observed →
    .line (.resumed task) ∈ observed

instance (task : TaskId) (observed : List Observed) : Decidable (DroppedInFull task observed) :=
  inferInstanceAs (Decidable (∀ _ : Bool, _ → _))

namespace PauseCourse

variable {before : WorkerId} {out traces : TraceBuffer} {answer : Outcome WorkerId}
  {during events : List Observed} {exit : Exit} {current task : TaskId} {held left : Bool}
  {dropped : Ending Unit}

/-- Nothing is noted in a pause but that it is broken. -/
theorem line_mem (course : PauseCourse before out answer during exit traces) {line : JournalLine}
    (hLine : .line line ∈ during) : ∃ moved, line = .pauseBroken moved := by
  cases course with
  | moved after => exact ⟨⟨before, after⟩, by simpa using hLine⟩
  | unanswered | unwritten | unvisited | visited => simp at hLine

/-- From its start to its end, a dump notes a pause for its own task only. -/
theorem paused_mem (course : PauseCourse before out answer during exit traces)
    (dropping : World.Dropping current dropped left events)
    (hLine : .line (.paused task) ∈ enterEvents current held ++ during ++ events) :
    task = current := by
  rw [List.mem_append, List.mem_append, line_mem_enterEvents] at hLine
  rcases hLine with (hPaused | hDuring) | hEvents
  · injection hPaused
  · obtain ⟨_, hBroken⟩ := course.line_mem hDuring
    cases hBroken
  · cases dropping <;> simp at hEvents

/-- That the world is resumed is noted only when nothing has failed in dropping the pause. -/
theorem resumed_mem (course : PauseCourse before out answer during exit traces)
    (dropping : World.Dropping current dropped left events)
    (hLine : .line (.resumed task) ∈ enterEvents current held ++ during ++ events) :
    dropped = .returned () := by
  rw [List.mem_append, List.mem_append, line_mem_enterEvents] at hLine
  rcases hLine with (hPaused | hDuring) | hEvents
  · cases hPaused
  · obtain ⟨_, hBroken⟩ := course.line_mem hDuring
    cases hBroken
  · cases dropping with
    | kept | freed => simp at hEvents
    | resumed => rfl

/-- A pause is observed to be dropped in full exactly if dropping it has come to its end. -/
theorem droppedInFull_iff (course : PauseCourse before out answer during exit traces)
    (dropping : World.Dropping current dropped left events) :
    DroppedInFull current (enterEvents current held ++ during ++ events) ↔
      dropped = .returned () := by
  constructor
  · intro hDropped
    have hLetGo : .call (.setCollectionHold current false) true ∈ events := by
      cases dropping <;> simp
    exact course.resumed_mem dropping
      (hDropped true (List.mem_append_right (enterEvents current held ++ during) hLetGo))
  · rintro rfl
    cases dropping with
    | resumed =>
      intro _ _
      exact List.mem_append_right _ (by simp)

end PauseCourse

namespace Dumper

variable {σ : Type} (dumper : Dumper σ)

open Stage World

/-! ## Taking the pause -/

/-- What a dump of all tasks does until it has its pause; the caller's task and worker. -/
def enter : Stage σ (TaskInfo × WorkerId) := do
  let current ← call .currentTask dumper.world.currentTask
  let before ← call .currentWorker dumper.world.currentWorker
  dumper.world.acquire current.id
  return (current, before)

/-- A dump that does not get its pause leaves the semaphore alone, or keeps it because of the call
that failed, or waits for it.  Nothing is noted before the pause is there. -/
theorem enter_cases (scene : Scene σ) :
    (∃ current before state,
      (dumper.world.currentTask scene.world).1 = .returned current ∧
      (dumper.world.currentWorker (dumper.world.currentTask scene.world).2).1 = .returned before ∧
      dumper.enter scene = (.returned (current, before),
        scene.next state true scene.out (enterEvents current.id scene.held))) ∨
    (∃ state events which, (∀ line, .line line ∉ events) ∧ which.keepsSemaphore = false ∧
      dumper.enter scene =
        (.unwound, scene.next state scene.held scene.out (events ++ [.call which scene.held]))) ∨
    (∃ state events which, (∀ line, .line line ∉ events) ∧ which.keepsSemaphore = true ∧
      dumper.enter scene =
        (.unwound, scene.next state true scene.out (events ++ [.call which true]))) ∨
    (scene.held = true ∧ ∃ state events, (∀ line, .line line ∉ events) ∧
      dumper.enter scene = (.waiting, scene.next state true scene.out events)) := by
  rcases hTask : dumper.world.currentTask scene.world with ⟨current | _, named⟩
  · rcases hWorker : dumper.world.currentWorker named with ⟨before | _, placed⟩
    · let opening : List Observed :=
        [.call .currentTask scene.held, .call .currentWorker scene.held]
      let asked := scene.next placed scene.held scene.out opening
      have hOpening : ∀ line, .line line ∉ opening := by simp [opening]
      have hEnter : dumper.enter scene =
          (dumper.world.acquire current.id >>= fun _ => pure (current, before)) asked := by
        simp only [enter, bind_apply, call_apply, hTask, ofOutcome]
        simp [Scene.next, asked, opening, hWorker]
      rcases dumper.world.acquire_cases current.id asked with ⟨stopped, hAcquire⟩ |
        ⟨failed, events, which, hLines, hKeeps, hAcquire⟩ | ⟨hHeld, waited, hAcquire⟩
      · refine .inl ⟨current, before, stopped, rfl, rfl, ?_⟩
        simp only [hEnter, bind_apply, hAcquire, asked, Scene.next_next, enterEvents,
          ← List.append_assoc]
        rfl
      · refine .inr (.inr (.inl ⟨failed, opening ++ events, which, ?_, hKeeps, ?_⟩))
        · intro line
          simp [hOpening line, hLines line]
        · simp only [hEnter, bind_apply, hAcquire, asked, Scene.next_next, List.append_assoc]
          rfl
      · refine .inr (.inr (.inr ⟨hHeld, waited,
          opening ++ [.call (.setBlocked current.id true) true], ?_, ?_⟩))
        · intro line
          simp [hOpening line]
        · simp only [hEnter, bind_apply, hAcquire, asked, Scene.next_next]
          rfl
    · refine .inr (.inl ⟨placed, [.call .currentTask scene.held], .currentWorker, by simp, rfl, ?_⟩)
      simp [enter, bind_apply, call_apply, hTask, hWorker, ofOutcome, Scene.next]
  · refine .inr (.inl ⟨named, [], .currentTask, by simp, rfl, ?_⟩)
    simp only [enter, bind_apply, call_apply, hTask, ofOutcome, List.nil_append]

/-! ## Leaving the pause -/

/-- What a dump of all tasks does from when it has its pause. -/
def proceed (current : TaskInfo) (before : WorkerId) : Stage σ Nat := do
  let after ← dumper.world.releasingOnUnwind current.id
    (call .currentWorker dumper.world.currentWorker)
  match checkWorker before after with
  | .error moved => dumper.breakOff current.id moved
  | .ok () =>
    dumper.world.releasing current.id
      (dumper.writeAll current (dumper.collector.capture dumper.walk))

theorem dumpInto_true :
    dumper.dumpInto true = dumper.enter >>= fun caller => dumper.proceed caller.1 caller.2 := by
  simp only [dumpInto, enter, bind_assoc, pure_bind, if_true]
  rfl

/-- What is done with the pause, up to where it is dropped. -/
def work (current : TaskInfo) (before : WorkerId) (paused : Scene σ) : Exit × Scene σ :=
  match call .currentWorker dumper.world.currentWorker paused with
  | (.returned after, asked) =>
    match checkWorker before after with
    | .error moved => (.moved moved, (note (.pauseBroken moved) asked).2)
    | .ok () =>
      match dumper.writeAll current (dumper.collector.capture dumper.walk) asked with
      | (.returned written, worked) => (.finished written, worked)
      | (_, worked) => (.failed, worked)
  | (_, asked) => (.failed, asked)

/-- The work takes one of the courses, and keeps the semaphore all along. -/
theorem work_cases (current : TaskInfo) (before : WorkerId) {paused : Scene σ}
    (hHeld : paused.held = true) :
    ∃ state out during exit,
      dumper.work current before paused = (exit, paused.next state true out during) ∧
      PauseCourse before paused.out (dumper.world.currentWorker paused.world).1 during exit
        out := by
  rcases hAnswer : dumper.world.currentWorker paused.world with ⟨after | _, state⟩
  · by_cases hSame : before = after
    · subst hSame
      let asked := paused.next state true paused.out [.call .currentWorker true]
      have hCheck : checkWorker before before = .ok () := if_pos rfl
      have hAsked : call .currentWorker dumper.world.currentWorker paused =
          (.returned before, asked) := by
        simp [call_apply, ofOutcome, hAnswer, hHeld, asked]
      rcases dumper.writeAll_cases current (dumper.collector.capture dumper.walk) asked with
        ⟨traces, hWrite⟩ | ⟨visited, traces, hWrite⟩ | ⟨visited, traces, hWrite⟩
      · refine ⟨state, traces, _, _, ?_, .unwritten traces⟩
        simp only [work, hAsked, hCheck, hWrite]
        rfl
      · refine ⟨visited, traces, _, _, ?_, .unvisited traces⟩
        simp only [work, hAsked, hCheck, hWrite, asked, Scene.next_next]
        rfl
      · refine ⟨visited, traces, _, _, ?_, .visited traces⟩
        simp only [work, hAsked, hCheck, hWrite, asked, Scene.next_next]
        rfl
    · have hCheck : checkWorker before after = .error ⟨before, after⟩ := if_neg hSame
      refine ⟨state, paused.out, _, _, ?_, .moved after hSame⟩
      simp [work, call_apply, note_apply, ofOutcome, Scene.next, hAnswer, hHeld, hCheck]
  · refine ⟨state, paused.out, _, _, ?_, .unanswered⟩
    simp [work, call_apply, ofOutcome, Scene.next, hAnswer, hHeld]

/-- Whichever way a dump leaves its pause, it drops it there and only there. -/
theorem proceed_eq (current : TaskInfo) (before : WorkerId) (paused : Scene σ) :
    dumper.proceed current before paused =
      let (exit, worked) := dumper.work current before paused
      let (dropped, ended) := dumper.world.release current.id worked
      (exit.ending dropped, ended) := by
  rcases hAnswer : dumper.world.currentWorker paused.world with ⟨after | _, state⟩
  · let asked := paused.next state paused.held paused.out [.call .currentWorker paused.held]
    have hAsked : call .currentWorker dumper.world.currentWorker paused =
        (.returned after, asked) := by
      simp only [call_apply, hAnswer, ofOutcome, asked]
    cases hCheck : checkWorker before after with
    | error moved =>
      simp only [proceed, bind_apply, releasingOnUnwind, hAsked, hCheck, breakOff, work,
        note_apply]
      rcases dumper.world.release current.id _ with ⟨_ | _ | _ | _, _⟩ <;> rfl
    | ok =>
      simp only [proceed, bind_apply, releasingOnUnwind, hAsked, hCheck, work, releasing]
      rcases dumper.writeAll_cases current (dumper.collector.capture dumper.walk) asked with
        ⟨_, hWrite⟩ | ⟨_, _, hWrite⟩ | ⟨_, _, hWrite⟩
      all_goals
        simp only [hWrite]
        rcases dumper.world.release current.id _ with ⟨_ | _ | _ | _, _⟩ <;> rfl
  · simp only [proceed, bind_apply, releasingOnUnwind, hAnswer, work, call_apply, ofOutcome]
    rcases dumper.world.release current.id _ with ⟨_ | _ | _ | _, _⟩ <;> rfl

/-- A dump of all tasks that gets its pause takes one of the courses and drops the pause. -/
theorem dumpInto_of_enter {scene : Scene σ} {current : TaskInfo} {before : WorkerId} {state : σ}
    (hEnter : dumper.enter scene = (.returned (current, before),
      scene.next state true scene.out (enterEvents current.id scene.held))) :
    ∃ during exit dropped ended left out events,
      dumper.dumpInto true scene = (exit.ending dropped, scene.next ended left out
        (enterEvents current.id scene.held ++ during ++ events)) ∧
      PauseCourse before scene.out (dumper.world.currentWorker state).1 during exit out ∧
      Dropping current.id dropped left events ∧
      dropped = if dumper.world.drops current.id (dumper.work current before
          (scene.next state true scene.out (enterEvents current.id scene.held))).2.world then
        .returned () else .unwound := by
  let paused := scene.next state true scene.out (enterEvents current.id scene.held)
  have hHeld : paused.held = true := rfl
  obtain ⟨worked, out, during, exit, hWork, course⟩ := dumper.work_cases current before hHeld
  have hKept : (paused.next worked true out during).held = true := rfl
  obtain ⟨dropped, ended, left, events, hDrop, dropping, hOutcome⟩ :=
    dumper.world.release_cases current.id hKept
  have hProceed : dumper.dumpInto true scene = dumper.proceed current before paused := by
    rw [dumpInto_true, bind_apply, hEnter]
  refine ⟨during, exit, dropped, ended, left, out, events, ?_, course, dropping, ?_⟩
  · rw [Scene.next_next, Scene.next_next] at hDrop
    simp only [hProceed, proceed_eq, hWork, hDrop, paused, Scene.next_next]
    rfl
  · rw [hWork]
    exact hOutcome

/-! ## Whole dumps -/

theorem dump_of_ne_nil {storage : List UInt8} (hStorage : storage ≠ []) (allTasks : Bool)
    (state : σ) (held : Bool) :
    dumper.dump storage allTasks state held =
      dumper.dumpInto allTasks ⟨state, held, .ofStorage storage, []⟩ := by
  cases storage with
  | nil => exact absurd rfl hStorage
  | cons _ _ => rfl

/-- What is observed tells whether a dump drops its pause in full: it does exactly if the two calls
that are made to drop it, once the work in the pause is done, both return. -/
theorem droppedInFull_iff_drops {storage : List UInt8} (hStorage : storage ≠ []) {state stopped : σ}
    {held : Bool} {current : TaskInfo} {before : WorkerId}
    (hEnter : dumper.enter ⟨state, held, .ofStorage storage, []⟩ =
      (.returned (current, before),
        ⟨stopped, true, .ofStorage storage, enterEvents current.id held⟩)) :
    DroppedInFull current.id (dumper.dump storage true state held).2.observed ↔
      dumper.world.drops current.id (dumper.work current before
        ⟨stopped, true, .ofStorage storage, enterEvents current.id held⟩).2.world = true := by
  obtain ⟨during, exit, dropped, ended, left, out, events, hDump, course, dropping, hOutcome⟩ :=
    dumper.dumpInto_of_enter hEnter
  have hObserved : (dumper.dump storage true state held).2.observed =
      enterEvents current.id held ++ during ++ events := by
    rw [dumper.dump_of_ne_nil hStorage, hDump]
    rfl
  let paused : Scene σ := ⟨stopped, true, .ofStorage storage, enterEvents current.id held⟩
  have hDropped : dropped = if dumper.world.drops current.id
      (dumper.work current before paused).2.world then .returned () else .unwound := hOutcome
  rw [hObserved, course.droppedInFull_iff dropping, hDropped]
  cases dumper.world.drops current.id (dumper.work current before paused).2.world <;> simp

/-- A dump of the caller alone ends by itself, and asks the world only for the caller's task. -/
theorem dumpInto_false (scene : Scene σ) :
    ∃ outcome state out, dumper.dumpInto false scene =
      (ofOutcome outcome,
        scene.next state scene.held out [.call .currentTask scene.held]) := by
  rcases hTask : dumper.world.currentTask scene.world with ⟨current | _, named⟩
  · obtain ⟨wrote, out, hWrote⟩ := dumper.writeTask_cases current
      (dumper.collector.capture dumper.walk)
      (scene.next named scene.held scene.out [.call .currentTask scene.held])
    simp only [dumpInto, Bool.false_eq_true, if_false, bind_apply, call_apply, hTask, ofOutcome,
      hWrote]
    cases wrote with
    | returned _ => exact ⟨.returned out.written, named, out, rfl⟩
    | unwound => exact ⟨.unwound, named, out, rfl⟩
  · refine ⟨.unwound, named, scene.out, ?_⟩
    simp only [dumpInto, bind_apply, call_apply, hTask, ofOutcome]

/-- A dump of all tasks whose world has stopped makes its calls with the semaphore held from then
on, lets its task go as the last of these, frees the semaphore and starts the world, whichever way
it leaves the pause, unless a call made to drop the pause fails.  The tasks are visited only if the
caller is still on its worker; if it is not, that is noted before the pause is dropped, and nothing
is written.  A dump of the caller alone or into no storage has nothing to do with pauses. -/
theorem dump_brackets (storage : List UInt8) (state : σ) (held : Bool) :
    (∀ task, storage ≠ [] →
      .line (.paused task) ∈ (dumper.dump storage true state held).2.observed →
      DroppedInFull task (dumper.dump storage true state held).2.observed →
      ∃ current before stopped during exit,
        current.id = task ∧
        (dumper.world.currentTask state).1 = .returned current ∧
        (dumper.world.currentWorker (dumper.world.currentTask state).2).1 = .returned before ∧
        dumper.enter ⟨state, held, .ofStorage storage, []⟩ =
          (.returned (current, before),
            ⟨stopped, true, .ofStorage storage, enterEvents task held⟩) ∧
        PauseCourse before (.ofStorage storage) (dumper.world.currentWorker stopped).1 during exit
          (dumper.dump storage true state held).2.out ∧
        (dumper.dump storage true state held).2.observed =
          enterEvents task held ++ during ++
            [.call (.setCollectionHold task false) true, .call .start false,
              .line (.resumed task)] ∧
        (dumper.dump storage true state held).2.held = false ∧
        (dumper.dump storage true state held).1 = exit.ending (.returned ())) ∧
    ∀ allTasks, allTasks = false ∨ storage = [] →
      (dumper.dump storage allTasks state held).2.held = held ∧
        (dumper.dump storage allTasks state held).2.observed.Sublist
          [.call .currentTask held] := by
  refine ⟨?_, ?_⟩
  · intro task hStorage hStopped hDropped
    rw [dumper.dump_of_ne_nil hStorage] at hStopped hDropped ⊢
    rcases dumper.enter_cases ⟨state, held, .ofStorage storage, []⟩ with
      ⟨current, before, stopped, hTask, hWorker, hEnter⟩ | ⟨_, events, which, hLines, _, hEnter⟩ |
      ⟨_, events, which, hLines, _, hEnter⟩ | ⟨_, _, events, hLines, hEnter⟩
    · obtain ⟨during, exit, dropped, ended, left, out, events, hDump, course, dropping, -⟩ :=
        dumper.dumpInto_of_enter hEnter
      rw [hDump] at hStopped hDropped ⊢
      obtain rfl : task = current.id := course.paused_mem dropping hStopped
      obtain rfl : dropped = .returned () := (course.droppedInFull_iff dropping).mp hDropped
      cases dropping with
      | resumed =>
        exact ⟨current, before, stopped, during, exit, rfl, hTask, hWorker, hEnter, course, rfl,
          rfl, rfl⟩
    · simp [dumpInto_true, bind_apply, hEnter, Scene.next, hLines] at hStopped
    · simp [dumpInto_true, bind_apply, hEnter, Scene.next, hLines] at hStopped
    · simp [dumpInto_true, bind_apply, hEnter, Scene.next, hLines] at hStopped
  · intro allTasks hAlone
    by_cases hStorage : storage = []
    · subst hStorage
      exact ⟨rfl, List.nil_sublist _⟩
    · obtain rfl : allTasks = false := hAlone.resolve_right hStorage
      rw [dumper.dump_of_ne_nil hStorage]
      obtain ⟨_, _, _, hDump⟩ := dumper.dumpInto_false ⟨state, held, .ofStorage storage, []⟩
      rw [hDump]
      exact ⟨rfl, List.Sublist.refl _⟩

/-- A dumper whose pauses move it from worker 3 to worker 7. -/
def uprooted : Dumper Nat where
  world := Script.world ⟨⟨1, .running⟩, [], [3, 7], fun _ => false⟩
  formatter := .failing
  collector := ⟨maxFrames, 0⟩
  walk := []

theorem dump_brackets_uprooted :
    .line (.paused 1) ∈ (uprooted.dump [0] true 0 false).2.observed ∧
      DroppedInFull 1 (uprooted.dump [0] true 0 false).2.observed ∧
      (uprooted.dump [0] true 0 false).1 = .aborted ∧
      ∃ during,
        (uprooted.dump [0] true 0 false).2.observed = enterEvents 1 false ++ during ++
          [.call (.setCollectionHold 1 false) true, .call .start false, .line (.resumed 1)] := by
  have hStopped : .line (.paused 1) ∈ (uprooted.dump [0] true 0 false).2.observed := by decide
  have hDropped : DroppedInFull 1 (uprooted.dump [0] true 0 false).2.observed := by decide
  obtain ⟨_, _, _, during, _, _, _, _, _, _, hObserved, _⟩ :=
    (uprooted.dump_brackets [0] 0 false).1 1 (by decide) hStopped hDropped
  exact ⟨hStopped, hDropped, by decide, during, hObserved⟩

end Dumper

end SiteProfiler
