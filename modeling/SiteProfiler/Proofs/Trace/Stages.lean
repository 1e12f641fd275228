import SiteProfiler.Trace.Dump

/-!
# The stages of a dump

What each stage of a dump can do to the scene, with every call it makes allowed to fail: how it
ends, whether the semaphore is held afterwards, and what was observed on the way.
-/

namespace SiteProfiler

variable {σ α β : Type}

/-- The calls that leave the semaphore held if they fail: those made from when it is waited for
until there is a pause to drop, and the one that dropping a pause begins with. -/
def WorldCall.keepsSemaphore : WorldCall → Bool
  | setBlocked .. | setCollectionHold .. | stop => true
  | currentTask | currentWorker | start | visitTasks => false

/-- The scene with a new world, semaphore and buffer, and more observed. -/
def Scene.next (scene : Scene σ) (world : σ) (held : Bool) (out : TraceBuffer)
    (events : List Observed) : Scene σ :=
  ⟨world, held, out, scene.observed ++ events⟩

theorem Scene.next_next (scene : Scene σ) (world₁ world₂ : σ) (held₁ held₂ : Bool)
    (out₁ out₂ : TraceBuffer) (events₁ events₂ : List Observed) :
    (scene.next world₁ held₁ out₁ events₁).next world₂ held₂ out₂ events₂ =
      scene.next world₂ held₂ out₂ (events₁ ++ events₂) := by
  simp [next]

namespace Stage

theorem bind_apply (stage : Stage σ α) (next : α → Stage σ β) (scene : Scene σ) :
    (stage >>= next) scene =
      match stage scene with
      | (.returned value, after) => next value after
      | (.unwound, after) => (.unwound, after)
      | (.aborted, after) => (.aborted, after)
      | (.waiting, after) => (.waiting, after) := rfl

instance : LawfulMonad (Stage σ) := LawfulMonad.mk' (Stage σ)
  (fun stage => by
    funext scene
    change (stage >>= fun value => pure value) scene = stage scene
    rw [bind_apply]
    rcases stage scene with ⟨_ | _ | _ | _, _⟩ <;> rfl)
  (fun _ _ => rfl)
  (fun stage next last => by
    funext scene
    simp only [bind_apply]
    rcases stage scene with ⟨_ | _ | _ | _, _⟩ <;> rfl)

theorem call_apply (which : WorldCall) (answer : σ → Outcome α × σ) (scene : Scene σ) :
    call which answer scene =
      (ofOutcome (answer scene.world).1,
        scene.next (answer scene.world).2 scene.held scene.out [.call which scene.held]) := rfl

theorem note_apply (line : JournalLine) (scene : Scene σ) :
    note line scene = (.returned (), scene.next scene.world scene.held scene.out [.line line]) :=
  rfl

end Stage

namespace World

variable (world : World σ) (task : TaskId)

open Stage

/-- What is observed of taking the semaphore. -/
def waitEvents (task : TaskId) (held : Bool) : List Observed :=
  if held then [.call (.setBlocked task true) true, .call (.setBlocked task false) true] else []

/-- What is observed of taking the pause once the semaphore is taken. -/
def pauseEvents (task : TaskId) : List Observed :=
  [.call (.setCollectionHold task true) true, .call .stop true, .line (.paused task)]

/-- How far a pause is dropped: how that ends, whether the semaphore is held then, and what is
observed of it. -/
inductive Dropping (task : TaskId) : Ending Unit → Bool → List Observed → Prop where
  | kept : Dropping task .unwound true [.call (.setCollectionHold task false) true]
  | freed : Dropping task .unwound false
    [.call (.setCollectionHold task false) true, .call .start false]
  | resumed : Dropping task (.returned ()) false
    [.call (.setCollectionHold task false) true, .call .start false, .line (.resumed task)]

/-- Whether the calls made to drop a pause both return. -/
def drops (state : σ) : Bool :=
  match world.setCollectionHold task false state with
  | (.unwound, _) => false
  | (.returned (), allowed) =>
    match (world.start allowed).1 with
    | .unwound => false
    | .returned () => true

/-- Dropping a pause comes to its end exactly if both of its calls return. -/
theorem release_cases {scene : Scene σ} (hHeld : scene.held = true) :
    ∃ dropped state held events,
      world.release task scene = (dropped, scene.next state held scene.out events) ∧
      Dropping task dropped held events ∧
      dropped = if world.drops task scene.world then .returned () else .unwound := by
  rcases hHold : world.setCollectionHold task false scene.world with ⟨_ | _, held⟩
  · rcases hStart : world.start held with ⟨_ | _, started⟩
    · refine ⟨_, started, _, _, ?_, .resumed, by simp [drops, hHold, hStart]⟩
      simp [release, bind_apply, call_apply, note_apply, setHeld, ofOutcome, Scene.next, hHold,
        hStart, hHeld]
    · refine ⟨_, started, _, _, ?_, .freed, by simp [drops, hHold, hStart]⟩
      simp [release, bind_apply, call_apply, setHeld, ofOutcome, Scene.next, hHold, hStart, hHeld]
  · refine ⟨_, held, _, _, ?_, .kept, by simp [drops, hHold]⟩
    simp [release, bind_apply, call_apply, ofOutcome, Scene.next, hHold, hHeld]

/-- Taking the semaphore comes to nothing only for a task that finds it held. -/
theorem takeSemaphore_cases (scene : Scene σ) :
    (∃ state, world.takeSemaphore task scene =
      (.returned (), scene.next state true scene.out (waitEvents task scene.held))) ∨
    (scene.held = true ∧ ∃ state events blocked, (∀ line, .line line ∉ events) ∧
      world.takeSemaphore task scene =
        (.unwound, scene.next state true scene.out
          (events ++ [.call (.setBlocked task blocked) true]))) ∨
    (scene.held = true ∧ ∃ state, world.takeSemaphore task scene =
      (.waiting, scene.next state true scene.out [.call (.setBlocked task true) true])) := by
  cases hHeld : scene.held with
  | false =>
    refine .inl ⟨scene.world, ?_⟩
    simp [takeSemaphore, bind_apply, isHeld, setHeld, Scene.next, waitEvents, hHeld]
  | true =>
    rcases hBlock : world.setBlocked task true scene.world with ⟨_ | _, blocked⟩
    · rcases hFree : world.othersRelease blocked with ⟨isFree, waited⟩
      cases isFree with
      | false =>
        refine .inr (.inr ⟨rfl, waited, ?_⟩)
        simp [takeSemaphore, bind_apply, call_apply, isHeld, waitFor, ofOutcome, Scene.next, hBlock,
          hFree, hHeld]
      | true =>
        rcases hUnblock : world.setBlocked task false waited with ⟨_ | _, unblocked⟩
        · refine .inl ⟨unblocked, ?_⟩
          simp [takeSemaphore, bind_apply, call_apply, isHeld, waitFor, ofOutcome, Scene.next,
            waitEvents, hBlock, hFree, hUnblock, hHeld]
        · refine .inr (.inl ⟨rfl, unblocked, [.call (.setBlocked task true) true], false,
            by simp, ?_⟩)
          simp [takeSemaphore, bind_apply, call_apply, isHeld, waitFor, ofOutcome, Scene.next,
            hBlock, hFree, hUnblock, hHeld]
    · refine .inr (.inl ⟨rfl, blocked, [], true, by simp, ?_⟩)
      simp [takeSemaphore, bind_apply, call_apply, isHeld, ofOutcome, Scene.next, hBlock, hHeld]

/-- Taking a pause that fails keeps the semaphore: there is no pause yet that would be dropped. -/
theorem acquire_cases (scene : Scene σ) :
    (∃ state, world.acquire task scene =
      (.returned (), scene.next state true scene.out
        (waitEvents task scene.held ++ pauseEvents task))) ∨
    (∃ state events which, (∀ line, .line line ∉ events) ∧ which.keepsSemaphore = true ∧
      world.acquire task scene =
        (.unwound, scene.next state true scene.out (events ++ [.call which true]))) ∨
    (scene.held = true ∧ ∃ state, world.acquire task scene =
      (.waiting, scene.next state true scene.out [.call (.setBlocked task true) true])) := by
  rcases world.takeSemaphore_cases task scene with ⟨taken, hTaken⟩ |
    ⟨-, failed, events, blocked, hLines, hFailed⟩ | ⟨hHeld, waited, hWaiting⟩
  · have hLines : ∀ line, .line line ∉ waitEvents task scene.held := by
      intro line
      cases scene.held <;> simp [waitEvents]
    rcases hHold : world.setCollectionHold task true taken with ⟨_ | _, held⟩
    · rcases hStop : world.stop held with ⟨_ | _, stopped⟩
      · refine .inl ⟨stopped, ?_⟩
        simp [acquire, bind_apply, call_apply, note_apply, ofOutcome, Scene.next, hTaken, hHold,
          hStop, pauseEvents]
      · refine .inr (.inl ⟨stopped, waitEvents task scene.held ++
          [.call (.setCollectionHold task true) true], .stop, by simpa using hLines, rfl, ?_⟩)
        simp [acquire, bind_apply, call_apply, ofOutcome, Scene.next, hTaken, hHold, hStop]
    · refine .inr (.inl ⟨held, waitEvents task scene.held, .setCollectionHold task true,
        hLines, rfl, ?_⟩)
      simp [acquire, bind_apply, call_apply, ofOutcome, Scene.next, hTaken, hHold]
  · refine .inr (.inl ⟨failed, events, .setBlocked task blocked, hLines, rfl, ?_⟩)
    simp [acquire, bind_apply, hFailed]
  · refine .inr (.inr ⟨hHeld, waited, ?_⟩)
    simp [acquire, bind_apply, hWaiting]

end World

namespace Dumper

variable (dumper : Dumper σ)

open Stage

/-! ## Writing -/

/-- Writing the trace of a task changes nothing but the buffer. -/
theorem writeTask_cases (task : TaskInfo) (stack : CallStack) (scene : Scene σ) :
    ∃ outcome out, dumper.writeTask task stack scene =
      (ofOutcome outcome, { scene with out := out }) :=
  ⟨_, _, rfl⟩

theorem writeOthers_cases (current : TaskId) (tasks : List TaskSnapshot) (scene : Scene σ) :
    ∃ outcome out, dumper.writeOthers current tasks scene =
      (ofOutcome outcome, { scene with out := out }) := by
  induction tasks generalizing scene with
  | nil => exact ⟨.returned (), scene.out, rfl⟩
  | cons task rest ih =>
    by_cases hOther : task.info.id ≠ current
    · obtain ⟨wrote, out, hWrote⟩ := dumper.writeTask_cases task.info task.stack
        { scene with out := scene.out.pushText "\n" }
      cases wrote with
      | returned _ =>
        obtain ⟨outcome, after, hRest⟩ := ih { scene with out := out }
        refine ⟨outcome, after, ?_⟩
        rw [← hRest]
        simp [writeOthers, hOther, bind_apply, write, ofOutcome, hWrote]
      | unwound =>
        refine ⟨.unwound, out, ?_⟩
        simp [writeOthers, hOther, bind_apply, write, ofOutcome, hWrote]
    · obtain ⟨outcome, after, hRest⟩ := ih scene
      refine ⟨outcome, after, ?_⟩
      rw [← hRest]
      simp [writeOthers, hOther]

/-- Visiting the other tasks is one call of the world, which fails if writing a trace fails. -/
theorem visitOthers_cases (current : TaskId) (scene : Scene σ) :
    ∃ outcome out state, dumper.visitOthers current scene =
      (ofOutcome outcome, scene.next state scene.held out [.call .visitTasks scene.held]) := by
  rcases hVisit : dumper.world.visitTasks scene.world with ⟨tasks, ended, visited⟩
  let seen := scene.next visited scene.held scene.out [.call .visitTasks scene.held]
  obtain ⟨wrote, out, hWrote⟩ := dumper.writeOthers_cases current tasks seen
  have hVisited : dumper.visitOthers current scene =
      (dumper.writeOthers current tasks).bind (fun _ after => (ofOutcome ended, after)) seen := by
    rw [visitOthers, hVisit]
    rfl
  simp only [hVisited, Stage.bind, hWrote]
  cases wrote with
  | returned _ => exact ⟨ended, out, visited, rfl⟩
  | unwound => exact ⟨.unwound, out, visited, rfl⟩

/-- With the pause held, the tasks are visited only once the trace of the caller is written. -/
theorem writeAll_cases (current : TaskInfo) (stack : CallStack) (scene : Scene σ) :
    (∃ out, dumper.writeAll current stack scene = (.unwound, { scene with out := out })) ∨
    (∃ state out, dumper.writeAll current stack scene =
      (.unwound, scene.next state scene.held out [.call .visitTasks scene.held])) ∨
    (∃ state out, dumper.writeAll current stack scene =
      (.returned out.written, scene.next state scene.held out [.call .visitTasks scene.held])) := by
  obtain ⟨wrote, out, hWrote⟩ := dumper.writeTask_cases current stack scene
  cases wrote with
  | unwound =>
    refine .inl ⟨out, ?_⟩
    simp [writeAll, bind_apply, hWrote, ofOutcome]
  | returned _ =>
    obtain ⟨visit, after, state, hVisit⟩ :=
      dumper.visitOthers_cases current.id { scene with out := out }
    cases visit with
    | unwound =>
      refine .inr (.inl ⟨state, after, ?_⟩)
      simp [writeAll, bind_apply, hWrote, hVisit, ofOutcome, Scene.next]
    | returned _ =>
      refine .inr (.inr ⟨state, after, ?_⟩)
      simp [writeAll, bind_apply, hWrote, hVisit, ofOutcome, Scene.next, written]

end Dumper

end SiteProfiler
