import SiteProfiler.Proofs.Trace.Bracketing

/-!
# Dumps that their pause has moved

A dump whose caller came back from the pause on another worker notes so, drops the pause and then
ends the process.  Dropping the pause makes two calls of the world, and what they do decides whether
the end of the process is reached: if one of them fails, the dump is left by unwinding instead.
-/

namespace SiteProfiler

namespace Dumper

variable {σ : Type} (dumper : Dumper σ)

open Stage World

/-- A dump that got its pause holds the semaphore, and has written nothing yet. -/
theorem paused_of_enter {scene paused : Scene σ} {current : TaskInfo} {before : WorkerId}
    (hEnter : dumper.enter scene = (.returned (current, before), paused)) :
    paused.held = true ∧ paused.out = scene.out ∧
      paused.observed = scene.observed ++ enterEvents current.id scene.held := by
  rcases dumper.enter_cases scene with ⟨_, _, state, -, -, hCase⟩ | ⟨_, _, _, -, -, hCase⟩ |
    ⟨_, _, _, -, -, hCase⟩ | ⟨-, _, _, -, hCase⟩
  · rw [hCase] at hEnter
    cases hEnter
    exact ⟨rfl, rfl, rfl⟩
  all_goals
    rw [hCase] at hEnter
    cases hEnter

/-- The work of a dump that its pause has moved is to note that. -/
theorem work_of_moved {current : TaskInfo} {before after : WorkerId} {paused : Scene σ}
    (hHeld : paused.held = true)
    (hAnswer : (dumper.world.currentWorker paused.world).1 = .returned after)
    (hMoved : before ≠ after) :
    dumper.work current before paused = (.moved ⟨before, after⟩,
      paused.next (dumper.world.currentWorker paused.world).2 true paused.out
        [.call .currentWorker true, .line (.pauseBroken ⟨before, after⟩)]) := by
  have hCheck : checkWorker before after = .error ⟨before, after⟩ := if_neg hMoved
  simp [work, call_apply, note_apply, ofOutcome, Scene.next, hHeld, hAnswer, hCheck]

/-- A dump that is told another worker after its pause was taken than before has noted so, with the
semaphore held and nothing written, before it drops the pause.  It ends the process exactly if the
two calls made to drop the pause return; if one of them fails, the dump unwinds to its caller. -/
theorem moved_dump_aborts_iff_drops {storage : List UInt8} (hStorage : storage ≠ []) {state : σ}
    {held : Bool} {current : TaskInfo} {before after : WorkerId} {paused : Scene σ}
    (hEnter : dumper.enter ⟨state, held, .ofStorage storage, []⟩ =
      (.returned (current, before), paused))
    (hAnswer : (dumper.world.currentWorker paused.world).1 = .returned after)
    (hMoved : before ≠ after) :
    let ended := dumper.dump storage true state held
    let dropped := dumper.world.drops current.id (dumper.world.currentWorker paused.world).2
    ended.1 = (if dropped then .aborted else .unwound) ∧
      ended.2.out = .ofStorage storage ∧
      ∃ events,
        Dropping current.id (if dropped then .returned () else .unwound) ended.2.held events ∧
        ended.2.observed = enterEvents current.id held ++
          [.call .currentWorker true, .line (.pauseBroken ⟨before, after⟩)] ++ events := by
  intro ended dropped
  obtain ⟨hHeld, hOut, hObserved⟩ := dumper.paused_of_enter hEnter
  let noted := paused.next (dumper.world.currentWorker paused.world).2 true paused.out
    [.call .currentWorker true, .line (.pauseBroken ⟨before, after⟩)]
  have hWork : dumper.work current before paused = (.moved ⟨before, after⟩, noted) :=
    dumper.work_of_moved hHeld hAnswer hMoved
  have hNoted : noted.held = true := rfl
  obtain ⟨outcome, last, left, events, hRelease, dropping, hReturns⟩ :=
    dumper.world.release_cases current.id hNoted
  have hOutcome : outcome = if dropped then .returned () else .unwound := hReturns
  have hEnded : ended = ((Exit.moved ⟨before, after⟩).ending outcome,
      noted.next last left noted.out events) := by
    change dumper.dump storage true state held = _
    rw [dumper.dump_of_ne_nil hStorage, dumpInto_true, bind_apply, hEnter]
    simp only [proceed_eq, hWork, hRelease]
  rw [hEnded, ← hOutcome]
  refine ⟨?_, hOut, events, dropping, ?_⟩
  · rw [hOutcome]
    cases dropped <;> rfl
  · simp only [noted, Scene.next, hObserved, List.nil_append]

/-- A dumper that is moved from worker 3 to worker 7 in a world with some failing calls. -/
def movedIn (fails : WorldCall → Bool) : Dumper Nat :=
  { uprooted with world := Script.world ⟨⟨1, .running⟩, [], [3, 7], fails⟩ }

theorem moved_dump_aborts_iff_drops_smoothly :
    let dumper := movedIn fun _ => false
    dumper.enter ⟨0, false, .ofStorage [0], []⟩ =
        (.returned (⟨1, .running⟩, 3), ⟨1, true, .ofStorage [0], enterEvents 1 false⟩) ∧
      (dumper.world.currentWorker 1).1 = .returned 7 ∧ 3 ≠ 7 ∧
      (dumper.dump [0] true 0 false).1 = .aborted := by
  intro dumper
  have hStorage : ([0] : List UInt8) ≠ [] := by decide
  have hEnter : dumper.enter ⟨0, false, .ofStorage [0], []⟩ =
      (.returned (⟨1, .running⟩, 3), ⟨1, true, .ofStorage [0], enterEvents 1 false⟩) := rfl
  have hAnswer : (dumper.world.currentWorker 1).1 = .returned 7 := rfl
  have hMoved : 3 ≠ 7 := by decide
  exact ⟨hEnter, hAnswer, hMoved,
    (dumper.moved_dump_aborts_iff_drops hStorage hEnter hAnswer hMoved).1⟩

/-- If starting the world again fails, the caller of a moved dump outlives it: the dump has noted
that it was moved, and unwinds. -/
theorem failed_drop_outlives_move :
    let ended := (movedIn (· = .start)).dump [0] true 0 false
    .line (.pauseBroken ⟨3, 7⟩) ∈ ended.2.observed ∧ ended.1 = .unwound := by
  decide

end Dumper

end SiteProfiler
