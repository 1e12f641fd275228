import SiteProfiler.Proofs.Pause.Owners

/-!
# Who keeps the world stopped

A thread frees the semaphore before it lifts its stop.  A thread that queued for the semaphore
waits for that lift before it asks for its own stop, but one that finds the semaphore free does
not wait.  If it gets in between, the lift still to come takes its stop away while it holds its
token.  This is the only way to lose a stop: in runs where nobody takes the semaphore while a stop
is still on, every pause lasts until its token is dropped.
-/

namespace SiteProfiler

namespace Machine

/-- Acts within the protocol that overtake nobody. -/
def patient (machine : Machine) (act : Act) : Bool :=
  machine.within act && !machine.overtakes act

/-- Acts within the protocol of the other threads. -/
def elsewhere (t : ThreadId) (machine : Machine) (act : Act) : Bool :=
  machine.within act && decide (act.thread ≠ t)

theorem regular_run {acts : List Act} {machine : Machine}
    (hRun : start.run? within acts = some machine) : machine.Regular := by
  refine run_induction (motive := fun _ => Regular) regular_start ?_ acts machine hRun
  intro _ reached act next regular hWithin hAct
  exact regular.after (regular.follows hWithin hAct).1

/-- In a run where nobody overtakes, stops belong to those who asked for them. -/
theorem owned_run {acts : List Act} {machine : Machine}
    (hRun : start.run? patient acts = some machine) : machine.Regular ∧ machine.Owned := by
  refine run_induction (motive := fun _ reached => reached.Regular ∧ reached.Owned)
    ⟨regular_start, owned_start⟩ ?_ acts machine hRun
  rintro _ reached act next ⟨regular, owned⟩ hPatient hAct
  simp only [patient, Bool.and_eq_true, Bool.not_eq_true'] at hPatient
  obtain ⟨follows, hEnters⟩ := regular.follows hPatient.1 hAct
  refine ⟨regular.after follows, owned.passage regular.manned follows.passage ?_
    (hEnters hPatient.2)⟩
  intro u hU
  rw [standing, follows.others u hU, standing]

/-! ## What becomes of a stop -/

/-- A pause that no other thread is about to end. -/
structure Undisturbed (t : ThreadId) (machine : Machine) : Prop where
  regular : machine.Regular
  paused : machine.standing t = .paused
  stopped : machine.StoppedBy t
  none_restarting : ∀ u, u ≠ t → machine.standing u ≠ .restarting

theorem StoppedBy.keep {machine next : Machine} {t : ThreadId} (stopped : machine.StoppedBy t)
    (hGate : next.gate = machine.gate) : next.StoppedBy t := by
  obtain ⟨hStopper, hFlag⟩ := Prod.mk.inj (congrArg Gate.stop hGate)
  exact ⟨hStopper.trans stopped.1, hFlag.trans stopped.2⟩

/-- Acts of other threads leave such a pause undisturbed: they can neither get the semaphore nor
free it. -/
theorem Undisturbed.after {t : ThreadId} {machine next : Machine} {act : Act}
    (undisturbed : Undisturbed t machine) (hElsewhere : machine.elsewhere t act = true)
    (hAct : machine.act? act = some next) : Undisturbed t next := by
  obtain ⟨regular, hPaused, stopped, hNone⟩ := undisturbed
  simp only [elsewhere, Bool.and_eq_true, decide_eq_true_eq] at hElsewhere
  obtain ⟨hWithin, hOther⟩ := hElsewhere
  have follows := (regular.follows hWithin hAct).1
  have hHeld : machine.held = true := regular.manned.held_of_owns t (hPaused ▸ rfl)
  have hOwner : (machine.standing act.thread).owns = false := by
    rw [← Bool.not_eq_true]
    exact fun hOwns => hOther (regular.manned.unique _ t hOwns (hPaused ▸ rfl))
  have hCalm : next.gate = machine.gate ∧ next.standing act.thread ≠ .restarting := by
    cases follows.passage with
    | wander hWas hIs hGate =>
      refine ⟨hGate, fun hRestarting => ?_⟩
      rw [hRestarting] at hIs
      cases hIs
    | stay hIs hGate => exact ⟨hGate, hIs ▸ hNone _ hOther⟩
    | take hFree => cases hFree.symm.trans hHeld
    | turn hFree => cases hFree.symm.trans hHeld
    | enter hQuiet hWas => cases (hWas ▸ hOwner : Phase.turned.owns = false)
    | raise hWas => cases (hWas ▸ hOwner : Phase.entering.owns = false)
    | complete hAll hWas => cases (hWas ▸ hOwner : Phase.stopping.owns = false)
    | free hWas => cases (hWas ▸ hOwner : Phase.paused.owns = false)
    | lift hWas => exact absurd hWas (hNone _ hOther)
  refine ⟨regular.after follows, ?_, stopped.keep hCalm.1, fun u hU => ?_⟩
  · rw [standing, follows.others t (Ne.symm hOther)]
    exact hPaused
  · by_cases hActor : u = act.thread
    · rw [hActor]
      exact hCalm.2
    · rw [standing, follows.others u hActor]
      exact hNone u hU

/-- A thread moves unless it waits for something. -/
theorem Regular.move {machine : Machine} (regular : machine.Regular)
    (hAlive : machine.aborted = false) {u : ThreadId} {move : Move} {rest : List Move}
    (hTodo : (machine.thread u).todo = move :: rest) (hReady : move.waits = false)
    (woken : ThreadId) :
    machine.act? (.move u woken) = some (machine.perform u woken move rest) := by
  have hAwake : u ∉ machine.sleepers := by
    intro hAsleep
    obtain ⟨first, more, hHead, hWaits⟩ := regular.sleeping u hAsleep
    rw [hTodo] at hHead
    cases hHead
    cases hReady.symm.trans hWaits
  simp only [sleepers, List.mem_append, not_or] at hAwake
  have hCan : machine.canMove u = true := by
    simp [canMove, hAlive, hTodo, hAwake.1, hAwake.2]
  rw [act?, step?, hTodo]
  simp only [hCan, if_true]

/-- A thread that has freed the semaphore can go on to lift the stop. -/
theorem lift_of_restarting {t u : ThreadId} (hOther : u ≠ t) (todo : List Move) :
    ∀ machine : Machine, machine.Regular → machine.aborted = false →
      machine.standing u = .restarting → (machine.thread u).todo = todo →
      ∃ more next, machine.run? (elsewhere t) more = some next ∧ next.world.stopper = none := by
  have hElsewhere : ∀ machine : Machine, machine.elsewhere t (.move u u) = true := by
    simp [elsewhere, within, Act.thread, hOther]
  have hTokens : ∀ machine : Machine, machine.standing u = .restarting →
      (machine.thread u).tokens = [] :=
    fun machine hRestarting => tokens_eq_nil (by rw [hRestarting]; decide)
  induction todo with
  | nil =>
    intro machine _ _ hRestarting hTodo
    rw [standing_of_no_tokens (hTokens machine hRestarting), hTodo] at hRestarting
    cases hRestarting
  | cons move rest ih =>
    intro machine regular hAlive hRestarting hTodo
    have hNone := hTokens machine hRestarting
    have hPhase : phaseOf (move :: rest) = .restarting := by
      rw [← hTodo, ← standing_of_no_tokens hNone, hRestarting]
    by_cases hLift : move = .lift
    · subst hLift
      have hAct := regular.move hAlive hTodo rfl u
      exact ⟨[.move u u], _, run?_cons (hElsewhere machine) hAct [], rfl⟩
    · -- What comes before the lift neither waits nor leaves the phase.
      obtain ⟨hPasses, hReady⟩ : move.phase? = none ∧ move.waits = false := by
        cases move with
        | hold task held => exact ⟨rfl, rfl⟩
        | wakeOne => exact ⟨rfl, rfl⟩
        | wakeAll => exact ⟨rfl, rfl⟩
        | lift => exact absurd rfl hLift
        | dumpTask size allTasks => cases allTasks <;> cases hPhase
        | _ => cases hPhase
      have hAct := regular.move hAlive hTodo hReady u
      have follows := (regular.follows (by rfl) hAct).1
      have hNext : ((machine.perform u u move rest).thread u).todo = rest ∧
          ((machine.perform u u move rest).thread u).tokens = [] ∧
          (machine.perform u u move rest).aborted = false := by
        cases move with
        | hold task held => exact ⟨by simp [perform], by simpa [perform] using hNone, hAlive⟩
        | wakeOne => exact ⟨by simp [perform], by simpa [perform] using hNone, hAlive⟩
        | wakeAll => exact ⟨by simp [perform], by simpa [perform] using hNone, hAlive⟩
        | dumpTask size allTasks => cases allTasks <;> cases hPasses
        | _ => cases hPasses
      have hStill : (machine.perform u u move rest).standing u = .restarting := by
        rw [standing_of_no_tokens hNext.2.1, hNext.1]
        simpa [phaseOf, hPasses] using hPhase
      obtain ⟨more, next, hRun, hLifted⟩ :=
        ih _ (regular.after follows) hNext.2.2 hStill hNext.1
      have hRunCons := run?_cons (hElsewhere machine) hAct more
      exact ⟨.move u u :: more, next, hRunCons.trans hRun, hLifted⟩

/-- A stop that is on stays on while its owner keeps the token exactly if no other thread is
between freeing the semaphore and lifting the stop. -/
theorem Regular.keeps_stop_iff {machine : Machine} (regular : machine.Regular)
    (hAlive : machine.aborted = false) {t : ThreadId} (hPaused : machine.standing t = .paused)
    (stopped : machine.StoppedBy t) :
    (∀ more next, machine.run? (elsewhere t) more = some next → next.StoppedBy t) ↔
      ∀ u, u ≠ t → machine.standing u ≠ .restarting := by
  constructor
  · intro hKeeps u hOther hRestarting
    obtain ⟨more, next, hRun, hLifted⟩ :=
      lift_of_restarting hOther _ machine regular hAlive hRestarting rfl
    cases hLifted.symm.trans (hKeeps more next hRun).1
  · intro hNone more next hRun
    have hUndisturbed : Undisturbed t next := by
      refine run_induction (motive := fun _ => Undisturbed t)
        ⟨regular, hPaused, stopped, hNone⟩ ?_ more next hRun
      exact fun _ reached act after undisturbed hElsewhere hAct =>
        undisturbed.after hElsewhere hAct
    exact hUndisturbed.stopped

/-- Whoever stands paused in a run where nobody takes the semaphore during a stop has the world
stopped.  In any run, a pause that has the world stopped keeps it so, whatever the other threads
do, exactly if none of them is about to lift a stop. -/
theorem pause_owns_stop {acts : List Act} {machine : Machine}
    (hRun : start.run? within acts = some machine) {t : ThreadId}
    (hPaused : machine.standing t = .paused) :
    (start.run? patient acts = some machine →
      machine.StoppedBy t ∧ ∀ u, u ≠ t → machine.standing u ≠ .restarting) ∧
    (machine.aborted = false → machine.StoppedBy t →
      ((∀ more next, machine.run? (elsewhere t) more = some next → next.StoppedBy t) ↔
        ∀ u, u ≠ t → machine.standing u ≠ .restarting)) := by
  refine ⟨fun hPatient => ?_, fun hAlive stopped =>
    (regular_run hRun).keeps_stop_iff hAlive hPaused stopped⟩
  obtain ⟨regular, owned⟩ := owned_run hPatient
  have stopped := owned.stoppedBy regular (t := t) (hPaused ▸ rfl)
  refine ⟨stopped, fun u hOther hRestarting => ?_⟩
  have hStopper := owned.stopper_of_stops u (hRestarting ▸ rfl)
  exact hOther (Option.some.inj (hStopper.symm.trans stopped.1))

/-- Thread 2 asks for a pause while thread 1 has one, and gets it once thread 1 has dropped it. -/
def queuedRun : List Act :=
  .begin 1 (.acquire none) :: Act.moves 1 2 5 ++ .begin 2 (.acquire none) :: Act.moves 2 1 5 ++
    .begin 1 .release :: Act.moves 1 2 6 ++ Act.moves 2 1 6

/-- Thread 2 takes the semaphore after thread 1 has freed it and before thread 1 lifts its stop. -/
def overtakenRun : List Act :=
  .begin 1 (.acquire none) :: Act.moves 1 2 5 ++ .begin 1 .release :: Act.moves 1 2 2 ++
    .begin 2 (.acquire none) :: Act.moves 2 1 5 ++ Act.moves 1 2 2

theorem pause_owns_stop_queued : ∃ machine, start.run? within queuedRun = some machine ∧
    machine.standing 2 = .paused ∧ machine.StoppedBy 2 ∧
    ∀ more next, machine.run? (elsewhere 2) more = some next → next.StoppedBy 2 := by
  obtain ⟨hPatient, hKeeps⟩ := @pause_owns_stop queuedRun _ rfl 2 rfl
  obtain ⟨stopped, hNone⟩ := hPatient rfl
  exact ⟨_, rfl, rfl, stopped, (hKeeps rfl stopped).mpr hNone⟩

/-- The token of a thread that overtakes does not keep the world stopped. -/
theorem overtaken_loses_stop : ∃ machine, start.run? within overtakenRun = some machine ∧
    (machine.thread 2).tokens = [0] ∧ machine.returned? 2 = some .acquired ∧
    machine.world.stopper = none ∧ machine.world.stopRequested = false :=
  ⟨_, rfl, rfl, rfl, rfl, rfl⟩

end Machine

end SiteProfiler
