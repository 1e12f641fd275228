import SiteProfiler.Proofs.Pause.Parties

/-!
# Pauses do not deadlock

Suppose that no thread of a party can go on.  Then every thread that is inside a call sleeps, and
what it sleeps on has not come about.  A thread with the world stopped would wait for another task
that is not at a safe point, but tasks of sleeping threads are parked or marked as blocked.  So no
stop is on, everyone waits for the semaphore, and somebody holds it or has been notified of it.
-/

namespace SiteProfiler

/-- How a thread can fail to go on. -/
inductive Stalled (machine : Machine) (t : ThreadId) : Prop where
  | finished (hTodo : (machine.thread t).todo = []) (hStanding : machine.standing t = .outside)
  | queued (hQueue : t ∈ machine.queue) (hStanding : machine.standing t = .waiting)
  | turned (hStopped : machine.world.stoppedByOther t = true)
      (hStanding : machine.standing t = .turned)
  | stopping (hRunning : machine.world.allParkedExcept t = false)
      (hStanding : machine.standing t = .stopping)
  | parked (hStopped : machine.world.stopper ≠ none) (hStanding : machine.standing t = .outside)
      (hLeave : .leave ∈ (machine.thread t).todo)

namespace Party

section Stuck

variable {own : ThreadId → TaskId} {party : Party} (orderly : party.Orderly own)
  (hStuck : ¬ party.CanStep)
include orderly hStuck

/-- A thread that is not inside a call has run its program to the end. -/
theorem finished_of_stuck {t : ThreadId} (hTodo : (party.machine.thread t).todo = []) :
    party.left t = [] ∧ party.machine.world.slot? t = none ∧
      (party.machine.thread t).tokens = [] := by
  have hCourse := orderly.course t
  generalize hSlot : party.machine.world.slot? t = slot?,
    hThread : party.machine.thread t = thread, hLeft : party.left t = left at hCourse
  cases hCourse with
  | working working =>
    obtain ⟨command, rest, rfl⟩ := List.exists_cons_of_ne_nil working.program.ne_nil
    refine absurd ⟨.begin t command, by simp, ?_⟩ hStuck
    have hReady : party.machine.ready t = true := by
      rw [hThread] at hTodo
      simp [Machine.ready, hThread, hTodo, working.alive]
    simp [act?, hLeft, Machine.act?, hReady, orderly.alive]
  | leaving hMoves =>
    rw [hThread, hMoves] at hTodo
    cases hTodo
  | gone _ hTokens => exact ⟨rfl, rfl, hTokens⟩

/-- A thread that is inside a call sleeps. -/
theorem sleeps_of_stuck {t : ThreadId} (hTodo : (party.machine.thread t).todo ≠ []) :
    (t ∈ party.machine.queue ∧ party.machine.Faces t .awaitTurn) ∨
      (t ∈ party.machine.asleep ∧ ∃ move, party.machine.Faces t move ∧ move.dozes = true) := by
  by_cases hQueue : t ∈ party.machine.queue
  · exact .inl ⟨hQueue, orderly.heard.queued t hQueue⟩
  by_cases hAsleep : t ∈ party.machine.asleep
  · exact .inr ⟨hAsleep, orderly.heard.dozing t hAsleep⟩
  obtain ⟨move, rest, hMoves⟩ := List.exists_cons_of_ne_nil hTodo
  obtain ⟨woken, hHears⟩ : ∃ woken, party.machine.hears (.move t woken) = true := by
    refine ⟨party.machine.queue.headD t, ?_⟩
    simp only [Machine.hears]
    split
    · cases party.machine.queue <;> simp
    · rfl
  refine absurd ⟨.move t woken, by simp, ?_⟩ hStuck
  have hCan : party.machine.canMove t = true := by
    simp [Machine.canMove, orderly.alive, hMoves, hQueue, hAsleep]
  simp [act?, hHears, Machine.act?, Machine.step?, hMoves, hCan]

/-- Nobody is about to notify anyone. -/
theorem not_faces_of_stuck {t : ThreadId} {move : Move} (hWaits : move.waits = false) :
    ¬ party.machine.Faces t move := by
  intro hFaces
  have hTodo : (party.machine.thread t).todo ≠ [] := by
    intro hNone
    rw [Machine.Faces, hNone] at hFaces
    cases hFaces
  rcases sleeps_of_stuck orderly hStuck hTodo with ⟨-, hTurn⟩ | ⟨-, other, hOther, hDozes⟩
  · cases Option.some.inj (hFaces.symm.trans hTurn)
    cases hWaits
  · cases Option.some.inj (hFaces.symm.trans hOther)
    cases move <;> cases hDozes <;> cases hWaits

theorem not_due_of_stuck {t : ThreadId} (hMem : t ∈ party.machine.asleep) :
    party.machine.due t = false := by
  rw [← Bool.not_eq_true]
  intro hDue
  obtain ⟨u, hWakes⟩ := orderly.heard.change t hMem hDue
  exact not_faces_of_stuck orderly hStuck rfl hWakes

theorem stalled_of_stuck (t : ThreadId) : Stalled party.machine t := by
  obtain ⟨acts, safe⟩ := orderly.safe
  by_cases hTodo : (party.machine.thread t).todo = []
  · obtain ⟨-, -, hTokens⟩ := finished_of_stuck orderly hStuck hTodo
    refine .finished hTodo ?_
    rw [Machine.standing_of_no_tokens hTokens, hTodo]
    rfl
  -- What a thread sleeps before tells where it stands, tokens or not.
  have hStanding {move : Move} {rest : List Move} {phase : Phase}
      (hMoves : (party.machine.thread t).todo = move :: rest) (hPhase : move.phase? = some phase)
      (hInside : phase ≠ .outside) : party.machine.standing t = phase := by
    have hIs : (party.machine.thread t).phase = phase := by
      rw [Thread.phase, hMoves, phaseOf, hPhase]
      rfl
    rw [safe.phase_eq (hIs ▸ hInside), hIs]
  rcases sleeps_of_stuck orderly hStuck hTodo with
    ⟨hQueue, hFaces⟩ | ⟨hAsleep, move, hFaces, hDozes⟩
  · obtain ⟨rest, hMoves⟩ := List.head?_eq_some_iff.mp hFaces
    exact .queued hQueue (hStanding hMoves rfl (by simp))
  · obtain ⟨rest, hMoves⟩ := List.head?_eq_some_iff.mp hFaces
    have hDue := not_due_of_stuck orderly hStuck hAsleep
    cases move with
    | unblock task =>
      simp only [Machine.due, hMoves, Bool.not_eq_false'] at hDue
      exact .turned hDue (hStanding hMoves rfl (by simp))
    | drain =>
      simp only [Machine.due, hMoves] at hDue
      exact .stopping hDue (hStanding hMoves rfl (by simp))
    | leave =>
      simp only [Machine.due, hMoves, Option.isNone_eq_false_iff, Option.isSome_iff_ne_none] at hDue
      have hLeave : .leave ∈ (party.machine.thread t).todo := by
        rw [hMoves]
        exact List.mem_cons_self
      refine .parked hDue ?_ hLeave
      rw [Machine.standing_of_no_tokens ((orderly.course t).tokens_of_leave hLeave), hMoves]
      rfl
    | _ => cases hDozes

/-- The task of a thread that does not have the world stopped is at a safe point. -/
theorem atSafePoint_of_stuck {t : ThreadId} {slot : TaskSlot}
    (hSlot : party.machine.world.slot? t = some slot)
    (hOther : party.machine.world.stopper ≠ some t) : slot.atSafePoint = true := by
  obtain ⟨acts, safe⟩ := orderly.safe
  have hCourse := orderly.course t
  rw [hSlot] at hCourse
  have hMarking (hMarks : (party.machine.standing t).marking = true) :
      (party.machine.thread t).phase.marking = true := by
    have hTokens := @Machine.tokens_eq_nil party.machine t fun hPaused => by
      rw [hPaused] at hMarks
      cases hMarks
    rwa [Machine.standing_of_no_tokens hTokens] at hMarks
  cases stalled_of_stuck orderly hStuck t with
  | finished hTodo =>
    obtain ⟨-, hNone, -⟩ := finished_of_stuck orderly hStuck hTodo
    cases hNone.symm.trans hSlot
  | queued _ hStanding => exact hCourse.atSafePoint (.inl (hMarking (hStanding ▸ rfl)))
  | turned _ hStanding => exact hCourse.atSafePoint (.inl (hMarking (hStanding ▸ rfl)))
  | stopping _ hStanding =>
    exact absurd (safe.owned.stopper_of_stops t (by rw [hStanding]; rfl)) hOther
  | parked _ _ hLeave => exact hCourse.atSafePoint (.inr hLeave)

/-- A stop would be of a thread that waits until every other task is at a safe point. -/
theorem not_stopped_of_stuck : party.machine.world.stopper = none := by
  obtain ⟨acts, safe⟩ := orderly.safe
  rw [Option.eq_none_iff_forall_ne_some]
  intro t hStopper
  have hStops := safe.owned.stops_of_stopper t hStopper
  cases stalled_of_stuck orderly hStuck t with
  | stopping hRunning =>
    have hAll : party.machine.world.allParkedExcept t = true := by
      refine (safe.consistent.allParkedExcept_iff t).mpr fun u slot hU hSlot => ?_
      refine atSafePoint_of_stuck orderly hStuck hSlot fun hOther => hU ?_
      exact Option.some.inj (hOther.symm.trans hStopper)
    cases hRunning.symm.trans hAll
  | finished _ hStanding => cases hStanding ▸ hStops
  | queued _ hStanding => cases hStanding ▸ hStops
  | turned _ hStanding => cases hStanding ▸ hStops
  | parked _ hStanding => cases hStanding ▸ hStops

/-- No stop is on, so every thread has finished or waits for the semaphore. -/
theorem finished_or_queued_of_stuck (t : ThreadId) :
    ((party.machine.thread t).todo = [] ∧ party.machine.standing t = .outside) ∨
      (t ∈ party.machine.queue ∧ party.machine.standing t = .waiting) := by
  obtain ⟨acts, safe⟩ := orderly.safe
  have hNone := not_stopped_of_stuck orderly hStuck
  cases stalled_of_stuck orderly hStuck t with
  | finished hTodo hStanding => exact .inl ⟨hTodo, hStanding⟩
  | queued hQueue hStanding => exact .inr ⟨hQueue, hStanding⟩
  | turned hStopped => simp [SafepointWorld.stoppedByOther, hNone] at hStopped
  | stopping _ hStanding =>
    cases hNone.symm.trans (safe.owned.stopper_of_stops t (by rw [hStanding]; rfl))
  | parked hStopped => exact absurd hNone hStopped

/-- Nobody waits for the semaphore: it is free, and nobody has been notified of it. -/
theorem queue_eq_nil_of_stuck : party.machine.queue = [] := by
  obtain ⟨acts, safe⟩ := orderly.safe
  have hFree : party.machine.held = false := by
    rw [← Bool.not_eq_true]
    intro hHeld
    obtain ⟨owner, hOwns⟩ := safe.regular.manned.owner_of_held hHeld
    rcases finished_or_queued_of_stuck orderly hStuck owner with
      ⟨-, hStanding⟩ | ⟨-, hStanding⟩ <;> cases hStanding ▸ hOwns
  by_contra hQueue
  obtain ⟨t, hWakes | ⟨hAwake, hFaces⟩⟩ := orderly.heard.turn hFree hQueue
  · exact not_faces_of_stuck orderly hStuck rfl hWakes
  · rcases finished_or_queued_of_stuck orderly hStuck t with ⟨hTodo, -⟩ | ⟨hMem, -⟩
    · rw [Machine.Faces, hTodo] at hFaces
      cases hFaces
    · exact hAwake hMem

end Stuck

theorem Orderly.finished_or_canStep {own : ThreadId → TaskId} {party : Party}
    (orderly : party.Orderly own) : party.Finished ∨ party.CanStep := by
  refine or_iff_not_imp_right.mpr fun hStuck t => ?_
  rcases finished_or_queued_of_stuck orderly hStuck t with ⟨hTodo, -⟩ | ⟨hMem, -⟩
  · exact ⟨hTodo, (finished_of_stuck orderly hStuck hTodo).1⟩
  · rw [queue_eq_nil_of_stuck orderly hStuck] at hMem
    cases hMem

/-- However many threads that have all registered before run whatever programs of safe points and
pauses for their own tasks, in every order of their moves: at any time at most one of them has taken
the semaphore and not yet released it, and until all programs have been run to the end some thread
can go on that is awake. -/
theorem overlapping_pauses_never_deadlock {threads : List ThreadId} (hDistinct : threads.Nodup)
    {programs : ThreadId → List Command}
    (hPrograms : ∀ t ∈ threads, Program (Machine.ownTask threads t) false (programs t))
    (hOthers : ∀ t, t ∉ threads → programs t = []) {acts : List Act} {party : Party}
    (hRun : (gather threads programs).run? acts = some party) :
    party.takers.length ≤ 1 ∧ (party.Finished ∨ party.CanStep) := by
  have orderly := (orderly_gather hDistinct hPrograms hOthers).run hRun
  exact ⟨orderly.length_takers_le, orderly.finished_or_canStep⟩

/-- Threads 1 and 2 take a pause each, thread 3 only comes to a safe point. -/
def threePrograms : ThreadId → List Command
  | 1 => [.acquire (some 1), .safepoint .empty, .release, .unregister false]
  | 2 => [.acquire none, .release, .unregister true]
  | 3 => [.safepoint (.ofAddresses [7, 8]), .unregister false]
  | _ => []

/-- Thread 1 has its pause, thread 2 waits for its turn and thread 3 has parked. -/
def threeRun : List Act :=
  .begin 1 (.acquire (some 1)) :: Act.moves 1 0 3 ++ .begin 2 (.acquire none) :: Act.moves 2 0 5 ++
    .begin 3 (.safepoint (.ofAddresses [7, 8])) :: Act.moves 3 0 2 ++ Act.moves 1 0 2

theorem overlapping_pauses_never_deadlock_paused :
    ∃ party, (gather [1, 2, 3] threePrograms).run? threeRun = some party ∧
      party.takers = [1] ∧ party.machine.queue = [2] ∧ party.machine.asleep = [3] ∧
      party.takers.length ≤ 1 ∧ (party.Finished ∨ party.CanStep) := by
  refine ⟨_, rfl, rfl, rfl, rfl, ?_⟩
  refine @overlapping_pauses_never_deadlock [1, 2, 3] (by decide) threePrograms ?_ ?_ threeRun _ rfl
  · intro t hMem
    have hOwn : Machine.ownTask [1, 2, 3] 1 = 1 := rfl
    simp only [List.mem_cons, List.not_mem_nil, or_false] at hMem
    rcases hMem with rfl | rfl | rfl
    · rw [hOwn]
      exact .acquire (.safepoint _ (.release (.leave _)))
    · exact .acquireOwn (.release (.leave _))
    · exact .safepoint _ (.leave _)
  · intro t hNew
    simp only [List.mem_cons, List.not_mem_nil, or_false, not_or] at hNew
    unfold threePrograms
    split <;> simp_all

end Party

end SiteProfiler
