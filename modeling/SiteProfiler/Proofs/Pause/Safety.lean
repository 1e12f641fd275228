import SiteProfiler.Proofs.Pause.Invariant

/-!
# Stopped worlds

Every act of well-behaved threads keeps the invariant, and with it a thread that has the world
stopped has it to itself.
-/

namespace SiteProfiler

namespace Machine

/-! ## One act -/

/-- An act after which tasks of a complete stop are still at their safe points. -/
theorem settled_act {machine next : Machine} {t : ThreadId} (follows : machine.Follows next t)
    (consistent : next.world.Consistent)
    (hKeeps : ∀ owner, (machine.standing owner).settled = true → ∀ u slot, u ≠ owner →
      next.world.slot? u = some slot → slot.atSafePoint = true) :
    ∀ owner, (next.standing owner).settled = true → ∀ u slot, u ≠ owner →
      next.world.slot? u = some slot → slot.atSafePoint = true := by
  intro owner hSettled u slot hOther hSlot
  by_cases hOwner : owner = t
  · subst hOwner
    rcases follows.passage.settled hSettled with hBefore | hAll
    · exact hKeeps owner hBefore u slot hOther hSlot
    · exact (consistent.allParkedExcept_iff owner).mp hAll u slot hOther hSlot
  · rw [standing, follows.others owner hOwner] at hSettled
    exact hKeeps owner hSettled u slot hOther hSlot

namespace Safe

variable {acts : List Act} {machine next : Machine} (safe : machine.Safe (lastBegun acts))
  {t : ThreadId}
include safe

theorem owned_act {act : Act} (hWithin : machine.within act = true)
    (hAct : machine.act? act = some next) :
    machine.Follows next act.thread ∧ next.Regular ∧ next.Owned := by
  obtain ⟨follows, hEnters⟩ := safe.regular.follows hWithin hAct
  refine ⟨follows, safe.regular.after follows, ?_⟩
  refine safe.owned.passage safe.regular.manned follows.passage (fun u hU => ?_)
    (hEnters (safe.not_overtakes act))
  rw [standing, follows.others u hU, standing]

/-- A move keeps the last command begun, and with it the stack of a safe point. -/
theorem perform {woken : ThreadId} {move : Move} {rest : List Move}
    (hTodo : (machine.thread t).todo = move :: rest)
    (hHeeds : machine.heeds (.move t woken) = true)
    (follows : machine.Follows (machine.perform t woken move rest) t)
    (regular : (machine.perform t woken move rest).Regular)
    (owned : (machine.perform t woken move rest).Owned) :
    (machine.perform t woken move rest).Safe (lastBegun acts) := by
  have sound := safe.regular.sound t
  have consistent := consistent_perform t woken move rest safe.consistent
  have touches := touches_perform woken hTodo hHeeds sound safe.consistent
    fun slot hSlot hParked => (safe.parked t slot hSlot hParked).1
  refine ⟨regular, owned, consistent, ?_, safe.members_move touches follows.others,
    fun u hAcquiring => safe.taking u (acquiring_move touches follows.others u hAcquiring),
    safe.parked_move touches follows.others, ?_, safe.blocked_move touches follows.others,
    settled_act follows consistent fun owner hSettled u slot hOther hSlot =>
      safe.settled_move touches hSettled hOther hSlot⟩
  · intro u hTokens
    by_cases hU : u = t
    · subst hU
      rcases machine.tokens_perform u woken move rest with hSame | ⟨task, rfl, hRest, -⟩
      · exact outside_perform woken hTodo (sound.leads hTodo) (safe.alone u (hSame ▸ hTokens))
      · rw [Thread.phase, hRest]
        exact sound.leads hTodo
    · rw [follows.others u hU] at hTokens ⊢
      exact safe.alone u hTokens
  · intro u stack hMem
    by_cases hU : u = t
    · subst hU
      exact safe.heading u stack (mem_safepoint_perform woken hTodo hMem)
    · rw [follows.others u hU] at hMem
      exact safe.heading u stack hMem

/-- Only a running task without a pause begins to take one, and a thread that begins a call is
neither parked nor marks a task as blocked. -/
theorem begin {command : Command} (hTodo : (machine.thread t).todo = [])
    (hHeeds : machine.heeds (.begin t command) = true)
    (follows : machine.Follows (machine.setThread t (command.begin (machine.thread t))) t)
    (regular : (machine.setThread t (command.begin (machine.thread t))).Regular)
    (owned : (machine.setThread t (command.begin (machine.thread t))).Owned) :
    (machine.setThread t (command.begin (machine.thread t))).Safe
      (lastBegun (acts ++ [.begin t command])) := by
  have hLast : ∀ u, lastBegun (acts ++ [.begin t command]) u =
      if t = u then some command else lastBegun acts u := by
    intro u
    rw [lastBegun_concat, Act.begun?]
    split <;> rfl
  simp only [heeds, within, Bool.and_eq_true, Bool.not_eq_true', Bool.or_eq_true, mayAcquire,
    List.isEmpty_iff, Option.any_eq_true, decide_eq_true_eq] at hHeeds
  obtain ⟨hDirect, hMay⟩ := hHeeds
  have hBegins := (safe.regular.sound t).begins hDirect
  have hTakes : (command.begin (machine.thread t)).phase.acquiring = true →
      command.pauses = true := by
    intro hAcquiring
    rcases hBegins with ⟨-, hOutside | ⟨hPauses, -⟩⟩ | ⟨-, -, hPaused⟩
    · rw [hOutside] at hAcquiring
      cases hAcquiring
    · exact hPauses
    · rw [hPaused] at hAcquiring
      cases hAcquiring
  have hIdle : ∀ slot, machine.world.slot? t = some slot → slot.parked = false := by
    intro slot hSlot
    rw [← Bool.not_eq_true]
    intro hParked
    obtain ⟨⟨rest, hLeave⟩, -⟩ := safe.parked t slot hSlot hParked
    cases hTodo.symm.trans hLeave
  refine ⟨regular, owned, safe.consistent, ?_, ?_, ?_, ?_, ?_, ?_,
    settled_act follows safe.consistent safe.settled⟩
  · intro u hTokens
    by_cases hU : u = t
    · subst hU
      rw [setThread_self] at hTokens ⊢
      rcases hBegins with ⟨hSame, hOutside | ⟨hPauses, -⟩⟩ | ⟨-, hNone, -⟩
      · exact hOutside
      · have hFree := (hMay.resolve_left (by simp [hPauses])).2
        exact absurd (hSame.trans hFree) hTokens
      · exact absurd hNone hTokens
    · rw [follows.others u hU] at hTokens ⊢
      exact safe.alone u hTokens
  · intro u hAcquiring
    by_cases hU : u = t
    · subst hU
      rw [setThread_self] at hAcquiring
      obtain ⟨slot, hSlot, hRunning⟩ := (hMay.resolve_left (by simp [hTakes hAcquiring])).1
      exact ⟨slot, hSlot, hRunning, hIdle slot hSlot⟩
    · rw [follows.others u hU] at hAcquiring
      exact safe.members u hAcquiring
  · intro u hAcquiring
    by_cases hU : u = t
    · subst hU
      rw [setThread_self] at hAcquiring
      exact ⟨command, by rw [hLast, if_pos rfl], hTakes hAcquiring⟩
    · rw [follows.others u hU] at hAcquiring
      rw [hLast, if_neg (Ne.symm hU)]
      exact safe.taking u hAcquiring
  · intro u slot hSlot hParked
    have hU : u ≠ t := by
      rintro rfl
      cases (hIdle slot hSlot).symm.trans hParked
    rw [follows.others u hU, hLast, if_neg (Ne.symm hU)]
    exact safe.parked u slot hSlot hParked
  · intro u stack hMem
    by_cases hU : u = t
    · subst hU
      rw [setThread_self] at hMem
      rw [hLast, if_pos rfl, mem_safepoint_begin hMem]
    · rw [follows.others u hU] at hMem
      rw [hLast, if_neg (Ne.symm hU)]
      exact safe.heading u stack hMem
  · intro u slot hSlot hBlocked
    obtain ⟨v, hMarking, hMark⟩ := safe.blocked u slot hSlot hBlocked
    have hV : v ≠ t := by
      rintro rfl
      rw [Thread.phase, hTodo] at hMarking
      cases hMarking
    exact ⟨v, by rw [follows.others v hV, hMarking], by rw [follows.others v hV, hMark]⟩

theorem after {act : Act} (hHeeds : machine.heeds act = true)
    (hAct : machine.act? act = some next) : next.Safe (lastBegun (acts ++ [act])) := by
  have hWithin : machine.within act = true := by
    simp only [heeds, Bool.and_eq_true] at hHeeds
    exact hHeeds.1
  obtain ⟨follows, regular, owned⟩ := safe.owned_act hWithin hAct
  cases act with
  | begin t command =>
    obtain ⟨hTodo, rfl⟩ := act?_begin hAct
    exact safe.begin hTodo hHeeds follows regular owned
  | move t woken =>
    have hLast : lastBegun (acts ++ [.move t woken]) = lastBegun acts :=
      funext (lastBegun_concat acts _)
    obtain ⟨move, rest, hTodo, -, rfl⟩ := act?_move hAct
    rw [hLast]
    exact safe.perform hTodo hHeeds follows regular owned
  | rouse t =>
    have hLast : lastBegun (acts ++ [.rouse t]) = lastBegun acts :=
      funext (lastBegun_concat acts _)
    cases hAct
    rw [hLast]
    exact ⟨regular, owned, safe.consistent, safe.alone, safe.members, safe.taking, safe.parked,
      safe.heading, safe.blocked, safe.settled⟩

end Safe

theorem safe_run {acts : List Act} {machine : Machine}
    (hRun : start.run? heeds acts = some machine) : machine.Safe (lastBegun acts) := by
  refine run_induction (motive := fun acts reached => reached.Safe (lastBegun acts)) safe_start ?_
    acts machine hRun
  exact fun _ _ _ _ safe hHeeds hAct => safe.after hHeeds hAct

/-! ## Stopped worlds -/

/-- What a thread that has the world stopped can rely on, given the calls begun last. -/
structure Still (machine : Machine) (begun : ThreadId → Option Command) (t : ThreadId) : Prop where
  alone : ∀ u, (machine.standing u).settled = true → u = t
  stopped : machine.StoppedBy t
  /-- No task is missed by looking at those of threads. -/
  registered : ∀ slot ∈ machine.world.tasks, ∃ u, machine.world.slot? u = some slot
  atSafePoint : ∀ u slot, u ≠ t → machine.world.slot? u = some slot →
    slot.parked = true ∨ slot.blocked = true ∨ slot.status ≠ .running
  /-- The thread of a parked task is still inside its call for a safe point, and the task is
  reported with the stack of that call. -/
  parked : ∀ u slot, machine.world.slot? u = some slot → slot.parked = true →
    ∃ stack, begun u = some (.safepoint stack) ∧
      (∃ rest, (machine.thread u).todo = .leave :: rest) ∧
      slot.snapshot ∈ machine.world.snapshots ∧ slot.snapshot.stack = stack
  /-- The thread of a blocked task is inside a call that takes a pause, and waits for its turn. -/
  blocked : ∀ u slot, machine.world.slot? u = some slot → slot.blocked = true →
    (machine.thread u).phase.marking = true ∧
      ∃ command, begun u = some command ∧ command.pauses = true

theorem Safe.still {last : ThreadId → Option Command} {machine : Machine}
    (safe : machine.Safe last) {t : ThreadId} (hSettled : (machine.standing t).settled = true) :
    machine.Still last t := by
  have hStops : ∀ u, (machine.standing u).settled = true →
      machine.world.stopper = some u :=
    fun u hOther => safe.owned.stopper_of_stops u (Phase.stops_of_settled hOther)
  have hStopper := hStops t hSettled
  refine ⟨fun u hOther => Option.some.inj ((hStops u hOther).symm.trans hStopper), ?_, ?_, ?_, ?_,
    ?_⟩
  · exact safe.owned.stoppedBy safe.regular (safe.owned.stops_of_stopper t hStopper)
  · exact fun slot hMem => safe.consistent.exists_thread hMem
  · intro u slot hOther hSlot
    simpa [TaskSlot.atSafePoint, or_assoc] using safe.settled t hSettled u slot hOther hSlot
  · intro u slot hSlot hParked
    obtain ⟨hLeave, hBegun⟩ := safe.parked u slot hSlot hParked
    exact ⟨slot.stack, hBegun, hLeave,
      List.mem_map_of_mem (SafepointWorld.mem_tasks hSlot), rfl⟩
  · intro u slot hSlot hBlocked
    have hMarking := (safe.marks hSettled).2 u slot hSlot hBlocked
    exact ⟨hMarking, safe.taking u (Phase.acquiring_of_marking hMarking)⟩

/-- Wherever a run of well-behaved threads leads, the invariant holds: the semaphore has at most
one owner and a stop belongs to the thread that asked for it.  From when a thread finds its stop
complete until it lifts it, it is the only one to have the world stopped, and every other task is
at a safe point. -/
theorem stopped_world_is_still {acts : List Act} {machine : Machine}
    (hRun : start.run? heeds acts = some machine) :
    machine.Safe (lastBegun acts) ∧
      ∀ t, (machine.standing t).settled = true → machine.Still (lastBegun acts) t := by
  have safe := safe_run hRun
  exact ⟨safe, fun t hSettled => safe.still hSettled⟩

/-- Thread 1 stops the world; thread 3 waits for its turn and thread 2 comes to a safe point. -/
def stillRun : List Act :=
  .begin 1 .register :: Act.moves 1 0 1 ++ .begin 2 .register :: Act.moves 2 0 1 ++
    .begin 3 .register :: Act.moves 3 0 1 ++ .begin 1 (.acquire none) :: Act.moves 1 0 4 ++
    .begin 3 (.acquire none) :: Act.moves 3 0 5 ++
    .begin 2 (.safepoint (.ofAddresses [7, 8])) :: Act.moves 2 0 2 ++ Act.moves 1 0 2

theorem stopped_world_is_still_stopped : ∃ machine, start.run? heeds stillRun = some machine ∧
    machine.returned? 1 = some .acquired ∧ machine.Still (lastBegun stillRun) 1 ∧
    machine.world.tasks.map (fun slot => (slot.parked, slot.blocked)) =
      [(false, false), (true, false), (false, true)] :=
  ⟨_, rfl, rfl, (@stopped_world_is_still stillRun _ rfl).2 1 rfl, rfl⟩

end Machine

end SiteProfiler
