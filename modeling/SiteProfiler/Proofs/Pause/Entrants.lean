import SiteProfiler.Proofs.Pause.Marks

/-!
# Tasks that run inside a pause

A stop is complete when every other task is at a safe point, and a thread at a safe point, or
blocked on a pause, waits there until the stop is lifted.  Registering and setting a status do not
wait.  So a dump taken during a pause can report another task as running, namely one whose thread
has done either since the stop was found complete; every other task is still at its safe point.
-/

namespace SiteProfiler

/-- The semaphore was held when the thread came. -/
def Phase.queues : Phase → Bool
  | refused | waiting | turned => true
  | _ => false

namespace Machine

/-- Acts of threads of which one takes pauses, one at a time. -/
def solo (holder : ThreadId) (machine : Machine) : Act → Bool
  | .begin t command =>
    !command.direct &&
      (!command.pauses || (decide (t = holder) && (machine.thread t).tokens.isEmpty))
  | _ => true

/-- Acts while that thread has the world stopped. -/
def pausing (holder : ThreadId) (machine : Machine) (act : Act) : Bool :=
  machine.solo holder act && (machine.standing holder).settled

/-- Whether a thread is about to make its task run: it registers, or sets its status so. -/
def setsOut (machine : Machine) (t : ThreadId) : Bool :=
  match (machine.thread t).todo with
  | .register :: _ => (machine.world.slot? t).isNone
  | .setStatus .running :: _ => (machine.world.slot? t).isSome
  | _ => false

/-- A thread has made its task run in the course of a run. -/
def Entered (allowed : Machine → Act → Bool) (first : Machine) (acts : List Act) (t : ThreadId) :
    Prop :=
  ∃ earlier woken later mid, acts = earlier ++ .move t woken :: later ∧
    first.run? allowed earlier = some mid ∧ mid.setsOut t = true

/-- The holder finds its stop complete with the last act before, and it lasts. -/
structure Spans (holder : ThreadId) (before during : List Act) (stopped reached : Machine) :
    Prop where
  reaches : start.run? (solo holder) before = some stopped
  completes : ∃ earlier act machine, before = earlier ++ [act] ∧
    start.run? (solo holder) earlier = some machine ∧ (machine.standing holder).settled = false
  lasts : stopped.run? (pausing holder) during = some reached
  settled : (reached.standing holder).settled = true

theorem Entered.concat {allowed : Machine → Act → Bool} {first : Machine} {acts : List Act}
    {t : ThreadId} (hEntered : Entered allowed first acts t) (act : Act) :
    Entered allowed first (acts ++ [act]) t := by
  obtain ⟨earlier, woken, later, mid, rfl, hRun, hSets⟩ := hEntered
  exact ⟨earlier, woken, later ++ [act], mid, by simp, hRun, hSets⟩

/-! ## The invariant -/

/-- What holds in runs in which one thread takes pauses. -/
structure Solo (holder : ThreadId) (machine : Machine) : Prop where
  regular : machine.Regular
  owned : machine.Owned
  consistent : machine.world.Consistent
  outside : ∀ u, u ≠ holder →
    (machine.thread u).tokens = [] ∧ (machine.thread u).phase = .outside
  alone : (machine.thread holder).tokens ≠ [] → (machine.thread holder).phase = .outside
  /-- The semaphore is never held when the holder comes for it. -/
  prompt : (machine.thread holder).phase.queues = false
  unmarked : ∀ u slot, machine.world.slot? u = some slot → slot.blocked = false
  parked : ∀ u slot, machine.world.slot? u = some slot → slot.parked = true →
    ∃ rest, (machine.thread u).todo = .leave :: rest

theorem solo_start (holder : ThreadId) : start.Solo holder where
  regular := regular_start
  owned := owned_start
  consistent := SafepointWorld.consistent_empty
  outside := fun _ _ => ⟨rfl, rfl⟩
  alone := fun _ => rfl
  prompt := rfl
  unmarked := fun _ _ hSlot => by cases hSlot
  parked := fun _ _ hSlot => by cases hSlot

/-- What a move of a thread leaves of a task: it is not marked, it is parked only where its thread
leaves the safe point, and during a stop it is new or out of its safe point only if the move made
it run. -/
structure Kept (machine next : Machine) (t u : ThreadId) (slot : TaskSlot) : Prop where
  unmarked : slot.blocked = false
  parked : slot.parked = true → ∃ rest, (next.thread u).todo = .leave :: rest
  safe : machine.world.stopper.isSome = true → (u = t ∧ machine.setsOut t = true) ∨
    ∃ old, machine.world.slot? u = some old ∧ (old.atSafePoint = true → slot.atSafePoint = true)

/-- A thread is refused only if it finds the semaphore held. -/
theorem queues_perform {machine : Machine} {t : ThreadId} (woken : ThreadId) {move : Move}
    {rest : List Move} (hTodo : (machine.thread t).todo = move :: rest)
    (hLeads : move.LeadsTo rest) (hPrompt : (machine.thread t).phase.queues = false)
    (hFree : (machine.thread t).phase = .calling → machine.held = false) :
    ((machine.perform t woken move rest).thread t).phase.queues = false := by
  rw [Thread.phase, hTodo] at hPrompt hFree
  cases move <;> simp only [perform] <;> (repeat' split) <;>
    simp_all [Thread.phase, phaseOf, Move.phase?, Move.LeadsTo, Phase.queues, acquireMoves,
      releaseMoves]

namespace Solo

variable {holder : ThreadId} {machine : Machine} (isSolo : machine.Solo holder)
include isSolo

theorem standing_of_ne {u : ThreadId} (hOther : u ≠ holder) : machine.standing u = .outside := by
  obtain ⟨hTokens, hPhase⟩ := isSolo.outside u hOther
  rw [standing_of_no_tokens hTokens]
  exact hPhase

/-- Only the holder stands anywhere but outside. -/
theorem eq_holder {u : ThreadId} (hStanding : machine.standing u ≠ .outside) : u = holder := by
  by_contra hOther
  exact hStanding (isSolo.standing_of_ne hOther)

theorem standing_of_calling {u : ThreadId} (hCalling : (machine.thread u).phase = .calling) :
    u = holder ∧ machine.standing u = .calling := by
  have hHolder : u = holder := by
    by_contra hOther
    rw [(isSolo.outside u hOther).2] at hCalling
    cases hCalling
  refine ⟨hHolder, ?_⟩
  subst hHolder
  cases hTokens : (machine.thread u).tokens with
  | nil => exact (standing_of_no_tokens hTokens).trans hCalling
  | cons task rest =>
    rw [isSolo.alone (by rw [hTokens]; exact List.cons_ne_nil _ _)] at hCalling
    cases hCalling

/-- Nobody else takes the semaphore. -/
theorem free_of_calling {u : ThreadId} (hCalling : (machine.thread u).phase = .calling) :
    machine.held = false := by
  obtain ⟨rfl, hStanding⟩ := isSolo.standing_of_calling hCalling
  rw [← Bool.not_eq_true]
  intro hHeld
  obtain ⟨owner, hOwns⟩ := isSolo.regular.manned.owner_of_held hHeld
  have hSelf : owner = u := isSolo.eq_holder (by
    intro hOutside
    rw [hOutside] at hOwns
    cases hOwns)
  rw [hSelf, hStanding] at hOwns
  cases hOwns

theorem not_overtakes (act : Act) : machine.overtakes act = false := by
  cases act with
  | move t woken =>
    rw [← Bool.not_eq_true]
    intro hOvertakes
    simp only [overtakes] at hOvertakes
    split at hOvertakes
    next task rest hTodo =>
      have hCalling : (machine.thread t).phase = .calling := by rw [Thread.phase, hTodo]; rfl
      obtain ⟨rfl, hStanding⟩ := isSolo.standing_of_calling hCalling
      simp only [Bool.and_eq_true] at hOvertakes
      obtain ⟨owner, hOwner⟩ := Option.isSome_iff_exists.mp hOvertakes.2
      have hStops := isSolo.owned.stops_of_stopper owner hOwner
      have hSelf : owner = t :=
        isSolo.eq_holder (by intro hOutside; rw [hOutside] at hStops; cases hStops)
      rw [hSelf, hStanding] at hStops
      cases hStops
    next => cases hOvertakes
  | begin t command => rfl
  | rouse t => rfl

/-! ## One act -/

theorem owned_act {act : Act} {next : Machine} (hSolo : machine.solo holder act = true)
    (hAct : machine.act? act = some next) :
    machine.Follows next act.thread ∧ next.Regular ∧ next.Owned := by
  have hWithin : machine.within act = true := by
    cases act with
    | begin t command =>
      simp only [solo, Bool.and_eq_true] at hSolo
      exact hSolo.1
    | move t woken => rfl
    | rouse t => rfl
  obtain ⟨follows, hEnters⟩ := isSolo.regular.follows hWithin hAct
  refine ⟨follows, isSolo.regular.after follows, ?_⟩
  refine isSolo.owned.passage isSolo.regular.manned follows.passage (fun u hU => ?_)
    (hEnters (isSolo.not_overtakes act))
  rw [standing, follows.others u hU, standing]

/-- Nobody is on the way through the queue. -/
theorem queues_eq_false (t : ThreadId) : (machine.thread t).phase.queues = false := by
  by_cases hHolder : t = holder
  · exact hHolder ▸ isSolo.prompt
  · rw [(isSolo.outside t hHolder).2]
    rfl

section Move

variable {t : ThreadId} (woken : ThreadId) {rest : List Move} {u : ThreadId} {slot : TaskSlot}

/-- A task that is as it was. -/
theorem kept_of_eq {next : Machine} (hOld : machine.world.slot? u = some slot)
    (hLeaves : ∀ more, (machine.thread u).todo = .leave :: more →
      (next.thread u).todo = .leave :: more) : machine.Kept next t u slot where
  unmarked := isSolo.unmarked u slot hOld
  parked := by
    intro hParked
    obtain ⟨more, hLeave⟩ := isSolo.parked u slot hOld hParked
    exact ⟨more, hLeaves more hLeave⟩
  safe := fun _ => .inr ⟨slot, hOld, id⟩

theorem kept_of_ne {move : Move} (hOther : u ≠ t) (hOld : machine.world.slot? u = some slot) :
    machine.Kept (machine.perform t woken move rest) t u slot :=
  isSolo.kept_of_eq hOld fun more hLeave => by
    rw [machine.perform_of_ne t woken move rest hOther, hLeave]

/-- A thread that registers anew has its task run. -/
theorem kept_register (hTodo : (machine.thread t).todo = .register :: rest)
    (hSlot : (machine.perform t woken .register rest).world.slot? u = some slot) :
    machine.Kept (machine.perform t woken .register rest) t u slot := by
  have hWorld : (machine.perform t woken .register rest).world = (machine.world.register t).2 := rfl
  rw [hWorld] at hSlot
  cases hTask : machine.world.slot? t with
  | some task =>
    rw [SafepointWorld.register_of_some hTask] at hSlot
    by_cases hU : u = t
    · subst hU
      exact isSolo.kept_of_eq hSlot fun more hLeave => by cases hTodo.symm.trans hLeave
    · exact isSolo.kept_of_ne woken hU hSlot
  | none =>
    rw [isSolo.consistent.slot?_register hTask] at hSlot
    by_cases hU : u = t
    · rw [if_pos hU] at hSlot
      cases hSlot
      refine ⟨rfl, fun hParked => ?_, fun _ => .inl ⟨hU, ?_⟩⟩
      · cases hParked
      · simp only [setsOut, hTodo, hTask, Option.isNone_none]
    · rw [if_neg hU] at hSlot
      exact isSolo.kept_of_ne woken hU hSlot

/-- A thread that sets its status to running has its task run; another status is a safe point. -/
theorem kept_setStatus {status : TaskStatus}
    (hTodo : (machine.thread t).todo = .setStatus status :: rest)
    (hSlot : (machine.perform t woken (.setStatus status) rest).world.slot? u = some slot) :
    machine.Kept (machine.perform t woken (.setStatus status) rest) t u slot := by
  have hWorld : (machine.perform t woken (.setStatus status) rest).world =
      machine.world.modifySlot t fun slot => { slot with status := status } := rfl
  rw [hWorld, isSolo.consistent.slot?_modifySlot] at hSlot
  by_cases hU : u = t
  · rw [if_pos hU] at hSlot
    obtain ⟨old, hOld, rfl⟩ := Option.map_eq_some_iff.mp hSlot
    refine ⟨isSolo.unmarked u old hOld, fun hParked => ?_, fun _ => ?_⟩
    · obtain ⟨more, hLeave⟩ := isSolo.parked u old hOld hParked
      rw [hU, hTodo] at hLeave
      cases hLeave
    · cases status with
      | running =>
        rw [hU] at hOld
        exact .inl ⟨hU, by simp only [setsOut, hTodo, hOld, Option.isSome_some]⟩
      | runnable => exact .inr ⟨old, hOld, fun _ => by simp [TaskSlot.atSafePoint]⟩
      | waiting => exact .inr ⟨old, hOld, fun _ => by simp [TaskSlot.atSafePoint]⟩
  · rw [if_neg hU] at hSlot
    exact isSolo.kept_of_ne woken hU hSlot

/-- Moves that touch tasks as well-behaved threads do. -/
theorem kept_touches {move : Move} (touches : machine.Touches (machine.perform t woken move rest) t)
    (hSlot : (machine.perform t woken move rest).world.slot? u = some slot) :
    machine.Kept (machine.perform t woken move rest) t u slot := by
  have hPrompt := isSolo.queues_eq_false t
  cases touches with
  | nothing held hSlots hMarking hLeaving =>
    obtain ⟨old, hOld, rfl⟩ := Option.map_eq_some_iff.mp ((hSlots u).symm.trans hSlot)
    refine ⟨isSolo.unmarked u old hOld, fun hParked => ?_, fun _ => .inr ⟨old, hOld, id⟩⟩
    obtain ⟨more, hLeave⟩ := isSolo.parked u old hOld hParked
    refine ⟨more, ?_⟩
    by_cases hU : u = t
    · subst hU
      exact hLeaving more hLeave
    · rw [machine.perform_of_ne t woken move rest hU, hLeave]
  | block task hSlots hWas =>
    rw [hWas] at hPrompt
    cases hPrompt
  | unblock task hSlots hQuiet hWas =>
    rw [hWas] at hPrompt
    cases hPrompt
  | own hOthers hWas hIs hParks hBlocks hSafe =>
    by_cases hU : u = t
    · subst hU
      refine ⟨?_, fun hParked => (hParks slot hSlot hParked).1,
        fun hStop => .inr (hSafe slot hSlot hStop)⟩
      rw [← Bool.not_eq_true]
      intro hBlocked
      obtain ⟨old, hOld, -, hOldBlocked⟩ := hBlocks slot hSlot hBlocked
      cases (isSolo.unmarked u old hOld).symm.trans hOldBlocked
    · exact isSolo.kept_of_ne woken hU ((hOthers u hU).symm.trans hSlot)

theorem kept_perform {move : Move} (hTodo : (machine.thread t).todo = move :: rest)
    (hSlot : (machine.perform t woken move rest).world.slot? u = some slot) :
    machine.Kept (machine.perform t woken move rest) t u slot := by
  have hParked : ∀ slot, machine.world.slot? t = some slot → slot.parked = true →
      ∃ rest, (machine.thread t).todo = .leave :: rest := isSolo.parked t
  have hTouches (hHeeds : machine.heeds (.move t woken) = true) :=
    touches_perform woken hTodo hHeeds (isSolo.regular.sound t) isSolo.consistent hParked
  cases move with
  | register => exact isSolo.kept_register woken hTodo hSlot
  | setStatus status => exact isSolo.kept_setStatus woken hTodo hSlot
  | _ => exact isSolo.kept_touches woken (hTouches (by simp [heeds, within, hTodo])) hSlot

end Move

/-! ## Runs -/

theorem perform {t woken : ThreadId} {move : Move} {rest : List Move}
    (hTodo : (machine.thread t).todo = move :: rest)
    (follows : machine.Follows (machine.perform t woken move rest) t)
    (regular : (machine.perform t woken move rest).Regular)
    (owned : (machine.perform t woken move rest).Owned) :
    (machine.perform t woken move rest).Solo holder := by
  have hLeads := (isSolo.regular.sound t).leads hTodo
  have hKept := fun u slot => @kept_perform _ _ isSolo t woken rest u slot _ hTodo
  refine ⟨regular, owned, consistent_perform t woken move rest isSolo.consistent, ?_, ?_, ?_,
    fun u slot hSlot => (hKept u slot hSlot).unmarked,
    fun u slot hSlot => (hKept u slot hSlot).parked⟩
  · intro u hOther
    by_cases hU : u = t
    · subst hU
      obtain ⟨hTokens, hOutside⟩ := isSolo.outside u hOther
      refine ⟨?_, outside_perform woken hTodo hLeads hOutside⟩
      rcases machine.tokens_perform u woken move rest with hSame | ⟨task, rfl, -⟩
      · exact hSame.trans hTokens
      · rw [Thread.phase, hTodo] at hOutside
        cases hOutside
    · rw [follows.others u hU]
      exact isSolo.outside u hOther
  · intro hTokens
    by_cases hU : holder = t
    · subst hU
      rcases machine.tokens_perform holder woken move rest with hSame | ⟨task, rfl, hRest, -⟩
      · exact outside_perform woken hTodo hLeads (isSolo.alone (hSame ▸ hTokens))
      · rw [Thread.phase, hRest]
        exact hLeads
    · rw [follows.others holder hU] at hTokens ⊢
      exact isSolo.alone hTokens
  · by_cases hU : holder = t
    · subst hU
      exact queues_perform woken hTodo hLeads isSolo.prompt isSolo.free_of_calling
    · rw [follows.others holder hU]
      exact isSolo.prompt

theorem begin {t : ThreadId} {command : Command} (hTodo : (machine.thread t).todo = [])
    (hSolo : machine.solo holder (.begin t command) = true)
    (follows : machine.Follows (machine.setThread t (command.begin (machine.thread t))) t)
    (regular : (machine.setThread t (command.begin (machine.thread t))).Regular)
    (owned : (machine.setThread t (command.begin (machine.thread t))).Owned) :
    (machine.setThread t (command.begin (machine.thread t))).Solo holder := by
  simp only [solo, Bool.and_eq_true, Bool.not_eq_true', Bool.or_eq_true, decide_eq_true_eq,
    List.isEmpty_iff] at hSolo
  obtain ⟨hDirect, hMay⟩ := hSolo
  have hBegins := (isSolo.regular.sound t).begins hDirect
  refine ⟨regular, owned, isSolo.consistent, ?_, ?_, ?_, isSolo.unmarked, ?_⟩
  · intro u hOther
    by_cases hU : u = t
    · subst hU
      rw [setThread_self]
      rcases hBegins with ⟨hSame, hOutside | ⟨hPauses, -⟩⟩ | ⟨hSome, -⟩
      · exact ⟨hSame.trans (isSolo.outside u hOther).1, hOutside⟩
      · exact absurd (hMay.resolve_left (by simp [hPauses])).1 hOther
      · exact absurd (isSolo.outside u hOther).1 hSome
    · rw [follows.others u hU]
      exact isSolo.outside u hOther
  · intro hTokens
    by_cases hU : holder = t
    · subst hU
      rw [setThread_self] at hTokens ⊢
      rcases hBegins with ⟨hSame, hOutside | ⟨hPauses, -⟩⟩ | ⟨-, hNone, -⟩
      · exact hOutside
      · exact absurd (hSame.trans (hMay.resolve_left (by simp [hPauses])).2) hTokens
      · exact absurd hNone hTokens
    · rw [follows.others holder hU] at hTokens ⊢
      exact isSolo.alone hTokens
  · by_cases hU : holder = t
    · subst hU
      rw [setThread_self]
      rcases hBegins with ⟨-, hOutside | ⟨-, hCalling⟩⟩ | ⟨-, -, hPaused⟩
      · rw [hOutside]
        rfl
      · rw [hCalling]
        rfl
      · rw [hPaused]
        rfl
    · rw [follows.others holder hU]
      exact isSolo.prompt
  · intro u slot hSlot hParked
    obtain ⟨rest, hLeave⟩ := isSolo.parked u slot hSlot hParked
    have hU : u ≠ t := by
      rintro rfl
      cases hTodo.symm.trans hLeave
    exact ⟨rest, by rw [follows.others u hU, hLeave]⟩

theorem after {act : Act} {next : Machine} (hSolo : machine.solo holder act = true)
    (hAct : machine.act? act = some next) : next.Solo holder := by
  obtain ⟨follows, regular, owned⟩ := isSolo.owned_act hSolo hAct
  cases act with
  | begin t command =>
    obtain ⟨hTodo, rfl⟩ := act?_begin hAct
    exact isSolo.begin hTodo hSolo follows regular owned
  | move t woken =>
    obtain ⟨move, rest, hTodo, -, rfl⟩ := act?_move hAct
    exact isSolo.perform hTodo follows regular owned
  | rouse t =>
    cases hAct
    exact ⟨regular, owned, isSolo.consistent, isSolo.outside, isSolo.alone, isSolo.prompt,
      isSolo.unmarked, isSolo.parked⟩

/-- During a stop an act brings out of its safe point at most the task of its own thread, which it
made run. -/
theorem safe_act {act : Act} {next : Machine} (hAct : machine.act? act = some next)
    (hStop : machine.world.stopper.isSome = true) {u : ThreadId} {slot : TaskSlot}
    (hSlot : next.world.slot? u = some slot) :
    ((∃ woken, act = .move u woken) ∧ machine.setsOut u = true) ∨
      ∃ old, machine.world.slot? u = some old ∧
        (old.atSafePoint = true → slot.atSafePoint = true) := by
  cases act with
  | begin t command =>
    obtain ⟨-, rfl⟩ := act?_begin hAct
    exact .inr ⟨slot, hSlot, id⟩
  | move t woken =>
    obtain ⟨move, rest, hTodo, -, rfl⟩ := act?_move hAct
    rcases (isSolo.kept_perform woken hTodo hSlot).safe hStop with ⟨rfl, hSets⟩ | hOld
    · exact .inl ⟨⟨woken, rfl⟩, hSets⟩
    · exact .inr hOld
  | rouse t =>
    cases hAct
    exact .inr ⟨slot, hSlot, id⟩

/-- A task that its thread makes run is at no safe point, whether or not a stop is on. -/
theorem running_of_setsOut {u woken : ThreadId} {next : Machine} (hSets : machine.setsOut u = true)
    (hAct : machine.act? (.move u woken) = some next) :
    ∃ slot, next.world.slot? u = some slot ∧ slot.atSafePoint = false ∧
      slot.snapshot.info.status = .running := by
  obtain ⟨move, rest, hTodo, -, rfl⟩ := act?_move hAct
  simp only [setsOut, hTodo] at hSets
  split at hSets
  next hHead =>
    obtain ⟨rfl, rfl⟩ := List.cons.inj hHead
    have hSlot := isSolo.consistent.slot?_register (Option.isNone_iff_eq_none.mp hSets) u
    rw [if_pos rfl] at hSlot
    exact ⟨_, hSlot, rfl, rfl⟩
  next hHead =>
    obtain ⟨rfl, rfl⟩ := List.cons.inj hHead
    obtain ⟨old, hOld⟩ := Option.isSome_iff_exists.mp hSets
    have hSlot := isSolo.consistent.slot?_modifySlot u u fun slot =>
      { slot with status := .running }
    rw [if_pos rfl, hOld, Option.map_some] at hSlot
    have hUnmarked := isSolo.unmarked u old hOld
    have hUnparked : old.parked = false := by
      rw [← Bool.not_eq_true]
      intro hParked
      obtain ⟨more, hLeave⟩ := isSolo.parked u old hOld hParked
      cases hTodo.symm.trans hLeave
    exact ⟨_, hSlot, by simp [TaskSlot.atSafePoint, hUnmarked, hUnparked],
      by simp [TaskSlot.snapshot, hUnmarked, hUnparked]⟩
  next => cases hSets

end Solo

theorem solo_run {holder : ThreadId} {acts : List Act} {machine : Machine}
    (hRun : start.run? (solo holder) acts = some machine) : machine.Solo holder := by
  refine run_induction (motive := fun _ => Solo holder) (solo_start holder) ?_ acts machine hRun
  exact fun _ _ _ _ isSolo hSolo hAct => isSolo.after hSolo hAct

/-- The stop has just been found complete. -/
theorem safe_of_completes {holder : ThreadId} {before : List Act} {stopped : Machine}
    (hReaches : start.run? (solo holder) before = some stopped)
    (hCompletes : ∃ earlier act machine, before = earlier ++ [act] ∧
      start.run? (solo holder) earlier = some machine ∧ (machine.standing holder).settled = false)
    (hSettled : (stopped.standing holder).settled = true) {u : ThreadId} {slot : TaskSlot}
    (hOther : u ≠ holder) (hSlot : stopped.world.slot? u = some slot) :
    slot.atSafePoint = true := by
  have isStopped := solo_run hReaches
  obtain ⟨earlier, act, machine, rfl, hEarlier, hUnsettled⟩ := hCompletes
  rw [run?_concat, hEarlier, Option.bind_some] at hReaches
  split at hReaches
  next hSolo =>
    have follows := ((solo_run hEarlier).owned_act hSolo hReaches).1
    have hActor : holder = act.thread := by
      by_contra hOther
      rw [standing, follows.others holder hOther] at hSettled
      cases hUnsettled.symm.trans hSettled
    rw [hActor] at hSettled hUnsettled hOther
    rcases follows.passage.settled hSettled with hBefore | hAll
    · cases hUnsettled.symm.trans hBefore
    · exact (isStopped.consistent.allParkedExcept_iff _).mp hAll u slot hOther hSlot
  next => cases hReaches

/-- What is known of the tasks some acts after the stop was found complete. -/
structure Lasting (holder : ThreadId) (stopped : Machine) (during : List Act) (reached : Machine) :
    Prop where
  isSolo : reached.Solo holder
  run : stopped.run? (pausing holder) during = some reached
  safe : ∀ u slot, u ≠ holder → reached.world.slot? u = some slot →
    slot.atSafePoint = true ∨ Entered (pausing holder) stopped during u

theorem Lasting.after {holder : ThreadId} {stopped reached next : Machine} {during : List Act}
    (lasting : Lasting holder stopped during reached) {act : Act}
    (hPausing : reached.pausing holder act = true) (hAct : reached.act? act = some next) :
    Lasting holder stopped (during ++ [act]) next := by
  have hAllowed := hPausing
  simp only [pausing, Bool.and_eq_true] at hPausing
  have hStopper := lasting.isSolo.owned.stopper_of_stops holder
    (Phase.stops_of_settled hPausing.2)
  refine ⟨lasting.isSolo.after hPausing.1 hAct, ?_, fun u slot hOther hSlot => ?_⟩
  · rw [run?_concat, lasting.run, Option.bind_some, if_pos hAllowed, hAct]
  · rcases lasting.isSolo.safe_act hAct (by rw [hStopper]; rfl) hSlot with
      ⟨⟨woken, rfl⟩, hSets⟩ | ⟨old, hOld, hKeeps⟩
    · exact .inr ⟨during, woken, [], reached, rfl, lasting.run, hSets⟩
    · rcases lasting.safe u old hOther hOld with hSafe | hEntered
      · exact .inl (hKeeps hSafe)
      · exact .inr (hEntered.concat act)

/-- While a stop is complete and not yet lifted, every other task is at a safe point, unless its
thread has registered or set its status to running since; and whenever a thread does, its task is
at once reported as running. -/
theorem entrants_of_pause {holder : ThreadId} {before during : List Act}
    {stopped reached : Machine} (spans : Spans holder before during stopped reached) :
    (∀ slot ∈ reached.world.tasks, ∃ u, reached.world.slot? u = some slot ∧
      (u = holder ∨ slot.atSafePoint = true ∨ Entered (pausing holder) stopped during u)) ∧
    ∀ acts u woken mid next, stopped.run? (pausing holder) acts = some mid →
      mid.setsOut u = true → mid.act? (.move u woken) = some next →
        ∃ slot, next.world.slot? u = some slot ∧ slot.atSafePoint = false ∧
          slot.snapshot.info.status = .running := by
  have hSettled : (stopped.standing holder).settled = true := by
    have hLasts := spans.lasts
    cases during with
    | nil =>
      cases hLasts
      exact spans.settled
    | cons act rest =>
      rw [run?, List.foldlM_cons] at hLasts
      split at hLasts
      next hPausing =>
        simp only [pausing, Bool.and_eq_true] at hPausing
        exact hPausing.2
      next => cases hLasts
  have hFirst : Lasting holder stopped [] stopped :=
    ⟨solo_run spans.reaches, rfl, fun u slot hOther hSlot =>
      .inl (safe_of_completes spans.reaches spans.completes hSettled hOther hSlot)⟩
  have hLasting : ∀ acts machine, stopped.run? (pausing holder) acts = some machine →
      Lasting holder stopped acts machine :=
    run_induction hFirst fun _ _ _ _ lasting hPausing hAct => lasting.after hPausing hAct
  constructor
  · intro slot hMem
    have lasting := hLasting during reached spans.lasts
    obtain ⟨u, hSlot⟩ := lasting.isSolo.consistent.exists_thread hMem
    refine ⟨u, hSlot, ?_⟩
    by_cases hOther : u = holder
    · exact .inl hOther
    · exact .inr (lasting.safe u slot hOther hSlot)
  · intro acts u woken mid next hRun hSets hAct
    exact (hLasting acts mid hRun).isSolo.running_of_setsOut hSets hAct

/-- Thread 1 stops the world while the task of thread 2 is waiting and that of thread 4 is at a
safe point. -/
def pausedRun : List Act :=
  .begin 1 .register :: Act.moves 1 0 1 ++ .begin 2 .register :: Act.moves 2 0 1 ++
    .begin 4 .register :: Act.moves 4 0 1 ++ .begin 2 (.setStatus .waiting) :: Act.moves 2 0 3 ++
    .begin 1 (.acquire none) :: Act.moves 1 0 4 ++
    .begin 4 (.safepoint (.ofAddresses [7])) :: Act.moves 4 0 2 ++ Act.moves 1 0 1

/-- Thread 1 gets its token, thread 2 sets its status back and thread 3 registers. -/
def entrantsRun : List Act :=
  Act.moves 1 0 1 ++ .begin 2 (.setStatus .running) :: Act.moves 2 0 3 ++
    .begin 3 .register :: Act.moves 3 0 1

theorem entrants_of_pause_met : ∃ stopped reached,
    Spans 1 pausedRun entrantsRun stopped reached ∧
    ∀ slot ∈ reached.world.tasks, ∃ u, reached.world.slot? u = some slot ∧
      (u = 1 ∨ slot.atSafePoint = true ∨ Entered (pausing 1) stopped entrantsRun u) := by
  have spans : ∃ stopped reached, Spans 1 pausedRun entrantsRun stopped reached :=
    ⟨_, _, rfl, ⟨pausedRun.dropLast, .move 1 0, _, rfl, rfl, rfl⟩, rfl, rfl⟩
  obtain ⟨stopped, reached, spans⟩ := spans
  exact ⟨stopped, reached, spans, (entrants_of_pause spans).1⟩

/-- A task that was waiting when the stop was complete, and one that was not registered, are
reported as running while thread 1 holds its token. -/
theorem entrants_run_in_pause : ∃ stopped reached,
    start.run? (solo 1) pausedRun = some stopped ∧
    stopped.run? (pausing 1) entrantsRun = some reached ∧
    (reached.standing 1).settled = true ∧ (reached.thread 1).tokens = [1] ∧
    stopped.world.snapshots.map TaskSnapshot.info =
      [⟨1, .running⟩, ⟨2, .waiting⟩, ⟨3, .runnable⟩] ∧
    reached.world.snapshots.map TaskSnapshot.info =
      [⟨1, .running⟩, ⟨2, .running⟩, ⟨3, .runnable⟩, ⟨4, .running⟩] ∧
    (reached.world.slot? 2).map TaskSlot.atSafePoint = some false ∧
    (reached.world.slot? 3).map TaskSlot.atSafePoint = some false :=
  ⟨_, _, rfl, rfl, rfl, rfl, rfl, rfl, rfl, rfl⟩

end Machine

end SiteProfiler
