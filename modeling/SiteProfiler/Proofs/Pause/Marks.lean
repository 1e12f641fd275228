import SiteProfiler.Proofs.Pause.Owners

/-!
# What acts do to tasks

An act changes the tasks of the world in one of four ways.  It leaves them alone but for holds, it
marks tasks of one number as blocked, it clears such marks, or it changes the task of its own
thread from outside the protocol of pauses.  `Touches` tells of each way what the invariant of
stopped worlds needs.
-/

namespace SiteProfiler

namespace Machine

/-- Whether a thread may take a pause: it is a running task and has no pause. -/
def mayAcquire (machine : Machine) (t : ThreadId) : Bool :=
  (machine.world.slot? t).any (fun slot => slot.status = .running) &&
    (machine.thread t).tokens.isEmpty

/-- Acts of well-behaved threads.  Pauses are only taken by running tasks that have none, and
while a stop is on nobody registers or becomes running. -/
def heeds (machine : Machine) (act : Act) : Bool :=
  machine.within act &&
    match act with
    | .begin t command => !command.pauses || machine.mayAcquire t
    | .move t _ =>
      match (machine.thread t).todo with
      | .register :: _ => machine.world.stopper.isNone
      | .setStatus .running :: _ => machine.world.stopper.isNone
      | _ => true
    | _ => true

/-- What a move of a thread does to the tasks of the world. -/
inductive Touches (machine next : Machine) (t : ThreadId) : Prop where
  /-- Holds aside, every task is as it was. -/
  | nothing (held : TaskSlot → Bool)
      (hSlots : ∀ u, next.world.slot? u = (machine.world.slot? u).map fun slot =>
        { slot with held := held slot })
      (hMarking : (machine.thread t).phase.marking = true →
        (next.thread t).phase.marking = true ∧
          markOf (next.thread t).todo = markOf (machine.thread t).todo)
      (hLeaving : ∀ rest, (machine.thread t).todo = .leave :: rest →
        (next.thread t).todo = .leave :: rest)
      (hAcquiring : (next.thread t).phase.acquiring = true →
        (machine.thread t).phase.acquiring = true)
  | block (task : TaskId)
      (hSlots : ∀ u, next.world.slot? u = (machine.world.slot? u).map fun slot =>
        if slot.id = task then { slot with blocked := true } else slot)
      (hWas : (machine.thread t).phase = .refused) (hIs : (next.thread t).phase = .waiting)
      (hMark : markOf (next.thread t).todo = some task)
  | unblock (task : TaskId)
      (hSlots : ∀ u, next.world.slot? u = (machine.world.slot? u).map fun slot =>
        if slot.id = task then { slot with blocked := false } else slot)
      (hQuiet : machine.world.stoppedByOther t = false)
      (hWas : (machine.thread t).phase = .turned) (hIs : (next.thread t).phase = .entering)
      (hMark : markOf (machine.thread t).todo = some task)
  /-- Only the thread's own task changes.  It is parked only at the place where the thread leaves
  the safe point, no mark is set, and during a stop it stays at a safe point. -/
  | own
      (hOthers : ∀ u, u ≠ t → next.world.slot? u = machine.world.slot? u)
      (hWas : (machine.thread t).phase = .outside) (hIs : (next.thread t).phase = .outside)
      (hParked : ∀ slot, next.world.slot? t = some slot → slot.parked = true →
        (∃ rest, (next.thread t).todo = .leave :: rest) ∧
          .park slot.stack ∈ (machine.thread t).todo)
      (hBlocked : ∀ slot, next.world.slot? t = some slot → slot.blocked = true →
        ∃ old, machine.world.slot? t = some old ∧ old.id = slot.id ∧ old.blocked = true)
      (hSafe : ∀ slot, next.world.slot? t = some slot → machine.world.stopper.isSome = true →
        ∃ old, machine.world.slot? t = some old ∧
          (old.atSafePoint = true → slot.atSafePoint = true))

/-- A move that leaves the world alone, or changes only who stops it. -/
theorem touches_nothing {machine next : Machine} {t : ThreadId}
    (hSlots : ∀ u, next.world.slot? u = machine.world.slot? u)
    (hMarking : (machine.thread t).phase.marking = true →
      (next.thread t).phase.marking = true ∧
        markOf (next.thread t).todo = markOf (machine.thread t).todo)
    (hLeaving : ∀ rest, (machine.thread t).todo = .leave :: rest →
      (next.thread t).todo = .leave :: rest)
    (hAcquiring : (next.thread t).phase.acquiring = true →
      (machine.thread t).phase.acquiring = true) : machine.Touches next t :=
  .nothing TaskSlot.held (fun u => (hSlots u).trans Option.map_id'.symm) hMarking hLeaving
    hAcquiring

section Own

variable {machine : Machine} {t : ThreadId} (woken : ThreadId) {rest : List Move}

/-- A change of the thread's own task that keeps its number and sets no mark. -/
theorem touches_change {next : Machine} (change : TaskSlot → TaskSlot)
    (hWas : (machine.thread t).phase = .outside) (hIs : (next.thread t).phase = .outside)
    (hSlots : ∀ u, next.world.slot? u =
      if u = t then (machine.world.slot? u).map change else machine.world.slot? u)
    (hMarks : ∀ slot, (change slot).id = slot.id ∧ (change slot).blocked = slot.blocked)
    (hParked : ∀ slot, machine.world.slot? t = some slot → (change slot).parked = true →
      (∃ rest, (next.thread t).todo = .leave :: rest) ∧
        .park (change slot).stack ∈ (machine.thread t).todo)
    (hSafe : ∀ slot, machine.world.stopper.isSome = true →
      slot.atSafePoint = true → (change slot).atSafePoint = true) :
    machine.Touches next t := by
  have hOwn : ∀ slot, next.world.slot? t = some slot →
      ∃ old, machine.world.slot? t = some old ∧ change old = slot := by
    intro slot hSlot
    rw [hSlots, if_pos rfl] at hSlot
    exact Option.map_eq_some_iff.mp hSlot
  refine .own (fun u hU => by rw [hSlots, if_neg hU]) hWas hIs ?_ ?_ ?_
  · intro slot hSlot hIsParked
    obtain ⟨old, hOld, rfl⟩ := hOwn slot hSlot
    exact hParked old hOld hIsParked
  · intro slot hSlot hIsBlocked
    obtain ⟨old, hOld, rfl⟩ := hOwn slot hSlot
    exact ⟨old, hOld, (hMarks old).1.symm, (hMarks old).2.symm.trans hIsBlocked⟩
  · intro slot hSlot hStop
    obtain ⟨old, hOld, rfl⟩ := hOwn slot hSlot
    exact ⟨old, hOld, hSafe old hStop⟩

variable (consistent : machine.world.Consistent)
include consistent

theorem touches_setStatus {status : TaskStatus}
    (hTodo : (machine.thread t).todo = .setStatus status :: rest)
    (hHeeds : machine.heeds (.move t woken) = true) (hRest : phaseOf rest = .outside)
    (hParked : ∀ slot, machine.world.slot? t = some slot → slot.parked = true →
      ∃ rest, (machine.thread t).todo = .leave :: rest) :
    machine.Touches (machine.perform t woken (.setStatus status) rest) t := by
  refine touches_change (fun slot => { slot with status := status })
    (by rw [Thread.phase, hTodo]; rfl) (by simpa [perform, Thread.phase] using hRest)
    (fun u => consistent.slot?_modifySlot t u _) (fun _ => ⟨rfl, rfl⟩) ?_ ?_
  · intro slot hSlot hIs
    obtain ⟨more, hLeave⟩ := hParked slot hSlot hIs
    cases hTodo.symm.trans hLeave
  · intro slot hStop _
    cases status with
    | running =>
      simp only [heeds, hTodo, Bool.and_eq_true, Option.isNone_iff_eq_none] at hHeeds
      rw [hHeeds.2] at hStop
      cases hStop
    | runnable => simp [TaskSlot.atSafePoint]
    | waiting => simp [TaskSlot.atSafePoint]

theorem touches_register (hTodo : (machine.thread t).todo = .register :: rest)
    (hHeeds : machine.heeds (.move t woken) = true) (hRest : phaseOf rest = .outside) :
    machine.Touches (machine.perform t woken .register rest) t := by
  have hPhase : ((machine.perform t woken .register rest).thread t).phase = .outside := by
    simpa [perform, Thread.phase] using hRest
  cases hSlot : machine.world.slot? t with
  | some slot =>
    have hWorld : (machine.perform t woken .register rest).world = machine.world := by
      change (machine.world.register t).2 = machine.world
      rw [SafepointWorld.register_of_some hSlot]
    refine touches_nothing (fun u => by rw [hWorld]) ?_ ?_ ?_
    · simp [hTodo, Thread.phase, phaseOf, Move.phase?, Phase.marking]
    · simp [hTodo]
    · simp [hPhase, Phase.acquiring]
  | none =>
    have hSlots := consistent.slot?_register hSlot
    refine .own ?_ (by rw [Thread.phase, hTodo]; rfl) hPhase ?_ ?_ ?_
    · intro u hU
      exact (hSlots u).trans (if_neg hU)
    · intro slot hNew hIs
      cases hNew.symm.trans ((hSlots t).trans (if_pos rfl))
      cases hIs
    · intro slot hNew hIs
      cases hNew.symm.trans ((hSlots t).trans (if_pos rfl))
      cases hIs
    · intro slot _ hStop
      simp only [heeds, hTodo, Bool.and_eq_true, Option.isNone_iff_eq_none] at hHeeds
      rw [hHeeds.2] at hStop
      cases hStop

theorem touches_unregister {registration : Registration}
    (hTodo : (machine.thread t).todo = .unregister registration :: rest)
    (hOwn : registration.thread = t) (hRest : phaseOf rest = .outside) :
    machine.Touches (machine.perform t woken (.unregister registration) rest) t := by
  have hSlots : ∀ u, (machine.perform t woken (.unregister registration) rest).world.slot? u =
      if u = t then none else machine.world.slot? u := by
    rw [← hOwn]
    exact fun u => consistent.slot?_unregister registration.thread u
  refine .own ?_ (by rw [Thread.phase, hTodo]; rfl) (by simpa [perform, Thread.phase] using hRest)
    ?_ ?_ ?_
  · intro u hU
    rw [hSlots, if_neg hU]
  all_goals
    intro slot hSlot
    rw [hSlots, if_pos rfl] at hSlot
    cases hSlot

theorem touches_leave (hTodo : (machine.thread t).todo = .leave :: rest)
    (hRest : phaseOf rest = .outside) :
    machine.Touches (machine.perform t woken .leave rest) t := by
  simp only [perform]
  split
  · refine touches_nothing (fun _ => rfl) ?_ ?_ ?_ <;>
      simp [hTodo, Thread.phase, phaseOf, Move.phase?, Phase.marking, Phase.acquiring]
  next hOver =>
    refine touches_change (fun slot => { slot with parked := false })
      (by rw [Thread.phase, hTodo]; rfl) (by simpa [Thread.phase] using hRest)
      (fun u => consistent.slot?_modifySlot t u _) (fun _ => ⟨rfl, rfl⟩) ?_ ?_
    · exact fun _ _ hIs => by cases hIs
    · exact fun _ hStop => absurd hStop hOver

/-- A thread parks when it finds a stop on, and goes on at once when it finds it over. -/
theorem touches_park {stack : CallStack} (hTodo : (machine.thread t).todo = .park stack :: rest)
    (hRest : phaseOf rest = .outside) :
    machine.Touches (machine.perform t woken (.park stack) rest) t := by
  have hWas : (machine.thread t).phase = .outside := by rw [Thread.phase, hTodo]; rfl
  simp only [perform]
  split
  · refine touches_nothing (fun _ => rfl) ?_ ?_ ?_ <;>
      simp [hTodo, hRest, Thread.phase, phaseOf, Move.phase?, Phase.marking, Phase.acquiring]
  next parked hPark =>
    obtain ⟨-, -, rfl⟩ := SafepointWorld.park?_eq_some hPark
    have hSlots := fun u => consistent.slot?_modifySlot t u fun own =>
      { own with parked := true, stack := stack }
    split
    · refine touches_change (fun slot => { slot with parked := true, stack := stack })
        hWas (by rw [Thread.phase, sleep_self]; rfl) hSlots (fun _ => ⟨rfl, rfl⟩) ?_ ?_
      · exact fun _ _ _ => ⟨⟨rest, by rw [sleep_self]⟩, by rw [hTodo]; exact List.mem_cons_self⟩
      · exact fun _ _ _ => rfl
    next hOver =>
      have hParked := consistent.modifySlot t
        (fun slot => { slot with parked := true, stack := stack }) fun _ => rfl
      refine touches_change (fun slot => { slot with parked := false, stack := stack })
        hWas (by simpa [Thread.phase] using hRest) ?_ (fun _ => ⟨rfl, rfl⟩) ?_ ?_
      · intro u
        refine (hParked.slot?_modifySlot t u _).trans ?_
        rw [hSlots]
        split
        · rw [Option.map_map]
          rfl
        · rfl
      · exact fun _ _ hIs => by cases hIs
      · intro _ hStop
        have hSame : (machine.world.modifySlot t fun own =>
            { own with parked := true, stack := stack }).stopper = machine.world.stopper :=
          congrArg Prod.fst (machine.world.stop_modifySlot t _)
        exact absurd (by rw [hSame, hStop]) hOver

end Own

/-- What neither marks nor holds change in a task. -/
def Keeps (old slot : TaskSlot) : Prop :=
  slot.id = old.id ∧ slot.status = old.status ∧ slot.parked = old.parked ∧ slot.stack = old.stack

/-- A task is what it was but for its marks, unless the move is one of its own thread from outside
the protocol. -/
theorem Touches.keeps {machine next : Machine} {t : ThreadId} (touches : machine.Touches next t)
    (u : ThreadId) :
    (u = t ∧ (machine.thread t).phase = .outside ∧ (next.thread t).phase = .outside) ∨
      ∀ slot, (machine.world.slot? u = some slot →
          ∃ new, next.world.slot? u = some new ∧ Keeps slot new) ∧
        (next.world.slot? u = some slot →
          ∃ old, machine.world.slot? u = some old ∧ Keeps old slot) := by
  have hMap : ∀ change : TaskSlot → TaskSlot, (∀ slot, Keeps slot (change slot)) →
      next.world.slot? u = (machine.world.slot? u).map change →
      ∀ slot, (machine.world.slot? u = some slot →
          ∃ new, next.world.slot? u = some new ∧ Keeps slot new) ∧
        (next.world.slot? u = some slot →
          ∃ old, machine.world.slot? u = some old ∧ Keeps old slot) := by
    intro change hKeeps hSlots slot
    constructor
    · intro hSlot
      exact ⟨change slot, by rw [hSlots, hSlot, Option.map_some], hKeeps slot⟩
    · intro hSlot
      rw [hSlots] at hSlot
      obtain ⟨old, hOld, rfl⟩ := Option.map_eq_some_iff.mp hSlot
      exact ⟨old, hOld, hKeeps old⟩
  cases touches with
  | nothing held hSlots =>
    exact .inr (hMap (fun slot => { slot with held := held slot })
      (fun slot => ⟨rfl, rfl, rfl, rfl⟩) (hSlots u))
  | block task hSlots =>
    refine .inr (hMap _ (fun slot => ?_) (hSlots u))
    split <;> exact ⟨rfl, rfl, rfl, rfl⟩
  | unblock task hSlots =>
    refine .inr (hMap _ (fun slot => ?_) (hSlots u))
    split <;> exact ⟨rfl, rfl, rfl, rfl⟩
  | own hOthers hWas hIs =>
    by_cases hU : u = t
    · exact .inl ⟨hU, hWas, hIs⟩
    · refine .inr (hMap id (fun slot => ⟨rfl, rfl, rfl, rfl⟩) ?_)
      rw [hOthers u hU, Option.map_id]
      rfl

theorem touches_perform {machine : Machine} {t : ThreadId} (woken : ThreadId) {move : Move}
    {rest : List Move} (hTodo : (machine.thread t).todo = move :: rest)
    (hHeeds : machine.heeds (.move t woken) = true) (sound : (machine.thread t).Sound t)
    (consistent : machine.world.Consistent)
    (hParked : ∀ slot, machine.world.slot? t = some slot → slot.parked = true →
      ∃ rest, (machine.thread t).todo = .leave :: rest) :
    machine.Touches (machine.perform t woken move rest) t := by
  have hLeads := sound.leads hTodo
  have hWas : (machine.thread t).phase = phaseOf (move :: rest) := by rw [Thread.phase, hTodo]
  cases move with
  | block task =>
    refine .block task ?_ hWas ?_ ?_
    · exact fun u => consistent.slot?_modifyTask task u _
    · simpa [perform, Thread.phase] using hLeads.1
    · simpa [perform] using hLeads.2
  | unblock task =>
    simp only [perform]
    split
    · refine touches_nothing (fun _ => rfl) ?_ ?_ ?_ <;>
        simp [hTodo, Thread.phase, phaseOf, Move.phase?, Phase.marking, Phase.acquiring]
    next hQuiet =>
      refine .unblock task ?_ (Bool.eq_false_iff.mpr hQuiet) hWas ?_ (by rw [hTodo]; rfl)
      · exact fun u => consistent.slot?_modifyTask task u _
      · rw [Thread.phase, change_self]
        exact hLeads
  | hold task held =>
    have hSame := fun u => consistent.slot?_modifyTask task u fun slot => { slot with held := held }
    refine .nothing (fun slot => if slot.id = task then held else slot.held) ?_ ?_ ?_ ?_
    · intro u
      refine (hSame u).trans (congrArg (Option.map · _) (funext fun slot => ?_))
      split <;> rfl
    all_goals simp [perform, hTodo, Thread.phase, phaseOf, Move.phase?, markOf]
  | take task =>
    simp only [perform]
    split <;> refine touches_nothing (fun _ => rfl) ?_ ?_ ?_ <;>
      simp [hTodo, Thread.phase, queueMoves, phaseOf, Move.phase?, Phase.marking, Phase.acquiring]
  | awaitTurn =>
    have hRest : phaseOf rest = .turned := hLeads
    simp only [perform]
    split <;> refine touches_nothing (fun _ => rfl) ?_ ?_ ?_ <;>
      simp [hTodo, hRest, Thread.phase, phaseOf, Move.phase?, Phase.marking, Phase.acquiring,
        markOf]
  | raise =>
    have hRest : phaseOf rest = .paused := hLeads
    simp only [perform]
    split <;> refine touches_nothing (fun _ => rfl) ?_ ?_ ?_ <;>
      simp [hTodo, hRest, Thread.phase, phaseOf, Move.phase?, Phase.marking, Phase.acquiring]
  | drain =>
    have hRest : phaseOf rest = .paused := hLeads
    simp only [perform]
    split <;> refine touches_nothing (fun _ => rfl) ?_ ?_ ?_ <;>
      simp [hTodo, hRest, Thread.phase, phaseOf, Move.phase?, Phase.marking, Phase.acquiring]
  | poll stack =>
    have hRest : phaseOf rest = .outside := hLeads
    simp only [perform]
    split <;> refine touches_nothing (fun _ => rfl) ?_ ?_ ?_ <;>
      simp [hTodo, hRest, Thread.phase, phaseOf, Move.phase?, Phase.marking, Phase.acquiring]
  | dumpTask size allTasks =>
    have hRest : phaseOf rest = .outside := hLeads
    cases allTasks <;> refine touches_nothing (fun _ => rfl) ?_ ?_ ?_ <;>
      simp [perform, hTodo, hRest, Thread.phase, phaseOf, Move.phase?, Phase.marking,
        Phase.acquiring]
  | dumpCheck current before size =>
    simp only [perform]
    split <;> refine touches_nothing (fun _ => rfl) ?_ ?_ ?_ <;>
      simp [hTodo, Thread.phase, releaseMoves, phaseOf, Move.phase?, Phase.marking, Phase.acquiring]
  | park stack => exact touches_park woken consistent hTodo hLeads
  | leave => exact touches_leave woken consistent hTodo hLeads
  | register => exact touches_register woken consistent hTodo hHeeds hLeads
  | unregister registration =>
    have hOwn := sound.ownMoves registration (by rw [hTodo]; exact List.mem_cons_self)
    exact touches_unregister woken consistent hTodo hOwn hLeads
  | setStatus status => exact touches_setStatus woken consistent hTodo hHeeds hLeads hParked
  | _ =>
    refine touches_nothing (fun _ => rfl) ?_ ?_ ?_ <;>
      simp_all [perform, Thread.phase, phaseOf, Move.phase?, Phase.marking, Phase.acquiring, markOf,
        acquireMoves, releaseMoves, Move.LeadsTo]

/-! ## What moves keep -/

theorem consistent_perform {machine : Machine} (t woken : ThreadId) (move : Move)
    (rest : List Move) (consistent : machine.world.Consistent) :
    (machine.perform t woken move rest).world.Consistent := by
  cases move with
  | block task => exact consistent.modifyTask task fun _ => rfl
  | unblock task =>
    simp only [perform]
    split
    · exact consistent
    · exact consistent.modifyTask task fun _ => rfl
  | hold task held => exact consistent.modifyTask task fun _ => rfl
  | setStatus status => exact consistent.modifySlot t _ fun _ => rfl
  | register => exact consistent.register t
  | unregister registration => exact consistent.unregister registration.thread
  | raise =>
    simp only [perform]
    split <;> exact ⟨consistent.placed, consistent.injective, consistent.covered,
      consistent.distinct, consistent.numbered⟩
  | lift =>
    exact ⟨consistent.placed, consistent.injective, consistent.covered,
      consistent.distinct, consistent.numbered⟩
  | leave =>
    simp only [perform]
    split
    · exact consistent
    · exact consistent.modifySlot t _ fun _ => rfl
  | park stack =>
    simp only [perform]
    split
    · exact consistent
    next parked hPark =>
      obtain ⟨-, -, rfl⟩ := SafepointWorld.park?_eq_some hPark
      have hParked := consistent.modifySlot t
        (fun slot => { slot with parked := true, stack := stack }) fun _ => rfl
      split
      · exact hParked
      · exact hParked.modifySlot t _ fun _ => rfl
  | _ =>
    simp only [perform]
    (repeat' split) <;> exact consistent

/-- A thread comes to a safe point only with the stack its call came with. -/
theorem mem_safepoint_perform {machine : Machine} {t : ThreadId} (woken : ThreadId) {move : Move}
    {rest : List Move} (hTodo : (machine.thread t).todo = move :: rest) {stack : CallStack}
    (hMem : .poll stack ∈ ((machine.perform t woken move rest).thread t).todo ∨
      .park stack ∈ ((machine.perform t woken move rest).thread t).todo) :
    .poll stack ∈ (machine.thread t).todo ∨ .park stack ∈ (machine.thread t).todo := by
  rw [hTodo]
  cases move <;> simp only [perform] at hMem <;> (repeat' split at hMem) <;>
    simp_all [acquireMoves, queueMoves, releaseMoves] <;> tauto

/-- Only the call for a safe point brings a stack to one. -/
theorem mem_safepoint_begin {thread : Thread} {command : Command} {stack : CallStack}
    (hMem : .poll stack ∈ (command.begin thread).todo ∨
      .park stack ∈ (command.begin thread).todo) : command = .safepoint stack := by
  cases command <;> simp only [Command.begin] at hMem <;> (repeat' split at hMem) <;>
    simp_all [acquireMoves, releaseMoves, unregisterMoves]

/-- A thread outside the protocol gets into it only by beginning a call. -/
theorem outside_perform {machine : Machine} {t : ThreadId} (woken : ThreadId) {move : Move}
    {rest : List Move} (hTodo : (machine.thread t).todo = move :: rest)
    (hLeads : move.LeadsTo rest) (hOutside : (machine.thread t).phase = .outside) :
    ((machine.perform t woken move rest).thread t).phase = .outside := by
  rw [Thread.phase, hTodo] at hOutside
  cases move <;> simp only [perform] <;> (repeat' split) <;>
    simp_all [Thread.phase, phaseOf, Move.phase?, Move.LeadsTo]

end Machine

end SiteProfiler
