import SiteProfiler.Proofs.Pause.Courses
import SiteProfiler.Proofs.Pause.Safety
import SiteProfiler.Proofs.Pause.Wakeups

/-!
# Parties of threads with programs

A party is a number of threads that have all registered before the first of them goes on, and run a
program each.  `Orderly` gathers what holds in every run of a party.
-/

namespace SiteProfiler

/-- Threads and what is left of their programs. -/
structure Party where
  machine : Machine
  left : ThreadId → List Command
  /-- The threads that have taken the semaphore and not yet released it. -/
  takers : List ThreadId

namespace Machine

/-- A thread has registered. -/
def enroll (machine : Machine) (t : ThreadId) : Machine :=
  (machine.setThread t (Command.register.begin (machine.thread t))).perform t t .register []

/-- Threads have registered, one after the other. -/
def gather (threads : List ThreadId) : Machine := threads.foldl enroll start

/-- The task of a thread in such a world. -/
def ownTask (threads : List ThreadId) (t : ThreadId) : TaskId :=
  ((gather threads).world.currentTask t).id

/-- An act has brought its thread past a place where it takes the semaphore. -/
def takes (machine next : Machine) : Act → Bool
  | .move t _ =>
    match (machine.thread t).todo with
    | .take _ :: rest | .awaitTurn :: rest => (next.thread t).todo = rest
    | _ => false
  | _ => false

/-- An act releases the semaphore. -/
def frees (machine : Machine) : Act → Bool
  | .move t _ =>
    match (machine.thread t).todo with
    | .free :: _ => true
    | _ => false
  | _ => false

end Machine

namespace Party

/-- Threads that have registered and are about to run their programs. -/
def gather (threads : List ThreadId) (programs : ThreadId → List Command) : Party :=
  ⟨.gather threads, programs, []⟩

/-- An act has led to a machine. -/
def reach (party : Party) (act : Act) (machine : Machine) : Party :=
  { party with
    machine := machine
    takers :=
      if party.machine.takes machine act then act.thread :: party.takers
      else if party.machine.frees act then party.takers.erase act.thread
      else party.takers }

/-- An act of a party.  A thread begins the commands of its program in order, and a notification of
the semaphore reaches a thread that waits for it, if there is one. -/
def act? (party : Party) : Act → Option Party
  | .begin t command =>
    match party.left t with
    | [] => none
    | first :: rest =>
      if first = command then
        (party.machine.act? (.begin t command)).map fun machine =>
          { party.reach (.begin t command) machine with
            left := fun other => if other = t then rest else party.left other }
      else none
  | act =>
    if party.machine.hears act then (party.machine.act? act).map (party.reach act) else none

def run? (party : Party) (acts : List Act) : Option Party := acts.foldlM act? party

/-- Every thread has run its program to the end. -/
def Finished (party : Party) : Prop :=
  ∀ t, (party.machine.thread t).todo = [] ∧ party.left t = []

/-- Some thread can go on: it begins its next command, or it makes a move, awake. -/
def CanStep (party : Party) : Prop :=
  ∃ act, (∀ t, act ≠ .rouse t) ∧ (party.act? act).isSome = true

end Party

/-! ## The invariant of a party -/

namespace Machine

theorem aborted_perform (machine : Machine) (t woken : ThreadId) {move : Move} (rest : List Move)
    (hMove : move ≠ .abort) : (machine.perform t woken move rest).aborted = machine.aborted := by
  cases move with
  | abort => exact absurd rfl hMove
  | _ =>
    simp only [perform]
    (repeat' split) <;> rfl

/-- What an act does to the semaphore, in terms of who takes and who releases it. -/
theorem semaphore_act {machine next : Machine} {act : Act}
    (hAct : machine.act? act = some next) :
    (machine.takes next act = true ∧ machine.held = false ∧ next.held = true) ∨
      (machine.takes next act = false ∧ machine.frees act = true ∧
        (machine.standing act.thread).owns = true ∧ next.held = false) ∨
      (machine.takes next act = false ∧ machine.frees act = false ∧
        next.held = machine.held) := by
  cases act with
  | begin t command =>
    obtain ⟨-, rfl⟩ := act?_begin hAct
    exact .inr (.inr ⟨rfl, rfl, rfl⟩)
  | rouse t =>
    cases hAct
    exact .inr (.inr ⟨rfl, rfl, rfl⟩)
  | move t woken =>
    obtain ⟨move, rest, hTodo, -, rfl⟩ := act?_move hAct
    simp only [takes, frees, hTodo]
    cases move with
    | take task =>
      cases hHeld : machine.held with
      | true =>
        have hWaits : queueMoves task ++ rest ≠ rest := by
          intro hSame
          have hLength := congrArg List.length hSame
          simp only [queueMoves, List.length_append, List.length_cons, List.length_nil] at hLength
          omega
        simp [perform, hHeld, hWaits]
      | false => simp [perform, hHeld]
    | awaitTurn =>
      cases hHeld : machine.held with
      | true => simp [perform, hHeld, hTodo]
      | false => simp [perform, hHeld]
    | free =>
      have hOwns : (machine.standing t).owns = true := by
        simp [standing, Thread.standing, Thread.phase, hTodo, phaseOf, Move.phase?, Phase.owns]
      exact .inr (.inl ⟨rfl, rfl, hOwns, rfl⟩)
    | _ =>
      refine .inr (.inr ⟨rfl, rfl, ?_⟩)
      simp only [perform]
      (repeat' split) <;> rfl

end Machine

namespace Party

/-- What holds in every run of a party. -/
structure Orderly (own : ThreadId → TaskId) (party : Party) : Prop where
  safe : ∃ acts, party.machine.Safe (lastBegun acts)
  heard : party.machine.Heard
  alive : party.machine.aborted = false
  course : ∀ t, Course t (own t) (party.machine.world.slot? t) (party.machine.thread t)
    (party.left t)
  takers : ∀ t, t ∈ party.takers ↔ (party.machine.standing t).owns = true
  nodup : party.takers.Nodup

theorem act?_begin {party next : Party} {t : ThreadId} {command : Command}
    (hAct : party.act? (.begin t command) = some next) :
    ∃ rest machine, party.left t = command :: rest ∧
      party.machine.act? (.begin t command) = some machine ∧
      next = { party.reach (.begin t command) machine with
        left := fun other => if other = t then rest else party.left other } := by
  simp only [act?] at hAct
  split at hAct
  next => cases hAct
  next first rest hLeft =>
    split at hAct
    next hFirst =>
      obtain ⟨machine, hMachine, rfl⟩ := Option.map_eq_some_iff.mp hAct
      exact ⟨rest, machine, hFirst ▸ hLeft, hMachine, rfl⟩
    next => cases hAct

theorem act?_of_not_begin {party next : Party} {act : Act}
    (hAct : party.act? act = some next) (hBegin : ∀ t command, act ≠ .begin t command) :
    ∃ machine, party.machine.hears act = true ∧ party.machine.act? act = some machine ∧
      next = party.reach act machine := by
  cases act with
  | begin t command => exact absurd rfl (hBegin t command)
  | _ =>
    simp only [act?] at hAct
    split at hAct
    next hHears =>
      obtain ⟨machine, hMachine, rfl⟩ := Option.map_eq_some_iff.mp hAct
      exact ⟨machine, hHears, hMachine, rfl⟩
    next => cases hAct

namespace Orderly

variable {own : ThreadId → TaskId} {party : Party} (orderly : party.Orderly own)
include orderly

/-- The takers of the semaphore are its owners, also after an act. -/
theorem takers_reach {act : Act} {machine : Machine}
    (hAct : party.machine.act? act = some machine)
    (follows : party.machine.Follows machine act.thread) :
    (∀ u, u ∈ (party.reach act machine).takers ↔ (machine.standing u).owns = true) ∧
      (party.reach act machine).takers.Nodup := by
  obtain ⟨acts, safe⟩ := orderly.safe
  have manned := safe.regular.manned
  have hElse : ∀ u, u ≠ act.thread →
      (u ∈ party.takers ↔ (machine.standing u).owns = true) := by
    intro u hU
    rw [orderly.takers, Machine.standing, Machine.standing, follows.others u hU]
  rcases Machine.semaphore_act hAct with
    ⟨hTakes, hFree, hHeld⟩ | ⟨hTakes, hFrees, hOwned, hFree⟩ | ⟨hTakes, hFrees, hHeld⟩
  · have hOwns : (machine.standing act.thread).owns = true := by
      rcases follows.passage.held with ⟨hSame, -⟩ | ⟨-, -, hOwns⟩ | ⟨-, -, hFreed⟩
      · cases (hHeld.symm.trans hSame).trans hFree
      · exact hOwns
      · cases hHeld.symm.trans hFreed
    have hNew : act.thread ∉ party.takers := by
      intro hMem
      cases hFree.symm.trans (manned.held_of_owns _ ((orderly.takers _).mp hMem))
    simp only [Party.reach, if_pos hTakes]
    refine ⟨fun u => ?_, List.nodup_cons.mpr ⟨hNew, orderly.nodup⟩⟩
    by_cases hU : u = act.thread
    · rw [hU]
      exact ⟨fun _ => hOwns, fun _ => List.mem_cons_self⟩
    · rw [List.mem_cons, or_iff_right hU]
      exact hElse u hU
  · have hHeld := manned.held_of_owns _ hOwned
    have hOwns : (machine.standing act.thread).owns = false := by
      rcases follows.passage.held with ⟨hSame, -⟩ | ⟨-, hTaken, -⟩ | ⟨-, hOwns, -⟩
      · cases (hFree.symm.trans hSame).trans hHeld
      · cases hFree.symm.trans hTaken
      · exact hOwns
    simp only [Party.reach, hTakes, Bool.false_eq_true, if_false, if_pos hFrees]
    refine ⟨fun u => ?_, orderly.nodup.erase _⟩
    rw [orderly.nodup.mem_erase_iff]
    by_cases hU : u = act.thread
    · rw [hU, hOwns]
      simp
    · rw [and_iff_right hU]
      exact hElse u hU
  · have hOwns : (machine.standing act.thread).owns =
        (party.machine.standing act.thread).owns := by
      rcases follows.passage.held with ⟨-, hSame⟩ | ⟨hFree, hTaken, -⟩ | ⟨hOwned, -, hFreed⟩
      · exact hSame
      · cases (hTaken.symm.trans hHeld).trans hFree
      · cases (hFreed.symm.trans hHeld).trans (manned.held_of_owns _ hOwned)
    simp only [Party.reach, hTakes, hFrees, Bool.false_eq_true, if_false]
    refine ⟨fun u => ?_, orderly.nodup⟩
    by_cases hU : u = act.thread
    · rw [hU, orderly.takers, hOwns]
    · exact hElse u hU

theorem reach {act : Act} {machine : Machine} {left : ThreadId → List Command}
    (hHeeds : party.machine.heeds act = true) (hHears : party.machine.hears act = true)
    (hAct : party.machine.act? act = some machine) (hAlive : machine.aborted = false)
    (hCourse : ∀ t, Course t (own t) (machine.world.slot? t) (machine.thread t) (left t)) :
    Orderly own { party.reach act machine with left := left } := by
  obtain ⟨acts, safe⟩ := orderly.safe
  have hWithin : party.machine.within act = true := by
    simp only [Machine.heeds, Bool.and_eq_true] at hHeeds
    exact hHeeds.1
  obtain ⟨follows, -⟩ := safe.owned_act hWithin hAct
  obtain ⟨hTakers, hNodup⟩ := orderly.takers_reach hAct follows
  exact ⟨⟨_, safe.after hHeeds hAct⟩, orderly.heard.after hHears hAct, hAlive, hCourse, hTakers,
    hNodup⟩

/-- A thread begins the next command of its program. -/
theorem begin {t : ThreadId} {command : Command} {next : Party}
    (hAct : party.act? (.begin t command) = some next) : next.Orderly own := by
  obtain ⟨rest, machine, hLeft, hMachine, rfl⟩ := act?_begin hAct
  obtain ⟨hTodo, rfl⟩ := Machine.act?_begin hMachine
  obtain ⟨acts, safe⟩ := orderly.safe
  have hCourse := orderly.course t
  rw [hLeft] at hCourse
  generalize hSlot : party.machine.world.slot? t = slot? at hCourse
  cases hCourse with
  | @working slot _ _ working =>
    obtain ⟨hOnward, hDirect, hTokens⟩ := working.begin (safe.regular.sound t) hTodo
    have hHeeds : party.machine.heeds (.begin t command) = true := by
      simp only [Machine.heeds, Machine.within, hDirect, Bool.not_false, Bool.true_and]
      cases hPauses : command.pauses with
      | false => rfl
      | true => simp [Machine.mayAcquire, hSlot, working.running, hTokens hPauses]
    refine orderly.reach hHeeds rfl hMachine orderly.alive fun u => ?_
    by_cases hU : u = t
    · subst hU
      rw [Machine.setThread_self, if_pos rfl]
      exact hSlot ▸ hOnward
    · rw [Machine.setThread_of_ne _ _ _ hU, if_neg hU]
      exact orderly.course u

/-- A thread makes a move. -/
theorem move {t woken : ThreadId} {next : Party}
    (hAct : party.act? (.move t woken) = some next) : next.Orderly own := by
  obtain ⟨machine, hHears, hMachine, rfl⟩ := act?_of_not_begin hAct (by simp)
  obtain ⟨move, rest, hTodo, hAwake, rfl⟩ := Machine.act?_move hMachine
  obtain ⟨acts, safe⟩ := orderly.safe
  have hMove := (orderly.course t).tame_or_unregister (hTodo ▸ List.mem_cons_self)
  have hStops : (party.machine.thread t).tokens ≠ [] → party.machine.world.stopper = some t := by
    intro hTokens
    obtain ⟨task, others, hSome⟩ := List.exists_cons_of_ne_nil hTokens
    apply safe.owned.stopper_of_stops t
    rw [Machine.standing_of_tokens hSome]
    rfl
  obtain ⟨hOnward, hOthers⟩ := (orderly.course t).perform safe.consistent hStops woken hTodo
    ((safe.regular.sound t).leads hTodo)
  have hHeeds : party.machine.heeds (.move t woken) = true := by
    simp only [Machine.heeds, Machine.within, hTodo, Bool.true_and]
    split
    · simp_all [Move.tame]
    · simp_all [Move.tame]
    · rfl
  have hAlive : (party.machine.perform t woken move rest).aborted = false := by
    rw [Machine.aborted_perform, orderly.alive]
    rintro rfl
    simp [Move.tame] at hMove
  have hCourse : ∀ u, Course u (own u)
      ((party.machine.perform t woken move rest).world.slot? u)
      ((party.machine.perform t woken move rest).thread u) (party.left u) := by
    intro u
    by_cases hU : u = t
    · subst hU
      exact hOnward
    · rw [hOthers u hU, Machine.perform_of_ne _ _ _ _ _ hU]
      exact orderly.course u
  exact orderly.reach hHeeds hHears hMachine hAlive hCourse

theorem rouse {t : ThreadId} {next : Party} (hAct : party.act? (.rouse t) = some next) :
    next.Orderly own := by
  obtain ⟨machine, hHears, hMachine, rfl⟩ := act?_of_not_begin hAct (by simp)
  refine orderly.reach rfl hHears hMachine ?_ ?_
  · cases hMachine
    exact orderly.alive
  · cases hMachine
    exact orderly.course

theorem after {act : Act} {next : Party} (hAct : party.act? act = some next) :
    next.Orderly own := by
  cases act with
  | begin t command => exact orderly.begin hAct
  | move t woken => exact orderly.move hAct
  | rouse t => exact orderly.rouse hAct

/-- At most one thread has taken the semaphore and not yet released it. -/
theorem length_takers_le : party.takers.length ≤ 1 := by
  obtain ⟨acts, safe⟩ := orderly.safe
  have hUnique : ∀ t ∈ party.takers, ∀ u ∈ party.takers, t = u := fun t hT u hU =>
    safe.regular.manned.unique t u ((orderly.takers t).mp hT) ((orderly.takers u).mp hU)
  have hNodup := orderly.nodup
  match hTakers : party.takers with
  | [] => exact Nat.zero_le 1
  | [_] => exact Nat.le_refl 1
  | t :: u :: rest =>
    rw [hTakers] at hUnique hNodup
    have hSame : t = u := hUnique t (by simp) u (by simp)
    simp [hSame] at hNodup

omit orderly in
theorem run {acts : List Act} : ∀ {party reached : Party}, party.Orderly own →
    party.run? acts = some reached → reached.Orderly own := by
  induction acts with
  | nil =>
    intro party reached orderly hRun
    cases hRun
    exact orderly
  | cons act acts ih =>
    intro party reached orderly hRun
    rw [run?, List.foldlM_cons] at hRun
    obtain ⟨next, hAct, hRest⟩ := Option.bind_eq_some_iff.mp hRun
    exact ih (orderly.after hAct) hRest

end Orderly

end Party

/-! ## Threads that have registered -/

namespace Machine

/-- The given threads have registered, and nothing else has happened. -/
structure Gathered (threads : List ThreadId) (machine : Machine) : Prop where
  safe : ∃ acts, machine.Safe (lastBegun acts)
  heard : machine.Heard
  alive : machine.aborted = false
  awake : machine.sleepers = []
  quiet : machine.world.stopper = none
  joined : ∀ t ∈ threads, ∃ slot, machine.world.slot? t = some slot ∧ slot.status = .running ∧
    machine.thread t = ⟨[], [⟨t, slot.id, true⟩], [], some (.task slot.id), false⟩
  others : ∀ t, t ∉ threads → machine.world.slot? t = none ∧ machine.thread t = .fresh

theorem gathered_start : Gathered [] start where
  safe := ⟨[], safe_start⟩
  heard := heard_start
  alive := rfl
  awake := rfl
  quiet := rfl
  joined := fun _ hMem => absurd hMem List.not_mem_nil
  others := fun _ _ => ⟨rfl, rfl⟩

/-- To register is to begin the command and to make its move. -/
theorem Gathered.acts {threads : List ThreadId} {machine : Machine}
    (gathered : Gathered threads machine) {t : ThreadId} (hNew : t ∉ threads) :
    ∃ told, machine.act? (.begin t .register) = some told ∧
      told.act? (.move t t) = some (machine.enroll t) ∧ told.heeds (.move t t) = true ∧
      told.hears (.move t t) = true := by
  obtain ⟨-, hFresh⟩ := gathered.others t hNew
  have hAwake : t ∉ machine.queue ∧ t ∉ machine.asleep := by
    have hNone : t ∉ machine.sleepers := by
      rw [gathered.awake]
      exact List.not_mem_nil
    simpa [sleepers] using hNone
  have hTodo : ((machine.setThread t (Command.register.begin (machine.thread t))).thread t).todo =
      [.register] := by
    rw [setThread_self]
    rfl
  refine ⟨machine.setThread t (Command.register.begin (machine.thread t)), ?_, ?_, ?_, ?_⟩
  · simp [act?, ready, hFresh, Thread.fresh, gathered.alive]
  · have hCan : (machine.setThread t (Command.register.begin (machine.thread t))).canMove t =
        true := by
      simp only [canMove, hTodo]
      simp [setThread, gathered.alive, hAwake]
    simp only [act?, step?, hTodo, hCan]
    rfl
  · simp only [heeds, within, hTodo]
    simp [setThread, gathered.quiet]
  · simp only [hears, hTodo]

theorem Gathered.enroll {threads : List ThreadId} {machine : Machine}
    (gathered : Gathered threads machine) {t : ThreadId} (hNew : t ∉ threads) :
    Gathered (threads ++ [t]) (machine.enroll t) := by
  obtain ⟨hNone, hFresh⟩ := gathered.others t hNew
  obtain ⟨acts, safe⟩ := gathered.safe
  obtain ⟨told, hBegin, hMove, hHeeds, hHears⟩ := gathered.acts hNew
  have hSlots : ∀ u, (machine.enroll t).world.slot? u = if u = t then
      some ⟨machine.world.lastTask + 1, machine.world.lastWorker + 1, .running, .empty, false,
        false, false⟩ else machine.world.slot? u := safe.consistent.slot?_register hNone
  have hOthers : ∀ u, u ≠ t → (machine.enroll t).thread u = machine.thread u := by
    intro u hU
    simp [Machine.enroll, perform, setThread, hU]
  constructor
  case safe => exact ⟨_, (safe.after rfl hBegin).after hHeeds hMove⟩
  case heard => exact (gathered.heard.after rfl hBegin).after hHears hMove
  case alive => exact gathered.alive
  case awake => exact gathered.awake
  case quiet =>
    exact (SafepointWorld.stopper_of_stop (machine.world.stop_register t)).trans gathered.quiet
  case joined =>
    intro u hMem
    by_cases hU : u = t
    · subst hU
      refine ⟨_, (hSlots u).trans (if_pos rfl), rfl, ?_⟩
      simp [Machine.enroll, perform, setThread, Command.begin, hFresh, Thread.fresh,
        SafepointWorld.register, hNone]
    · have hOld : u ∈ threads := by simpa [hU] using hMem
      rw [hSlots, if_neg hU, hOthers u hU]
      exact gathered.joined u hOld
  case others =>
    intro u hMem
    simp only [List.mem_append, List.mem_singleton, not_or] at hMem
    rw [hSlots, if_neg hMem.2, hOthers u hMem.2]
    exact gathered.others u hMem.1

theorem gathered_gather {threads : List ThreadId} (hDistinct : threads.Nodup) :
    Gathered threads (gather threads) := by
  induction threads using List.reverseRecOn with
  | nil => exact gathered_start
  | append_singleton threads t ih =>
    rw [List.nodup_append] at hDistinct
    rw [gather, List.foldl_append]
    refine (ih hDistinct.1).enroll fun hMem => ?_
    exact hDistinct.2.2 t hMem t (List.mem_singleton_self t) rfl

end Machine

namespace Party

theorem orderly_gather {threads : List ThreadId} (hDistinct : threads.Nodup)
    {programs : ThreadId → List Command}
    (hPrograms : ∀ t ∈ threads, Program (Machine.ownTask threads t) false (programs t))
    (hOthers : ∀ t, t ∉ threads → programs t = []) :
    (gather threads programs).Orderly (Machine.ownTask threads) := by
  have gathered := Machine.gathered_gather hDistinct
  constructor
  case safe => exact gathered.safe
  case heard => exact gathered.heard
  case alive => exact gathered.alive
  case course =>
    intro t
    by_cases hMem : t ∈ threads
    · obtain ⟨slot, hSlot, hRunning, hThread⟩ := gathered.joined t hMem
      have hOwn : slot.id = Machine.ownTask threads t := by
        rw [Machine.ownTask, SafepointWorld.currentTask, hSlot]
      simp only [gather, hSlot, hThread]
      refine .working ⟨hOwn, hRunning, by rw [hOwn], rfl, ?_, ?_, hPrograms t hMem, ?_, ?_, ?_, ?_⟩
      all_goals simp [Thread.phase, phaseOf, Phase.marking]
    · obtain ⟨hNone, hFresh⟩ := gathered.others t hMem
      simp only [gather, hNone, hFresh, hOthers t hMem]
      exact .gone (fun _ hMove => absurd hMove List.not_mem_nil) rfl
  case takers =>
    intro t
    have hOutside : (Machine.gather threads).standing t = .outside := by
      by_cases hMem : t ∈ threads
      · obtain ⟨slot, -, -, hThread⟩ := gathered.joined t hMem
        rw [Machine.standing, hThread]
        rfl
      · rw [Machine.standing, (gathered.others t hMem).2]
        rfl
    simp [gather, hOutside, Phase.owns]
  case nodup => exact List.nodup_nil

end Party

end SiteProfiler
