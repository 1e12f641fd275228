import SiteProfiler.Proofs.Pause.Runs

/-!
# Where threads stand

What is left of a call tells where its thread stands in taking or dropping a pause.  `Ordered`
says that the moves left are in the order of the protocol, so that making the first of them leads
to the phase that comes next.
-/

namespace SiteProfiler

inductive Phase where
  | outside
  /-- Inside a call that takes a pause, the semaphore not yet tried. -/
  | calling
  /-- The semaphore was held. -/
  | refused
  /-- Marked as blocked, until it is the thread's turn. -/
  | waiting
  /-- The semaphore was handed over, the stop before not yet known to be over. -/
  | turned
  | entering
  /-- The stop is asked for and not yet complete. -/
  | stopping
  | paused
  /-- The semaphore is free again and the stop not yet lifted. -/
  | restarting
deriving DecidableEq, Repr

namespace Phase

/-- Neither the semaphore nor the stop is the thread's. -/
def idle : Phase → Bool
  | outside | calling | refused | waiting => true
  | _ => false

/-- The semaphore is the thread's. -/
def owns : Phase → Bool
  | turned | entering | stopping | paused => true
  | _ => false

/-- The stop is the thread's. -/
def stops : Phase → Bool
  | stopping | paused | restarting => true
  | _ => false

/-- The stop has been complete and is not yet lifted. -/
def settled : Phase → Bool
  | paused | restarting => true
  | _ => false

/-- The thread is inside the call that takes a pause. -/
def acquiring : Phase → Bool
  | calling | refused | waiting | turned | entering | stopping => true
  | _ => false

/-- A task is marked as blocked on behalf of the thread. -/
def marking : Phase → Bool
  | waiting | turned => true
  | _ => false

variable {phase : Phase}

theorem owns_of_idle (hIdle : phase.idle = true) : phase.owns = false := by
  revert hIdle
  cases phase <;> decide

theorem stops_of_idle (hIdle : phase.idle = true) : phase.stops = false := by
  revert hIdle
  cases phase <;> decide

theorem stops_of_settled (hSettled : phase.settled = true) : phase.stops = true := by
  revert hSettled
  cases phase <;> decide

theorem acquiring_of_marking (hMarking : phase.marking = true) : phase.acquiring = true := by
  revert hMarking
  cases phase <;> decide

theorem settled_eq_false_of_acquiring (hAcquiring : phase.acquiring = true) :
    phase.settled = false := by
  revert hAcquiring
  cases phase <;> decide

end Phase

/-- The phase of a thread about to make a move, if the move tells. -/
def Move.phase? : Move → Option Phase
  | .hold _ _ | .wakeOne | .wakeAll => none
  | .take _ | .acquireOwn | .dumpTask _ true | .dumpWorker _ _ => some .calling
  | .block _ => some .refused
  | .awaitTurn => some .waiting
  | .unblock _ => some .turned
  | .raise => some .entering
  | .drain => some .stopping
  | .keepToken _ | .dumpCheck _ _ _ | .dumpVisit _ _ | .free => some .paused
  | .lift => some .restarting
  | _ => some .outside

/-- The phase of a call of which these moves are left. -/
def phaseOf : List Move → Phase
  | [] => .outside
  | move :: rest => move.phase?.getD (phaseOf rest)

/-- The task that a call has yet to mark as no longer blocked. -/
def markOf (moves : List Move) : Option TaskId :=
  moves.findSome? fun
    | .unblock task => some task
    | _ => none

/-- A move leads to the phase that comes next in the protocol. -/
def Move.LeadsTo (move : Move) (rest : List Move) : Prop :=
  match move with
  | .hold _ _ | .wakeOne | .wakeAll => True
  | .take _ | .unblock _ => phaseOf rest = .entering
  | .block task => phaseOf rest = .waiting ∧ markOf rest = some task
  | .awaitTurn => phaseOf rest = .turned
  | .raise | .drain => phaseOf rest = .paused
  | .free => phaseOf rest = .restarting
  | _ => phaseOf rest = .outside

/-- Whether a thread may sleep before a move. -/
def Move.waits : Move → Bool
  | .awaitTurn | .unblock _ | .drain | .leave => true
  | _ => false

/-- The moves of a call are in the order of the protocol. -/
def Ordered : List Move → Prop
  | [] => True
  | move :: rest => move.LeadsTo rest ∧ Ordered rest

/-! ## Sound threads -/

namespace Thread

def phase (thread : Thread) : Phase := phaseOf thread.todo

/-- Where a thread stands: a thread with a token holds a pause, whatever else it does. -/
def standing (thread : Thread) : Phase :=
  if thread.tokens.isEmpty then thread.phase else .paused

/-- What is left of a thread's call is in order, its tokens are of one pause, and the
registrations it has or drops are its own. -/
structure Sound (t : ThreadId) (thread : Thread) : Prop where
  ordered : Ordered thread.todo
  single : ∀ task rest, thread.tokens = task :: rest → rest = [] ∧ thread.phase.idle = true
  own : ∀ registration ∈ thread.registrations, registration.thread = t
  ownMoves : ∀ registration, .unregister registration ∈ thread.todo → registration.thread = t

end Thread

theorem Thread.Sound.leads {t : ThreadId} {thread : Thread} (sound : thread.Sound t) {move : Move}
    {rest : List Move} (hTodo : thread.todo = move :: rest) : move.LeadsTo rest := by
  have hOrdered := sound.ordered
  rw [hTodo] at hOrdered
  exact hOrdered.1

theorem ordered_acquireMoves {task : TaskId} {rest : List Move} (hOrdered : Ordered rest)
    (hPaused : phaseOf rest = .paused) : Ordered (acquireMoves task ++ rest) := by
  simp [acquireMoves, Ordered, Move.LeadsTo, phaseOf, Move.phase?, hOrdered, hPaused]

theorem ordered_queueMoves {task : TaskId} {rest : List Move} (hOrdered : Ordered rest)
    (hEntering : phaseOf rest = .entering) : Ordered (queueMoves task ++ rest) := by
  simp [queueMoves, Ordered, Move.LeadsTo, phaseOf, Move.phase?, markOf, hOrdered, hEntering]

theorem ordered_releaseMoves {task : TaskId} {rest : List Move} (hOrdered : Ordered rest)
    (hOutside : phaseOf rest = .outside) : Ordered (releaseMoves task ++ rest) := by
  simp [releaseMoves, Ordered, Move.LeadsTo, phaseOf, Move.phase?, hOrdered, hOutside]

theorem ordered_unregisterMoves {registration : Registration} {rest : List Move}
    (hOrdered : Ordered rest) (hOutside : phaseOf rest = .outside) :
    Ordered (unregisterMoves registration ++ rest) ∧
      phaseOf (unregisterMoves registration ++ rest) = .outside := by
  rw [unregisterMoves]
  split <;> simp [Ordered, Move.LeadsTo, phaseOf, Move.phase?, hOrdered, hOutside]

theorem ordered_flatMap_unregisterMoves (registrations : List Registration) {rest : List Move}
    (hOrdered : Ordered rest) (hOutside : phaseOf rest = .outside) :
    Ordered (registrations.flatMap unregisterMoves ++ rest) ∧
      phaseOf (registrations.flatMap unregisterMoves ++ rest) = .outside := by
  induction registrations with
  | nil => exact ⟨hOrdered, hOutside⟩
  | cons registration others ih =>
    rw [List.flatMap_cons, List.append_assoc]
    exact ordered_unregisterMoves ih.1 ih.2

namespace Machine

/-- A move leaves what is left of the call in order. -/
theorem ordered_perform {machine : Machine} {t : ThreadId} (woken : ThreadId) {move : Move}
    {rest : List Move} (hTodo : (machine.thread t).todo = move :: rest)
    (hOrdered : Ordered (machine.thread t).todo) :
    Ordered ((machine.perform t woken move rest).thread t).todo := by
  rw [hTodo] at hOrdered
  obtain ⟨hLeads, hRest⟩ := hOrdered
  cases move with
  | take task =>
    simp only [perform]
    split
    · simpa using ordered_queueMoves hRest hLeads
    · simpa using hRest
  | awaitTurn =>
    simp only [perform]
    split
    · simpa [hTodo] using ⟨hLeads, hRest⟩
    · simpa using hRest
  | unblock task =>
    simp only [perform]
    split
    · simpa using ⟨hLeads, hRest⟩
    · simpa using hRest
  | raise =>
    simp only [perform]
    split
    · simpa using hRest
    · simpa using ⟨hLeads, hRest⟩
  | drain =>
    simp only [perform]
    split
    · simpa using hRest
    · simpa using ⟨hLeads, hRest⟩
  | poll stack =>
    simp only [perform]
    split
    · simpa using ⟨hLeads, hRest⟩
    · simpa using hRest
  | park stack =>
    simp only [perform]
    repeat' split
    · simpa using hRest
    · simpa using ⟨hLeads, hRest⟩
    · simpa using hRest
  | leave =>
    simp only [perform]
    split
    · simpa using ⟨hLeads, hRest⟩
    · simpa using hRest
  | acquireOwn =>
    simp only [perform, continueWith_self]
    exact ordered_acquireMoves ⟨hLeads, hRest⟩ rfl
  | dumpTask size allTasks =>
    simp only [perform]
    split
    · simpa using ⟨hLeads, hRest⟩
    · simpa using hRest
  | dumpWorker current size =>
    simp only [perform, continueWith_self]
    exact ordered_acquireMoves ⟨hLeads, hRest⟩ rfl
  | dumpCheck current before size =>
    simp only [perform]
    split
    · have hAbort : Ordered [.abort] := ⟨rfl, trivial⟩
      simpa using ordered_releaseMoves hAbort rfl
    · simpa using ⟨hLeads, hRest⟩
  | dumpVisit current size =>
    simp only [perform, continueWith_self]
    exact ordered_releaseMoves ⟨hLeads, hRest⟩ rfl
  | abort => simp [perform, Ordered]
  | depart answer => simp [perform, Ordered]
  | _ => simpa [perform] using hRest

/-- What is left of a call holds no registrations but those that it held. -/
theorem mem_todo_perform {machine : Machine} {t : ThreadId} (woken : ThreadId) {move : Move}
    {rest : List Move} (hTodo : (machine.thread t).todo = move :: rest)
    {registration : Registration}
    (hMem : .unregister registration ∈ ((machine.perform t woken move rest).thread t).todo) :
    .unregister registration ∈ (machine.thread t).todo := by
  rw [hTodo]
  cases move <;> simp only [perform] at hMem <;> (repeat' split at hMem) <;>
    simp_all [acquireMoves, queueMoves, releaseMoves]

theorem tokens_perform (machine : Machine) (t woken : ThreadId) (move : Move) (rest : List Move) :
    ((machine.perform t woken move rest).thread t).tokens = (machine.thread t).tokens ∨
      ∃ task, move = .keepToken task ∧ ((machine.perform t woken move rest).thread t).todo = rest ∧
        ((machine.perform t woken move rest).thread t).tokens =
          task :: (machine.thread t).tokens := by
  cases move with
  | keepToken task => exact .inr ⟨task, rfl, by simp [perform], by simp [perform]⟩
  | _ =>
    refine .inl ?_
    simp only [perform]
    (repeat' split) <;> simp

theorem registrations_perform (machine : Machine) (t woken : ThreadId) (move : Move)
    (rest : List Move) {registration : Registration}
    (hMem : registration ∈ ((machine.perform t woken move rest).thread t).registrations) :
    registration ∈ (machine.thread t).registrations ∨
      registration = (machine.world.register t).1 := by
  cases move with
  | register =>
    simp only [perform, setThread_self, List.mem_cons] at hMem
    exact hMem.symm
  | _ =>
    refine .inl ?_
    simp only [perform] at hMem
    (repeat' split at hMem) <;> simpa using hMem

/-- Only a thread that has just gone to sleep is added to the waiting lists. -/
theorem mem_sleepers_perform (machine : Machine) (t woken : ThreadId) {move : Move}
    {rest : List Move} (hTodo : (machine.thread t).todo = move :: rest) {u : ThreadId}
    (hMem : u ∈ (machine.perform t woken move rest).sleepers) :
    u ∈ machine.sleepers ∨ u = t ∧ ∃ first more,
      ((machine.perform t woken move rest).thread t).todo = first :: more ∧
        first.waits = true := by
  have hSleepers : machine.sleepers = machine.queue ++ machine.asleep := rfl
  cases move with
  | wakeOne =>
    simp only [perform, sleepers_mk, sleepers_continueWith, List.mem_append] at hMem
    exact .inl (List.mem_append.mpr (hMem.imp_left List.mem_of_mem_erase))
  | _ =>
    simp only [perform] at hMem ⊢
    (repeat' split at hMem) <;> simp_all [Move.waits] <;> tauto

end Machine

/-! ## Commands -/

/-- Whether a command reaches past the semaphore to the stop and the marks of the world. -/
def Command.direct : Command → Bool
  | .stop | .start | .setBlocked _ _ => true
  | _ => false

/-- Whether a command takes a pause. -/
def Command.pauses : Command → Bool
  | .acquire _ => true
  | .dump size allTasks => decide (size ≠ 0) && allTasks
  | _ => false

theorem mem_unregisterMoves {registration dropped : Registration}
    (hMem : .unregister registration ∈ unregisterMoves dropped) : registration = dropped := by
  rw [unregisterMoves] at hMem
  split at hMem <;> simp_all

namespace Thread.Sound

variable {t : ThreadId} {thread : Thread} (sound : thread.Sound t)
include sound

/-- The moves that drop all pauses and then all registrations of a thread. -/
theorem ordered_depart (answer : Answer) :
    Ordered (thread.tokens.reverse.flatMap releaseMoves ++
      thread.registrations.reverse.flatMap unregisterMoves ++ [.depart answer]) := by
  have hLast : Ordered [.depart answer] := ⟨rfl, trivial⟩
  obtain ⟨hDropped, hOutside⟩ :=
    ordered_flatMap_unregisterMoves thread.registrations.reverse hLast rfl
  rw [List.append_assoc]
  cases hTokens : thread.tokens with
  | nil => exact hDropped
  | cons task rest =>
    rw [(sound.single task rest hTokens).1]
    simpa using ordered_releaseMoves hDropped hOutside

/-- A call that drops neither a pause nor a registration. -/
theorem call {todo : List Move} (hOrdered : Ordered todo) (hIdle : (phaseOf todo).idle = true)
    (hOwn : ∀ registration, .unregister registration ∉ todo) :
    { thread with todo := todo, answer := none }.Sound t where
  ordered := hOrdered
  single := fun task rest hTokens => ⟨(sound.single task rest hTokens).1, hIdle⟩
  own := sound.own
  ownMoves := fun registration hMem => absurd hMem (hOwn registration)

theorem begin_unregister (oldest : Bool) : ((Command.unregister oldest).begin thread).Sound t := by
  have hFinish : ∀ answer, Ordered [.finish answer] := fun answer => ⟨rfl, trivial⟩
  simp only [Command.begin]
  split
  · exact sound.call (hFinish _) rfl (by simp)
  next given hGiven =>
    have hMem : given ∈ thread.registrations := by
      split at hGiven
      · exact List.mem_of_getLast? hGiven
      · exact List.mem_of_head? hGiven
    constructor
    · exact (ordered_unregisterMoves (hFinish _) rfl).1
    · intro task rest hTokens
      refine ⟨(sound.single task rest hTokens).1, ?_⟩
      rw [Thread.phase, (ordered_unregisterMoves (hFinish _) rfl).2]
      rfl
    · intro registration hKept
      apply sound.own
      dsimp only at hKept
      split at hKept
      · exact List.dropLast_subset _ hKept
      · exact List.mem_of_mem_tail hKept
    · intro registration hDropped
      rcases List.mem_append.mp hDropped with hMoves | hRest
      · rw [mem_unregisterMoves hMoves]
        exact sound.own given hMem
      · simp at hRest

theorem begin_release : (Command.release.begin thread).Sound t := by
  have hFinish : ∀ answer, Ordered [.finish answer] := fun answer => ⟨rfl, trivial⟩
  simp only [Command.begin]
  split
  · exact sound.call (hFinish _) rfl (by simp)
  next task rest hTokens =>
    constructor
    · exact ordered_releaseMoves (hFinish _) rfl
    · intro other more hOther
      rw [(sound.single task rest hTokens).1] at hOther
      cases hOther
    · exact sound.own
    · intro registration hMem
      simp [releaseMoves] at hMem

theorem begin_depart (unwinding : Bool) : ((Command.depart unwinding).begin thread).Sound t where
  ordered := sound.ordered_depart _
  single := fun task rest hTokens => by cases hTokens
  own := fun registration hMem => by cases hMem
  ownMoves := by
    intro registration hMem
    simp only [Command.begin, List.mem_append, List.mem_flatMap, List.mem_reverse,
      List.mem_singleton, reduceCtorEq, or_false] at hMem
    rcases hMem with ⟨task, -, hRelease⟩ | ⟨dropped, hDropped, hMoves⟩
    · simp [releaseMoves] at hRelease
    · rw [mem_unregisterMoves hMoves]
      exact sound.own dropped hDropped

theorem begin {command : Command} (hDirect : command.direct = false) :
    (command.begin thread).Sound t := by
  cases command with
  | unregister oldest => exact sound.begin_unregister oldest
  | release => exact sound.begin_release
  | depart unwinding => exact sound.begin_depart unwinding
  | acquire task =>
    cases task with
    | none => exact sound.call ⟨rfl, trivial⟩ rfl (by simp)
    | some task =>
      exact sound.call (ordered_acquireMoves ⟨rfl, trivial⟩ rfl) rfl (by simp [acquireMoves])
  | dump size allTasks =>
    refine sound.call ?_ ?_ ?_
    · split <;> exact ⟨rfl, trivial⟩
    · split
      · rfl
      · cases allTasks <;> rfl
    · intro registration
      split <;> simp
  | stop => cases hDirect
  | start => cases hDirect
  | setBlocked task blocked => cases hDirect
  | register => exact sound.call ⟨rfl, trivial⟩ rfl (by simp)
  | setStatus status => exact sound.call ⟨rfl, trivial, rfl, trivial⟩ rfl (by simp)
  | safepoint stack => exact sound.call ⟨rfl, rfl, trivial⟩ rfl (by simp)
  | setHold task held => exact sound.call ⟨trivial, rfl, trivial⟩ rfl (by simp)
  | current => exact sound.call ⟨rfl, trivial⟩ rfl (by simp)
  | failingVisit => exact sound.call ⟨rfl, trivial⟩ rfl (by simp)

/-- A command that drops no pause leaves its thread outside the protocol or has it go on to take a
pause; one that does is yet to free the semaphore. -/
theorem begins {command : Command} (hDirect : command.direct = false) :
    ((command.begin thread).tokens = thread.tokens ∧
      ((command.begin thread).phase = .outside ∨
        (command.pauses = true ∧ (command.begin thread).phase = .calling))) ∨
    (thread.tokens ≠ [] ∧ (command.begin thread).tokens = [] ∧
      (command.begin thread).phase = .paused) := by
  have hSingle : ∀ task rest, thread.tokens = task :: rest → rest = [] :=
    fun task rest hTokens => (sound.single task rest hTokens).1
  cases command with
  | unregister oldest =>
    refine .inl ?_
    simp only [Command.begin]
    split
    · exact ⟨rfl, .inl rfl⟩
    · have hLast : Ordered [.finish (.dropped true)] := ⟨rfl, trivial⟩
      exact ⟨rfl, .inl (ordered_unregisterMoves hLast rfl).2⟩
  | release =>
    simp only [Command.begin]
    split
    next hTokens => exact .inl ⟨rfl, .inl rfl⟩
    next task rest hTokens =>
      refine .inr ⟨by rw [hTokens]; exact List.cons_ne_nil _ _, hSingle task rest hTokens, rfl⟩
  | depart unwinding =>
    cases hTokens : thread.tokens with
    | nil =>
      have hLast : Ordered [.depart (if unwinding then .unwound else .exited)] := ⟨rfl, trivial⟩
      refine .inl ⟨rfl, .inl ?_⟩
      simp only [Command.begin, hTokens, Thread.phase, List.reverse_nil, List.flatMap_nil,
        List.nil_append]
      exact (ordered_flatMap_unregisterMoves thread.registrations.reverse hLast rfl).2
    | cons task rest =>
      refine .inr ⟨List.cons_ne_nil _ _, rfl, ?_⟩
      simp only [Command.begin, hTokens, hSingle task rest hTokens]
      rfl
  | acquire task => cases task <;> exact .inl ⟨rfl, .inr ⟨rfl, rfl⟩⟩
  | dump size allTasks =>
    refine .inl ⟨rfl, ?_⟩
    simp only [Command.begin, Command.pauses, Thread.phase]
    split
    · exact .inl rfl
    next hSize =>
      cases allTasks with
      | true => exact .inr ⟨by simp [hSize], rfl⟩
      | false => exact .inl rfl
  | stop => cases hDirect
  | start => cases hDirect
  | setBlocked task blocked => cases hDirect
  | _ => exact .inl ⟨rfl, .inl rfl⟩

/-- A thread with a token stands paused, also once it has begun to drop it. -/
theorem standing_begin {task : TaskId} {rest : List TaskId} (hTokens : thread.tokens = task :: rest)
    {command : Command} (hDirect : command.direct = false) :
    (command.begin thread).standing = .paused := by
  rcases sound.begins hDirect with ⟨hSame, -⟩ | ⟨-, hNone, hPaused⟩
  · simp [Thread.standing, hSame, hTokens]
  · simp [Thread.standing, hNone, hPaused]

theorem idle_begin (hTokens : thread.tokens = []) {command : Command}
    (hDirect : command.direct = false) :
    (command.begin thread).tokens = [] ∧ (command.begin thread).phase.idle = true := by
  rcases sound.begins hDirect with ⟨hSame, hPhase⟩ | ⟨hSome, -⟩
  · refine ⟨hSame.trans hTokens, ?_⟩
    rcases hPhase with hOutside | ⟨-, hCalling⟩
    · rw [hOutside]
      rfl
    · rw [hCalling]
      rfl
  · exact absurd hTokens hSome

end Thread.Sound

end SiteProfiler
