import SiteProfiler.Proofs.Pause.Marks

/-!
# Threads in the course of a program

A thread that has registered a task runs a program: it comes to safe points, takes pauses for its
own task, one at a time, and drops them again, and in the end it drops its registration.  `Course`
tells where such a thread is, and what that says of its task: a thread that waits for its turn has
its task marked as blocked, and one that has yet to leave a safe point has it parked.
-/

namespace SiteProfiler

/-- A program of a thread with a task of its own; `paused` tells whether the thread has a pause when
it comes to the program. -/
inductive Program (own : TaskId) : (paused : Bool) → List Command → Prop
  | leave (oldest : Bool) : Program own false [.unregister oldest]
  | safepoint {paused : Bool} {rest : List Command} (stack : CallStack)
      (hRest : Program own paused rest) : Program own paused (.safepoint stack :: rest)
  | acquire {rest : List Command} (hRest : Program own true rest) :
      Program own false (.acquire (some own) :: rest)
  /-- The thread looks up its task. -/
  | acquireOwn {rest : List Command} (hRest : Program own true rest) :
      Program own false (.acquire none :: rest)
  | release {rest : List Command} (hRest : Program own false rest) :
      Program own true (.release :: rest)

theorem Program.ne_nil {own : TaskId} {paused : Bool} {left : List Command}
    (program : Program own paused left) : left ≠ [] := by
  cases program <;> exact List.cons_ne_nil _ _

/-! ## Where a thread is in its program -/

/-- The moves of such programs, all for the thread's own task. -/
def Move.tame (own : TaskId) : Move → Bool
  | .take task | .block task | .unblock task | .hold task _ | .keepToken task => task = own
  | .awaitTurn | .free | .wakeOne | .wakeAll | .raise | .drain | .lift | .poll _ | .park _ | .leave
  | .acquireOwn | .finish _ => true
  | _ => false

/-- Whether a move is on the way to a token. -/
def Move.grants : Move → Bool
  | .keepToken _ | .acquireOwn => true
  | _ => false

/-- Whether a thread will have a pause when its call has returned. -/
def Thread.willPause (thread : Thread) : Bool :=
  !thread.tokens.isEmpty || thread.todo.any Move.grants

/-- A registered thread in the course of its program. -/
structure Working (t : ThreadId) (own : TaskId) (slot : TaskSlot) (thread : Thread)
    (left : List Command) : Prop where
  id : slot.id = own
  running : slot.status = .running
  registered : thread.registrations = [⟨t, own, true⟩]
  alive : thread.gone = false
  tame : ∀ move ∈ thread.todo, move.tame own = true
  tokens : ∀ task ∈ thread.tokens, task = own
  program : Program own thread.willPause left
  blocked : thread.phase.marking = true → slot.blocked = true
  parked : .leave ∈ thread.todo → slot.parked = true
  /-- A thread leaves a safe point before anything else. -/
  ahead : .leave ∉ thread.todo.tail
  /-- A thread that has the world stopped does not park. -/
  upright : thread.tokens ≠ [] → .leave ∉ thread.todo

/-- Where a thread is in its program. -/
inductive Course (t : ThreadId) (own : TaskId) : Option TaskSlot → Thread → List Command → Prop
  | working {slot : TaskSlot} {thread : Thread} {left : List Command}
      (working : Working t own slot thread left) : Course t own (some slot) thread left
  | leaving {slot : TaskSlot} {thread : Thread} {answer : Answer}
      (hTodo : thread.todo = [.unregister ⟨t, own, true⟩, .wakeAll, .finish answer])
      (hTokens : thread.tokens = []) : Course t own (some slot) thread []
  | gone {thread : Thread}
      (hTodo : ∀ move ∈ thread.todo, move = .wakeAll ∨ ∃ answer, move = .finish answer)
      (hTokens : thread.tokens = []) : Course t own none thread []

/-! ## Moves for the thread's own task -/

/-- What can be left of a call after a move for the thread's own task, of which `rest` follows. -/
inductive Continues (world : SafepointWorld) (t : ThreadId) (own : TaskId) (rest : List Move) :
    Move → List Move → Prop
  | done {move : Move} (hMove : move ≠ .acquireOwn) : Continues world t own rest move rest
  | again {move : Move} : Continues world t own rest move (move :: rest)
  | queue : Continues world t own rest (.take own) (queueMoves own ++ rest)
  | drain : Continues world t own rest .raise (.drain :: rest)
  | park (stack : CallStack) : Continues world t own rest (.poll stack) (.park stack :: rest)
  | leave {stack : CallStack} {parked : SafepointWorld}
      (hPark : world.park? t stack = some parked) :
      Continues world t own rest (.park stack) (.leave :: rest)
  | acquire :
      Continues world t own rest .acquireOwn (acquireMoves own ++ .keepToken own :: rest)

namespace Continues

variable {world : SafepointWorld} {t : ThreadId} {own : TaskId} {rest todo : List Move}
  {move : Move} (continues : Continues world t own rest move todo)
include continues

/-- A mark is set on behalf of a thread before its move, or by it. -/
theorem marking (hLeads : move.LeadsTo rest) (hMarking : (phaseOf todo).marking = true) :
    (phaseOf (move :: rest)).marking = true ∨ ∃ task, move = .block task := by
  cases continues with
  | done =>
    cases move <;> simp_all [phaseOf, Move.phase?, Move.LeadsTo, Phase.marking]
  | again => exact .inl hMarking
  | _ => cases hMarking

/-- A thread has parked before its move, or it does so by it. -/
theorem parks (hLeave : .leave ∈ todo) : .leave ∈ move :: rest ∨
    ∃ stack parked, move = .park stack ∧ world.park? t stack = some parked := by
  cases continues with
  | again => exact .inl hLeave
  | leave hPark => exact .inr ⟨_, _, rfl, hPark⟩
  | _ =>
    refine .inl (List.mem_cons_of_mem _ ?_)
    simpa [queueMoves, acquireMoves] using hLeave

theorem leave_notMem_tail (hAhead : .leave ∉ rest) : .leave ∉ todo.tail := by
  cases continues with
  | done => exact fun hMem => hAhead (List.mem_of_mem_tail hMem)
  | _ => simpa [queueMoves, acquireMoves] using hAhead

theorem tame (hTame : ∀ other ∈ move :: rest, other.tame own = true) :
    ∀ other ∈ todo, other.tame own = true := by
  obtain ⟨hMove, hRest⟩ := List.forall_mem_cons.mp hTame
  cases continues with
  | done => exact hRest
  | again => exact hTame
  | _ => simpa [queueMoves, acquireMoves, Move.tame] using hRest

/-- A token that is kept is no longer to come. -/
theorem any_grants (hMove : ∀ task, move ≠ .keepToken task) :
    todo.any Move.grants = (move :: rest).any Move.grants := by
  cases continues with
  | done hOther => cases move <;> simp_all [Move.grants]
  | _ => simp [queueMoves, acquireMoves, Move.grants]

end Continues

namespace Machine

theorem continues_perform {machine : Machine} {t : ThreadId} {own : TaskId} (woken : ThreadId)
    {move : Move} {rest : List Move} (hTodo : (machine.thread t).todo = move :: rest)
    (hTame : move.tame own = true) (hOwn : (machine.world.currentTask t).id = own) :
    Continues machine.world t own rest move
      ((machine.perform t woken move rest).thread t).todo := by
  cases move with
  | take task =>
    obtain rfl : task = own := of_decide_eq_true hTame
    simp only [perform]
    split
    · simpa using .queue
    · simpa using .done (by simp)
  | awaitTurn =>
    simp only [perform]
    split
    · exact hTodo ▸ .again
    · simpa using .done (by simp)
  | unblock task =>
    simp only [perform]
    split
    · simpa using .again
    · simpa using .done (by simp)
  | raise =>
    simp only [perform]
    split
    · simpa using .done (by simp)
    · simpa using .drain
  | drain =>
    simp only [perform]
    split
    · simpa using .done (by simp)
    · simpa using .again
  | poll stack =>
    simp only [perform]
    split
    · simpa using .park stack
    · simpa using .done (by simp)
  | park stack =>
    simp only [perform]
    split
    · simpa using .done (by simp)
    next parked hPark =>
      split
      · simpa using .leave hPark
      · simpa using .done (by simp)
  | leave =>
    simp only [perform]
    split
    · simpa using .again
    · simpa using .done (by simp)
  | acquireOwn =>
    simp only [perform, continueWith_self, hOwn]
    exact .acquire
  | _ =>
    first
      | (cases hTame; done)
      | simpa [perform] using .done (by simp)

theorem willPause_perform {machine : Machine} {t : ThreadId} {own : TaskId} (woken : ThreadId)
    {move : Move} {rest : List Move} (hTodo : (machine.thread t).todo = move :: rest)
    (continues : Continues machine.world t own rest move
      ((machine.perform t woken move rest).thread t).todo) :
    ((machine.perform t woken move rest).thread t).willPause = (machine.thread t).willPause := by
  by_cases hKeeps : ∃ task, move = .keepToken task
  · obtain ⟨task, rfl⟩ := hKeeps
    simp [Thread.willPause, perform, hTodo, Move.grants]
  · have hMove : ∀ task, move ≠ .keepToken task := fun task hIs => hKeeps ⟨task, hIs⟩
    rcases machine.tokens_perform t woken move rest with hSame | ⟨task, hIs, -⟩
    · rw [Thread.willPause, Thread.willPause, hSame, continues.any_grants hMove, hTodo]
    · exact absurd hIs (hMove task)

/-- Such a move keeps the thread's registrations, and the thread does not end. -/
theorem kept_perform (machine : Machine) (t woken : ThreadId) {own : TaskId} {move : Move}
    (rest : List Move) (hTame : move.tame own = true) :
    ((machine.perform t woken move rest).thread t).registrations =
        (machine.thread t).registrations ∧
      ((machine.perform t woken move rest).thread t).gone = (machine.thread t).gone := by
  cases move <;> simp only [perform] <;> (repeat' split) <;> simp_all [Move.tame]

/-- What a move for the thread's own task changes in the world: that task at most. -/
structure Alters (machine next : Machine) (t : ThreadId) (change : TaskSlot → TaskSlot) :
    Prop where
  slots : ∀ u, next.world.slot? u =
    if u = t then (machine.world.slot? u).map change else machine.world.slot? u
  same : ∀ slot, (change slot).id = slot.id ∧ (change slot).status = slot.status
  blocked : (next.thread t).phase.marking = true → ∀ slot : TaskSlot,
    ((machine.thread t).phase.marking = true → slot.blocked = true) →
      (change slot).blocked = true
  parked : .leave ∈ (next.thread t).todo → ∀ slot : TaskSlot,
    (.leave ∈ (machine.thread t).todo → slot.parked = true) → (change slot).parked = true

/-- A move that leaves the tasks alone. -/
theorem alters_nothing {machine next : Machine} {t : ThreadId}
    (hSlots : ∀ u, next.world.slot? u = machine.world.slot? u)
    (hMarking : (next.thread t).phase.marking = true → (machine.thread t).phase.marking = true)
    (hLeave : .leave ∈ (next.thread t).todo → .leave ∈ (machine.thread t).todo) :
    machine.Alters next t id where
  slots := by
    intro u
    rw [hSlots, Option.map_id]
    split <;> rfl
  same := fun _ => ⟨rfl, rfl⟩
  blocked := fun hIs _ hBlocked => hBlocked (hMarking hIs)
  parked := fun hIs _ hParked => hParked (hLeave hIs)

/-- A change of the task with the number of the thread's own task. -/
theorem slots_modifyTask {world : SafepointWorld} (consistent : world.Consistent) {t : ThreadId}
    {slot : TaskSlot} (hSlot : world.slot? t = some slot) (change : TaskSlot → TaskSlot)
    (u : ThreadId) : (world.modifyTask slot.id change).slot? u =
      if u = t then (world.slot? u).map change else world.slot? u := by
  rw [consistent.slot?_modifyTask]
  by_cases hU : u = t
  · rw [if_pos hU, hU, hSlot, Option.map_some, Option.map_some, if_pos rfl]
  · rw [if_neg hU]
    cases hOther : world.slot? u with
    | none => rfl
    | some other =>
      have hId : other.id ≠ slot.id := fun hSame => hU (consistent.thread_eq hOther hSlot hSame)
      rw [Option.map_some, if_neg hId]

section Own

variable {machine : Machine} {t : ThreadId} (woken : ThreadId) {rest : List Move}
  (consistent : machine.world.Consistent) (hRest : phaseOf rest = .outside)
  (hAhead : .leave ∉ rest)
include consistent hRest hAhead

theorem alters_leave (hTodo : (machine.thread t).todo = .leave :: rest) :
    ∃ change, machine.Alters (machine.perform t woken .leave rest) t change := by
  simp only [perform]
  split
  · refine ⟨id, alters_nothing (fun _ => rfl) ?_ ?_⟩ <;> simp [Thread.phase, hTodo]
  · refine ⟨fun own => { own with parked := false }, fun u => consistent.slot?_modifySlot t u _,
      fun _ => ⟨rfl, rfl⟩, ?_, ?_⟩ <;> simp [Thread.phase, hRest, hAhead, Phase.marking]

/-- A thread that parks and finds the stop over goes on at once. -/
theorem alters_park {stack : CallStack} (hTodo : (machine.thread t).todo = .park stack :: rest) :
    ∃ change, machine.Alters (machine.perform t woken (.park stack) rest) t change := by
  simp only [perform]
  split
  · refine ⟨id, alters_nothing (fun _ => rfl) ?_ ?_⟩ <;>
      simp [Thread.phase, hTodo, hRest, hAhead, Phase.marking]
  next parked hPark =>
    obtain ⟨-, -, rfl⟩ := SafepointWorld.park?_eq_some hPark
    have hSlots := fun u => consistent.slot?_modifySlot t u fun own =>
      { own with parked := true, stack := stack }
    split
    · exact ⟨_, hSlots, fun _ => ⟨rfl, rfl⟩, by simp [Thread.phase, phaseOf, Move.phase?,
        Phase.marking], fun _ _ _ => rfl⟩
    · have hParked := consistent.modifySlot t
        (fun own => { own with parked := true, stack := stack }) fun _ => rfl
      refine ⟨fun own => { own with parked := false, stack := stack }, fun u => ?_,
        fun _ => ⟨rfl, rfl⟩, ?_, ?_⟩
      · refine (hParked.slot?_modifySlot t u _).trans ?_
        rw [hSlots]
        split
        · rw [Option.map_map]
          rfl
        · rfl
      all_goals simp [Thread.phase, hRest, hAhead, Phase.marking]

end Own

/-- A thread that moves for its own task alters that task at most. -/
theorem alters_perform {machine : Machine} {t : ThreadId} {slot : TaskSlot} (woken : ThreadId)
    {move : Move} {rest : List Move} (consistent : machine.world.Consistent)
    (hSlot : machine.world.slot? t = some slot) (hTodo : (machine.thread t).todo = move :: rest)
    (hTame : move.tame slot.id = true) (hLeads : move.LeadsTo rest) (hAhead : .leave ∉ rest)
    (continues : Continues machine.world t slot.id rest move
      ((machine.perform t woken move rest).thread t).todo) :
    ∃ change, machine.Alters (machine.perform t woken move rest) t change := by
  have hMarks (hMove : ∀ task, move ≠ .block task)
      (hIs : ((machine.perform t woken move rest).thread t).phase.marking = true) :
      (machine.thread t).phase.marking = true := by
    rw [Thread.phase, hTodo]
    apply (continues.marking hLeads hIs).resolve_right
    rintro ⟨task, hBlock⟩
    exact hMove task hBlock
  have hStays (hMove : ∀ stack, move ≠ .park stack)
      (hIs : .leave ∈ ((machine.perform t woken move rest).thread t).todo) :
      .leave ∈ (machine.thread t).todo := by
    rw [hTodo]
    apply (continues.parks hIs).resolve_right
    rintro ⟨stack, -, hPark, -⟩
    exact hMove stack hPark
  cases move with
  | block task =>
    obtain rfl : task = slot.id := of_decide_eq_true hTame
    exact ⟨fun own => { own with blocked := true }, slots_modifyTask consistent hSlot _,
      fun _ => ⟨rfl, rfl⟩, fun _ _ _ => rfl, fun hIs _ hParked => hParked (hStays (by simp) hIs)⟩
  | hold task held =>
    obtain rfl : task = slot.id := of_decide_eq_true hTame
    exact ⟨fun own => { own with held := held }, slots_modifyTask consistent hSlot _,
      fun _ => ⟨rfl, rfl⟩, fun hIs _ hBlocked => hBlocked (hMarks (by simp) hIs),
      fun hIs _ hParked => hParked (hStays (by simp) hIs)⟩
  | unblock task =>
    obtain rfl : task = slot.id := of_decide_eq_true hTame
    have hEntering : phaseOf rest = .entering := hLeads
    simp only [perform]
    split
    · refine ⟨id, alters_nothing (fun _ => rfl) ?_ ?_⟩ <;> simp [Thread.phase, hTodo]
    · refine ⟨fun own => { own with blocked := false }, slots_modifyTask consistent hSlot _,
        fun _ => ⟨rfl, rfl⟩, ?_, ?_⟩ <;> simp [Thread.phase, hEntering, Phase.marking, hAhead]
  | leave => exact alters_leave woken consistent hLeads hAhead hTodo
  | park stack => exact alters_park woken consistent hLeads hAhead hTodo
  | setStatus status => cases hTame
  | register => cases hTame
  | unregister registration => cases hTame
  | _ =>
    refine ⟨id, alters_nothing ?_ (hMarks (by simp)) (hStays (by simp))⟩
    simp only [perform]
    (repeat' split) <;> exact fun _ => rfl

end Machine

/-! ## Going on with a program -/

namespace Working

variable {t : ThreadId} {own : TaskId} {slot : TaskSlot}

theorem willPause_eq {thread : Thread} (hTodo : thread.todo = []) :
    thread.willPause = !thread.tokens.isEmpty := by
  rw [Thread.willPause, hTodo, List.any_nil, Bool.or_false]

theorem perform {machine : Machine} {left : List Command}
    (working : Working t own slot (machine.thread t) left)
    (hSlot : machine.world.slot? t = some slot) (consistent : machine.world.Consistent)
    (hStops : (machine.thread t).tokens ≠ [] → machine.world.stopper = some t) (woken : ThreadId)
    {move : Move} {rest : List Move} (hTodo : (machine.thread t).todo = move :: rest)
    (hLeads : move.LeadsTo rest) :
    (∃ now, (machine.perform t woken move rest).world.slot? t = some now ∧
      Working t own now ((machine.perform t woken move rest).thread t) left) ∧
    ∀ u, u ≠ t →
      (machine.perform t woken move rest).world.slot? u = machine.world.slot? u := by
  have hMoves : ∀ other ∈ move :: rest, other.tame own = true := hTodo ▸ working.tame
  have hTame := hMoves move List.mem_cons_self
  have hAhead : .leave ∉ rest := by simpa [hTodo] using working.ahead
  have hOwn : (machine.world.currentTask t).id = own := by
    rw [SafepointWorld.currentTask, hSlot, ← working.id]
  have continues := Machine.continues_perform woken hTodo hTame hOwn
  obtain ⟨change, alters⟩ := Machine.alters_perform woken consistent hSlot hTodo
    (working.id ▸ hTame) hLeads hAhead (working.id ▸ continues)
  refine ⟨⟨change slot, ?_, ?_⟩, fun u hU => by rw [alters.slots, if_neg hU]⟩
  · rw [alters.slots, if_pos rfl, hSlot, Option.map_some]
  obtain ⟨hRegistrations, hGone⟩ := machine.kept_perform t woken rest hTame
  constructor
  case id => rw [(alters.same slot).1, working.id]
  case running => rw [(alters.same slot).2, working.running]
  case registered => rw [hRegistrations, working.registered]
  case alive => rw [hGone, working.alive]
  case tame => exact continues.tame hMoves
  case tokens =>
    rcases machine.tokens_perform t woken move rest with hSame | ⟨task, rfl, -, hKept⟩
    · rw [hSame]
      exact working.tokens
    · rw [hKept]
      exact List.forall_mem_cons.mpr ⟨of_decide_eq_true hTame, working.tokens⟩
  case program =>
    rw [Machine.willPause_perform woken hTodo continues]
    exact working.program
  case blocked => exact fun hMarking => alters.blocked hMarking slot working.blocked
  case parked => exact fun hLeave => alters.parked hLeave slot working.parked
  case ahead => exact continues.leave_notMem_tail hAhead
  case upright =>
    -- A thread with a token is the stopper and does not park; one that gets its token now was
    -- not parked before.
    intro hTokens hLeave
    rcases machine.tokens_perform t woken move rest with hSame | ⟨task, -, hRest, -⟩
    · rw [hSame] at hTokens
      rcases continues.parks hLeave with hBefore | ⟨stack, parked, -, hPark⟩
      · exact working.upright hTokens (hTodo ▸ hBefore)
      · rw [SafepointWorld.park?, if_pos (hStops hTokens)] at hPark
        cases hPark
    · exact hAhead (hRest ▸ hLeave)

/-- A call that the thread begins for its own task, without a registration to drop. -/
theorem call {thread : Thread} {left rest : List Command} (working : Working t own slot thread left)
    {todo : List Move} {tokens : List TaskId} (hTame : ∀ move ∈ todo, move.tame own = true)
    (hTokens : ∀ task ∈ tokens, task = own)
    (hProgram : Program own (!tokens.isEmpty || todo.any Move.grants) rest)
    (hMarking : (phaseOf todo).marking = false) (hAhead : .leave ∉ todo) :
    Working t own slot { thread with todo := todo, tokens := tokens, answer := none } rest where
  id := working.id
  running := working.running
  registered := working.registered
  alive := working.alive
  tame := hTame
  tokens := hTokens
  program := hProgram
  blocked := fun hIs => by cases hMarking.symm.trans hIs
  parked := fun hLeave => absurd hLeave hAhead
  ahead := fun hLeave => hAhead (List.mem_of_mem_tail hLeave)
  upright := fun _ => hAhead

/-- Each command of the program is one that the thread may begin, and after it the thread is where
its program expects it to be. -/
theorem begin {thread : Thread} {command : Command} {left : List Command}
    (working : Working t own slot thread (command :: left)) (sound : thread.Sound t)
    (hTodo : thread.todo = []) :
    Course t own (some slot) (command.begin thread) left ∧ command.direct = false ∧
      (command.pauses = true → thread.tokens = []) := by
  have hProgram := working.program
  rw [willPause_eq hTodo] at hProgram
  generalize hPaused : (!thread.tokens.isEmpty) = paused at hProgram
  cases hProgram with
  | leave oldest =>
    have hTokens : thread.tokens = [] := by simpa using hPaused
    have hGiven : (if oldest = true then thread.registrations.getLast?
        else thread.registrations.head?) = some ⟨t, own, true⟩ := by
      rw [working.registered]
      split <;> rfl
    refine ⟨@Course.leaving t own slot _ (.dropped true) ?_ ?_, rfl, by simp [Command.pauses]⟩
    · simp only [Command.begin, hGiven]
      rfl
    · simp only [Command.begin, hGiven]
      exact hTokens
  | safepoint stack hRest =>
    refine ⟨.working (working.call ?_ working.tokens ?_ rfl ?_), rfl, by simp [Command.pauses]⟩
    · simp [Move.tame]
    · simpa [Move.grants, hPaused] using hRest
    · simp
  | acquire hRest =>
    have hTokens : thread.tokens = [] := by simpa using hPaused
    refine ⟨.working (working.call ?_ working.tokens ?_ rfl ?_), rfl, fun _ => hTokens⟩
    · simp [Move.tame, acquireMoves]
    · simpa [Move.grants, acquireMoves, hTokens] using hRest
    · simp [acquireMoves]
  | acquireOwn hRest =>
    have hTokens : thread.tokens = [] := by simpa using hPaused
    refine ⟨.working (working.call ?_ working.tokens ?_ rfl ?_), rfl, fun _ => hTokens⟩
    · simp [Move.tame]
    · simpa [Move.grants, hTokens] using hRest
    · simp
  | release hRest =>
    cases hTokens : thread.tokens with
    | nil => simp [hTokens] at hPaused
    | cons task others =>
      obtain rfl := working.tokens task (by rw [hTokens]; exact List.mem_cons_self)
      obtain ⟨rfl, -⟩ := sound.single task others hTokens
      simp only [Command.begin, hTokens]
      refine ⟨.working (working.call ?_ (by simp) ?_ rfl ?_), rfl, by simp [Command.pauses]⟩
      · simp [Move.tame, releaseMoves]
      · simpa [Move.grants, releaseMoves] using hRest
      · simp [releaseMoves]

end Working

namespace Course

variable {t : ThreadId} {own : TaskId}

/-- What is left of a call drops the thread's registration, or is for its own task. -/
theorem tame_or_unregister {slot? : Option TaskSlot} {thread : Thread} {left : List Command}
    (course : Course t own slot? thread left) {move : Move} (hMem : move ∈ thread.todo) :
    move.tame own = true ∨ ∃ registration, move = .unregister registration := by
  cases course with
  | working working => exact .inl (working.tame move hMem)
  | leaving hTodo =>
    simp only [hTodo, List.mem_cons, List.not_mem_nil, or_false] at hMem
    rcases hMem with rfl | rfl | rfl
    · exact .inr ⟨_, rfl⟩
    · exact .inl rfl
    · exact .inl rfl
  | gone hTodo =>
    left
    rcases hTodo move hMem with rfl | ⟨answer, rfl⟩ <;> rfl

/-- A thread that waits for its turn or has parked has its task at a safe point. -/
theorem atSafePoint {slot : TaskSlot} {thread : Thread} {left : List Command}
    (course : Course t own (some slot) thread left)
    (hWaits : thread.phase.marking = true ∨ .leave ∈ thread.todo) : slot.atSafePoint = true := by
  rw [TaskSlot.atSafePoint, Bool.or_eq_true, Bool.or_eq_true]
  cases course with
  | working working => exact .inl (hWaits.symm.imp working.parked working.blocked)
  | leaving hTodo =>
    rw [Thread.phase, hTodo] at hWaits
    simp [phaseOf, Move.phase?, Phase.marking] at hWaits

/-- A thread at a safe point does not have the world stopped. -/
theorem tokens_of_leave {slot? : Option TaskSlot} {thread : Thread} {left : List Command}
    (course : Course t own slot? thread left)
    (hLeave : .leave ∈ thread.todo) : thread.tokens = [] := by
  cases course with
  | working working => exact by_contra fun hTokens => working.upright hTokens hLeave
  | leaving _ hTokens => exact hTokens
  | gone _ hTokens => exact hTokens

/-- A move of a thread leads it on in its program and leaves the tasks of other threads alone. -/
theorem perform {machine : Machine} {left : List Command}
    (course : Course t own (machine.world.slot? t) (machine.thread t) left)
    (consistent : machine.world.Consistent)
    (hStops : (machine.thread t).tokens ≠ [] → machine.world.stopper = some t) (woken : ThreadId)
    {move : Move} {rest : List Move} (hTodo : (machine.thread t).todo = move :: rest)
    (hLeads : move.LeadsTo rest) :
    Course t own ((machine.perform t woken move rest).world.slot? t)
        ((machine.perform t woken move rest).thread t) left ∧
      ∀ u, u ≠ t →
        (machine.perform t woken move rest).world.slot? u = machine.world.slot? u := by
  generalize hSlot : machine.world.slot? t = slot?, hThread : machine.thread t = thread at course
  cases course with
  | working working =>
    subst hThread
    obtain ⟨⟨now, hNow, working⟩, hOthers⟩ :=
      working.perform hSlot consistent hStops woken hTodo hLeads
    rw [hNow]
    exact ⟨.working working, hOthers⟩
  | @leaving slot _ answer hMoves hTokens =>
    subst hThread
    cases hTodo.symm.trans hMoves
    have hSlots := consistent.slot?_unregister t
    have hGone : (machine.perform t woken (.unregister ⟨t, own, true⟩)
        [.wakeAll, .finish answer]).world.slot? t = none := (hSlots t).trans (if_pos rfl)
    refine ⟨?_, fun u hU => (hSlots u).trans (if_neg hU)⟩
    rw [hGone]
    refine .gone ?_ ?_ <;> simp [Machine.perform, hTokens]
  | gone hMoves hTokens =>
    subst hThread
    rw [hTodo] at hMoves
    obtain ⟨hMove, hRest⟩ := List.forall_mem_cons.mp hMoves
    rcases hMove with rfl | ⟨answer, rfl⟩
    · refine ⟨?_, fun _ _ => rfl⟩
      have hNone : (machine.perform t woken .wakeAll rest).world.slot? t = none := hSlot
      rw [hNone]
      refine .gone ?_ ?_ <;> simpa [Machine.perform]
    · refine ⟨?_, fun _ _ => rfl⟩
      have hNone : (machine.perform t woken (.finish answer) rest).world.slot? t = none := hSlot
      rw [hNone]
      refine .gone ?_ ?_ <;> simpa [Machine.perform]

end Course

end SiteProfiler
