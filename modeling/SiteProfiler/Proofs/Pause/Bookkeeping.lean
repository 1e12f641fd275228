import SiteProfiler.Proofs.Pause.Custody

/-!
# Books that always balance

Any threads do what they like: register, once or nested, drop and hand on registrations in any
order, stop and start the world, set marks, holds and statuses, dump stacks and end.  A chronicle
keeps the ledger beside the machine.  What holds of both wherever a run leads tells that positions,
numbers and workers never go wrong, and that a thread that stays registered remains the task on the
worker that it was.
-/

namespace SiteProfiler

/-- What a dump under way has read of its thread is what the thread was enrolled with. -/
def Move.Recalls (entry : Enrolment) : Move → Prop
  | .dumpWorker current _ => current.id = entry.task
  | .dumpCheck current before _ => current.id = entry.task ∧ before = entry.worker
  | _ => True

theorem Move.recalls_of_closes {move : Move} (entry : Enrolment) (hOpen : move.closes = false) :
    move.Recalls entry := by
  cases move with
  | dumpWorker current size => cases hOpen
  | dumpCheck current before size => cases hOpen
  | _ => trivial

theorem Command.recalls_begin (command : Command) (thread : Thread) (entry : Enrolment) :
    ∀ move ∈ (command.begin thread).todo, move.Recalls entry := by
  intro move hMem
  cases command with
  | unregister oldest =>
    simp only [begin] at hMem
    split at hMem
    · rw [List.mem_singleton.mp hMem]
      trivial
    · rcases List.mem_append.mp hMem with hDrop | hFinish
      · exact move.recalls_of_closes entry (closes_unregisterMoves _ move hDrop)
      · rw [List.mem_singleton.mp hFinish]
        trivial
  | release =>
    simp only [begin] at hMem
    split at hMem
    · rw [List.mem_singleton.mp hMem]
      trivial
    · rcases List.mem_append.mp hMem with hRelease | hFinish
      · exact move.recalls_of_closes entry (closes_releaseMoves _ move hRelease)
      · rw [List.mem_singleton.mp hFinish]
        trivial
  | depart unwinding =>
    rcases List.mem_append.mp hMem with hDrops | hDepart
    · rcases List.mem_append.mp hDrops with hRelease | hUnregister
      · obtain ⟨task, -, hMove⟩ := List.mem_flatMap.mp hRelease
        exact move.recalls_of_closes entry (closes_releaseMoves task move hMove)
      · obtain ⟨registration, -, hMove⟩ := List.mem_flatMap.mp hUnregister
        exact move.recalls_of_closes entry (closes_unregisterMoves registration move hMove)
    · rw [List.mem_singleton.mp hDepart]
      trivial
  | setBlocked task blocked =>
    simp only [begin, List.mem_cons, List.not_mem_nil, or_false] at hMem
    rcases hMem with rfl | rfl | rfl
    · split <;> trivial
    · trivial
    · trivial
  | acquire task =>
    cases task with
    | none =>
      rw [List.mem_singleton.mp hMem]
      trivial
    | some task =>
      simp only [begin, acquireMoves, List.cons_append, List.nil_append, List.mem_cons,
        List.not_mem_nil, or_false] at hMem
      rcases hMem with rfl | rfl | rfl | rfl <;> trivial
  | dump size allTasks =>
    simp only [begin, List.mem_singleton] at hMem
    subst hMem
    split <;> trivial
  | _ =>
    simp only [begin, List.mem_cons, List.not_mem_nil, or_false] at hMem
    (repeat' rcases hMem with rfl | hMem) <;> trivial

/-- What is noted down of the first move of a thread: the owning registration it hands out, or the
task it removes. -/
def Ledger.note (ledger : Ledger) (world : SafepointWorld) (t : ThreadId) : Move → Ledger
  | .register =>
    let (registration, registered) := world.register t
    if registration.owned then
      ledger.enrol ⟨t, registration.task, registered.currentWorker t⟩
    else ledger
  | .unregister registration => ledger.strike registration.task
  | _ => ledger

inductive Deed where
  | act (act : Act)
  /-- A registration is handed on. -/
  | hand (giver taker : ThreadId) (place : Nat)
deriving DecidableEq, Repr

/-- A machine and the ledger of what it has done so far. -/
structure Chronicle where
  machine : Machine
  ledger : Ledger

namespace Chronicle

def start : Chronicle := ⟨.start, .empty⟩

def machineAfter? (chronicle : Chronicle) : Deed → Option Machine
  | .act act => chronicle.machine.act? act
  | .hand giver taker place => chronicle.machine.hand? giver taker place

/-- The move that a deed makes for a thread. -/
def moveOf? (chronicle : Chronicle) : Deed → Option (ThreadId × Move)
  | .act (.move t _) => (chronicle.machine.thread t).todo.head?.map fun move => (t, move)
  | _ => none

def ledgerAfter (chronicle : Chronicle) (deed : Deed) : Ledger :=
  match chronicle.moveOf? deed with
  | some (t, move) => chronicle.ledger.note chronicle.machine.world t move
  | none => chronicle.ledger

def deed? (chronicle : Chronicle) (deed : Deed) : Option Chronicle :=
  (chronicle.machineAfter? deed).map fun next => ⟨next, chronicle.ledgerAfter deed⟩

def run? (chronicle : Chronicle) (deeds : List Deed) : Option Chronicle :=
  deeds.foldlM deed? chronicle

/-! ## What every deed keeps -/

/-- The world is as its ledger says, the registrations that stand are each with one thread, and
dumps under way recall what their threads were enrolled with. -/
structure Balanced (chronicle : Chronicle) : Prop where
  booked : chronicle.machine.world.Booked chronicle.ledger
  shared : SharedOut (fun u => (chronicle.machine.thread u).live)
    (chronicle.ledger.members.map Enrolment.registration)
  closed : ∀ u, Closed (chronicle.machine.thread u).todo
  recalls : ∀ entry ∈ chronicle.ledger.members,
    ∀ move ∈ (chronicle.machine.thread entry.thread).todo, move.Recalls entry

theorem balanced_start : start.Balanced where
  booked := SafepointWorld.booked_empty
  shared := ⟨fun _ => 0, fun _ _ => by
    simp [start, Machine.start, Thread.fresh, Thread.live, Ledger.members, Ledger.empty]⟩
  closed := fun _ => trivial
  recalls := fun _ hMem => by cases hMem

namespace Balanced

variable {chronicle : Chronicle} (balanced : chronicle.Balanced)
include balanced

/-- An owning registration that a thread has is a member's, and registers the member's thread. -/
theorem entry_of_live {u : ThreadId} {registration : Registration}
    (hLive : registration ∈ (chronicle.machine.thread u).live) :
    ∃ entry ∈ chronicle.ledger.members, entry.registration = registration :=
  List.mem_map.mp (balanced.shared.mem_standing hLive)

theorem begin {t : ThreadId} (command : Command)
    (hTodo : (chronicle.machine.thread t).todo = []) :
    Balanced ⟨chronicle.machine.setThread t (command.begin (chronicle.machine.thread t)),
      chronicle.ledger⟩ := by
  constructor
  · exact balanced.booked
  · apply balanced.shared.congr
    intro u
    by_cases hSame : u = t
    · subst hSame
      simpa using command.live_begin hTodo
    · simp [Machine.setThread_of_ne _ _ _ hSame]
  · intro u
    by_cases hSame : u = t
    · subst hSame
      simpa using command.closed_begin _
    · simpa [Machine.setThread_of_ne _ _ _ hSame] using balanced.closed u
  · intro entry hMem
    by_cases hSame : entry.thread = t
    · rw [hSame]
      simpa using command.recalls_begin _ entry
    · simpa [Machine.setThread_of_ne _ _ _ hSame] using balanced.recalls entry hMem

theorem handOver {giver taker : ThreadId} {registration : Registration}
    {kept : List Registration}
    (hPerm : (registration :: kept).Perm (chronicle.machine.thread giver).registrations) :
    Balanced ⟨chronicle.machine.handOver giver taker registration kept, chronicle.ledger⟩ := by
  constructor
  · exact balanced.booked
  · exact Machine.sharedOut_handOver hPerm balanced.shared
  · intro u
    dsimp only
    rw [Machine.todo_handOver]
    exact balanced.closed u
  · intro entry hMem
    dsimp only
    rw [Machine.todo_handOver]
    exact balanced.recalls entry hMem

/-! ### Moves -/

section Moves

variable {t : ThreadId} (woken : ThreadId) {move : Move} {rest : List Move}

theorem recalls_perform (hTodo : (chronicle.machine.thread t).todo = move :: rest)
    {entry : Enrolment} (hMem : entry ∈ chronicle.ledger.members) :
    ∀ later ∈ ((chronicle.machine.perform t woken move rest).thread entry.thread).todo,
      later.Recalls entry := by
  have hOld := balanced.recalls entry hMem
  by_cases hOther : entry.thread = t
  · have hCurrent := balanced.booked.current_eq hMem
    rw [hOther] at hOld hCurrent ⊢
    rw [hTodo] at hOld
    cases move <;> simp only [Machine.perform] <;> (repeat' split) <;>
      simp_all [acquireMoves, queueMoves, releaseMoves, Move.Recalls]
  · rw [Machine.perform_of_ne _ _ _ _ _ hOther]
    exact hOld

theorem closed_perform (hTodo : (chronicle.machine.thread t).todo = move :: rest) (u : ThreadId) :
    Closed ((chronicle.machine.perform t woken move rest).thread u).todo := by
  by_cases hOther : u = t
  · subst hOther
    exact Machine.closed_perform woken hTodo (balanced.closed u)
  · rw [Machine.perform_of_ne _ _ _ _ _ hOther]
    exact balanced.closed u

/-- A move that does not concern registrations. -/
theorem perform (hTodo : (chronicle.machine.thread t).todo = move :: rest)
    (hRegister : move ≠ .register) (hDrops : move.drops? = none) :
    Balanced ⟨chronicle.machine.perform t woken move rest, chronicle.ledger⟩ := by
  constructor
  · exact balanced.booked.congr (Machine.books_perform woken hRegister hDrops)
  · apply balanced.shared.congr
    intro u
    dsimp only
    rw [Machine.live_perform woken hTodo (balanced.closed t) hRegister hDrops]
  · exact balanced.closed_perform woken hTodo
  · intro entry hMem
    exact balanced.recalls_perform woken hTodo hMem

/-- A nested registration owns nothing, and the books stay as they are. -/
theorem register_nested (hTodo : (chronicle.machine.thread t).todo = .register :: rest)
    {slot : TaskSlot} (hSlot : chronicle.machine.world.slot? t = some slot) :
    Balanced ⟨chronicle.machine.perform t woken .register rest,
      chronicle.ledger.note chronicle.machine.world t .register⟩ := by
  have hNested := SafepointWorld.register_of_some hSlot
  have hWorld : (chronicle.machine.perform t woken .register rest).world =
      (chronicle.machine.world.register t).2 := rfl
  simp only [Ledger.note, hNested, Bool.false_eq_true, if_false]
  constructor
  · dsimp only
    rw [hWorld, hNested]
    exact balanced.booked
  · apply balanced.shared.congr
    intro u
    dsimp only
    by_cases hOther : u = t
    · subst hOther
      rw [Machine.live_register woken hTodo, hNested]
      rfl
    · rw [Machine.perform_of_ne _ _ _ _ _ hOther]
  · exact balanced.closed_perform woken hTodo
  · intro entry hMem
    exact balanced.recalls_perform woken hTodo hMem

/-- No registration of a thread without a task stands. -/
theorem notMem_standing {registration : Registration}
    (hNone : chronicle.machine.world.slot? registration.thread = none) :
    registration ∉ chronicle.ledger.members.map Enrolment.registration := by
  intro hStanding
  obtain ⟨entry, hMem, rfl⟩ := List.mem_map.mp hStanding
  obtain ⟨slot, hSlot, -⟩ := balanced.booked.exists_slot hMem
  cases hNone.symm.trans hSlot

/-- The first registration of a thread enrols it, and is its own. -/
theorem register_first (hTodo : (chronicle.machine.thread t).todo = .register :: rest)
    (hNone : chronicle.machine.world.slot? t = none) :
    Balanced ⟨chronicle.machine.perform t woken .register rest,
      chronicle.ledger.note chronicle.machine.world t .register⟩ := by
  have hBooked := balanced.booked.register hNone
  have hFirst := SafepointWorld.registration_register hNone
  have hFresh := balanced.booked.fresh
  simp only [Ledger.note, hFirst, if_true] at hBooked ⊢
  have hMembers : ∀ worker,
      (chronicle.ledger.enrol ⟨t, chronicle.machine.world.lastTask + 1, worker⟩).members =
        chronicle.ledger.members ++ [⟨t, chronicle.machine.world.lastTask + 1, worker⟩] :=
    fun worker => Ledger.members_enrol hFresh
  constructor
  · exact hBooked
  · rw [hMembers, List.map_append, List.map_singleton]
    apply balanced.shared.enter (t := t)
    · exact balanced.notMem_standing hNone
    · intro u other
      by_cases hOther : u = t
      · subst hOther
        dsimp only
        rw [Machine.live_register woken hTodo, hFirst]
        by_cases hSame : other = ⟨u, chronicle.machine.world.lastTask + 1, true⟩ <;>
          simp [hSame, Enrolment.registration, Ne.symm, Nat.add_comm]
      · rw [Machine.perform_of_ne _ _ _ _ _ hOther]
        simp [hOther]
  · exact balanced.closed_perform woken hTodo
  · intro entry hMem
    rw [hMembers] at hMem
    rcases List.mem_append.mp hMem with hOld | hNew
    · exact balanced.recalls_perform woken hTodo hOld
    · -- The call that has registered its thread is over.
      rw [List.mem_singleton.mp hNew]
      have hClosed := balanced.closed t
      rw [hTodo] at hClosed
      simp [Machine.perform, hClosed.1 rfl]

theorem unregister {registration : Registration}
    (hTodo : (chronicle.machine.thread t).todo = .unregister registration :: rest) :
    Balanced ⟨chronicle.machine.perform t woken (.unregister registration) rest,
      chronicle.ledger.note chronicle.machine.world t (.unregister registration)⟩ := by
  have hLive := Machine.live_unregister woken hTodo
  obtain ⟨entry, hMem, rfl⟩ := balanced.entry_of_live (hLive.mem_iff.mpr List.mem_cons_self)
  have hMembers : ∀ other, other ∈ (chronicle.ledger.strike entry.task).members ↔
      other ∈ chronicle.ledger.members ∧ other.task ≠ entry.task := by
    intro other
    rw [Ledger.members_strike, List.mem_filter, decide_eq_true_iff]
  constructor
  · exact balanced.booked.unregister hMem
  · apply balanced.shared.leave entry.registration (t := t)
    · intro other
      change other ∈ (chronicle.ledger.strike entry.task).members.map Enrolment.registration ↔ _
      simp only [List.mem_map, hMembers]
      constructor
      · rintro ⟨kept, ⟨hKept, hTask⟩, rfl⟩
        exact ⟨⟨kept, hKept, rfl⟩, fun hSame => hTask (congrArg Registration.task hSame)⟩
      · rintro ⟨⟨kept, hKept, rfl⟩, hOther⟩
        refine ⟨kept, ⟨hKept, fun hTask => hOther ?_⟩, rfl⟩
        rw [List.inj_on_of_nodup_map balanced.booked.nodup_task hKept hMem hTask]
    · intro u other
      by_cases hOther : u = t
      · subst hOther
        dsimp only
        rw [hLive.count_eq, List.count_cons]
        by_cases hSame : other = entry.registration <;> simp [hSame, Ne.symm]
      · rw [Machine.perform_of_ne _ _ _ _ _ hOther]
        simp [hOther]
  · exact balanced.closed_perform woken hTodo
  · intro other hKept
    exact balanced.recalls_perform woken hTodo ((hMembers other).mp hKept).1

end Moves

theorem deed {deed : Deed} {next : Chronicle} (hDeed : chronicle.deed? deed = some next) :
    next.Balanced := by
  obtain ⟨machine, hMachine, rfl⟩ := Option.map_eq_some_iff.mp hDeed
  cases deed with
  | hand giver taker place =>
    obtain ⟨registration, kept, hPerm, rfl⟩ := Machine.hand?_eq_some hMachine
    exact balanced.handOver hPerm
  | act act =>
    cases act with
    | begin t command =>
      obtain ⟨hTodo, rfl⟩ := Machine.act?_begin hMachine
      exact balanced.begin command hTodo
    | rouse t =>
      cases hMachine
      exact ⟨balanced.booked, balanced.shared, balanced.closed, balanced.recalls⟩
    | move t woken =>
      obtain ⟨move, rest, hTodo, -, rfl⟩ := Machine.act?_move hMachine
      have hLedger : chronicle.ledgerAfter (.act (.move t woken)) =
          chronicle.ledger.note chronicle.machine.world t move := by
        simp [ledgerAfter, moveOf?, hTodo]
      rw [hLedger]
      cases move with
      | register =>
        cases hSlot : chronicle.machine.world.slot? t with
        | some slot => exact balanced.register_nested woken hTodo hSlot
        | none => exact balanced.register_first woken hTodo hSlot
      | unregister registration => exact balanced.unregister woken hTodo
      | _ => exact balanced.perform woken hTodo (by simp) rfl

end Balanced

theorem balanced_run {deeds : List Deed} {chronicle : Chronicle}
    (hRun : start.run? deeds = some chronicle) : chronicle.Balanced := by
  refine steps_induction (motive := fun _ chronicle => chronicle.Balanced) balanced_start ?_
    deeds chronicle hRun
  intro _ before deed next _ balanced hDeed
  exact balanced.deed hDeed

/-! ## What the books tell -/

/-- Whether a deed carries out the drop of a thread's owning registration. -/
def Drops (chronicle : Chronicle) (deed : Deed) (t : ThreadId) : Prop :=
  ∃ u registration, chronicle.moveOf? deed = some (u, .unregister registration) ∧
    registration.thread = t

/-- Tasks, threads and registrations belong to each other as they should. -/
structure Orderly (chronicle : Chronicle) : Prop where
  /-- Positions are a bijection between the registered threads and the places of the task list. -/
  placed : ∀ t index, chronicle.machine.world.position t = some index →
    index < chronicle.machine.world.tasks.length
  injective : ∀ t u index, chronicle.machine.world.position t = some index →
    chronicle.machine.world.position u = some index → t = u
  covered : ∀ index < chronicle.machine.world.tasks.length,
    ∃ t, chronicle.machine.world.position t = some index
  /-- A thread is registered just as long as some thread has its owning registration. -/
  registered_iff : ∀ t, (chronicle.machine.world.position t).isSome = true ↔
    ∃ u, ∃ registration ∈ (chronicle.machine.thread u).live, registration.thread = t
  /-- There are never two owning registrations of one thread. -/
  single : ∀ u v registration other, registration ∈ (chronicle.machine.thread u).live →
    other ∈ (chronicle.machine.thread v).live → registration.thread = other.thread →
      u = v ∧ registration = other
  once : ∀ u, (chronicle.machine.thread u).live.Nodup
  /-- The numbers of all owning registrations ever handed out count up from one, and so do the
  workers that came with them. -/
  numbered : chronicle.ledger.enrolled.map Enrolment.task =
    List.range' 1 chronicle.ledger.enrolled.length
  manned : chronicle.ledger.enrolled.map Enrolment.worker =
    List.range' 1 chronicle.ledger.enrolled.length
  ascending : (chronicle.machine.world.tasks.map TaskSlot.id).Pairwise (· < ·)
  ascending_worker : (chronicle.machine.world.tasks.map TaskSlot.worker).Pairwise (· < ·)
  /-- A visit shows the registrations that stand, in the order in which they were made. -/
  visited : chronicle.machine.world.snapshots.map (fun task => task.info.id) =
    chronicle.ledger.members.map Enrolment.task
  /-- A stop waits for every task but the one with the stopper's own number. -/
  waited : ∀ t, chronicle.machine.world.allParkedExcept t =
    (chronicle.machine.world.tasks.filter fun slot =>
      slot.id ≠ (chronicle.machine.world.currentTask t).id).all TaskSlot.atSafePoint
  /-- A registered thread sees the number and worker that it was enrolled with. -/
  known : ∀ entry ∈ chronicle.ledger.members,
    (chronicle.machine.world.currentTask entry.thread).id = entry.task ∧
      chronicle.machine.world.currentWorker entry.thread = entry.worker
  /-- No deed changes that but the one that drops the thread's owning registration. -/
  steady : ∀ deed next t, chronicle.deed? deed = some next →
    (chronicle.machine.world.position t).isSome = true → ¬ chronicle.Drops deed t →
      (next.machine.world.position t).isSome = true ∧
        (next.machine.world.currentTask t).id = (chronicle.machine.world.currentTask t).id ∧
          next.machine.world.currentWorker t = chronicle.machine.world.currentWorker t
  /-- A dump by a registered thread finds its thread on the worker where it began. -/
  unmoved : ∀ t current before size rest,
    (chronicle.machine.thread t).todo = .dumpCheck current before size :: rest →
      (chronicle.machine.world.position t).isSome = true →
        checkWorker before (chronicle.machine.world.currentWorker t) = .ok ()

theorem moveOf?_eq_some {chronicle : Chronicle} {deed : Deed} {t : ThreadId} {move : Move}
    (hMove : chronicle.moveOf? deed = some (t, move)) :
    ∃ rest, (chronicle.machine.thread t).todo = move :: rest := by
  unfold moveOf? at hMove
  split at hMove
  · obtain ⟨first, hHead, hSame⟩ := Option.map_eq_some_iff.mp hMove
    cases hSame
    exact List.head?_eq_some_iff.mp hHead
  · cases hMove

namespace Balanced

variable {chronicle : Chronicle} (balanced : chronicle.Balanced)
include balanced

theorem isSome_position_iff (t : ThreadId) :
    (chronicle.machine.world.position t).isSome = true ↔
      ∃ entry ∈ chronicle.ledger.members, entry.thread = t := by
  have hNone := balanced.booked.consistent.slot?_eq_none_iff t
  rw [← balanced.booked.isSome_slot?_iff, ← Option.ne_none_iff_isSome,
    ← Option.ne_none_iff_isSome]
  exact not_congr hNone.symm

theorem registered_iff (t : ThreadId) :
    (chronicle.machine.world.position t).isSome = true ↔
      ∃ u, ∃ registration ∈ (chronicle.machine.thread u).live, registration.thread = t := by
  rw [balanced.isSome_position_iff]
  constructor
  · rintro ⟨entry, hMem, rfl⟩
    obtain ⟨u, hLive⟩ := balanced.shared.exists_keeper (List.mem_map_of_mem hMem)
    exact ⟨u, entry.registration, hLive, rfl⟩
  · rintro ⟨u, registration, hLive, rfl⟩
    obtain ⟨entry, hMem, rfl⟩ := balanced.entry_of_live hLive
    exact ⟨entry, hMem, rfl⟩

theorem single {u v : ThreadId} {registration other : Registration}
    (hLive : registration ∈ (chronicle.machine.thread u).live)
    (hOther : other ∈ (chronicle.machine.thread v).live)
    (hThread : registration.thread = other.thread) : u = v ∧ registration = other := by
  obtain ⟨entry, hMem, rfl⟩ := balanced.entry_of_live hLive
  obtain ⟨second, hSecond, rfl⟩ := balanced.entry_of_live hOther
  have hSame := balanced.booked.entry_eq hMem hSecond hThread
  subst hSame
  exact ⟨balanced.shared.keeper_eq hLive hOther, rfl⟩

/-- A member stays one until its own registration is dropped. -/
theorem mem_ledgerAfter {deed : Deed} {entry : Enrolment}
    (hMem : entry ∈ chronicle.ledger.members) (hKeeps : ¬ chronicle.Drops deed entry.thread) :
    entry ∈ (chronicle.ledgerAfter deed).members := by
  unfold ledgerAfter
  cases hMove : chronicle.moveOf? deed with
  | none => exact hMem
  | some made =>
    obtain ⟨u, move⟩ := made
    cases move with
    | register =>
      simp only [Ledger.note]
      split
      · rw [Ledger.mem_members] at hMem ⊢
        exact ⟨List.mem_append_left _ hMem.1, hMem.2⟩
      · exact hMem
    | unregister registration =>
      obtain ⟨rest, hTodo⟩ := moveOf?_eq_some hMove
      have hLive : registration ∈ (chronicle.machine.thread u).live := by
        simp [Thread.live, hTodo, Move.drops?]
      obtain ⟨dropped, hDropped, rfl⟩ := balanced.entry_of_live hLive
      have hOther : entry.task ≠ dropped.task := by
        intro hTask
        apply hKeeps
        refine ⟨u, dropped.registration, hMove, ?_⟩
        rw [List.inj_on_of_nodup_map balanced.booked.nodup_task hMem hDropped hTask]
        rfl
      simp only [Ledger.note, Ledger.members_strike, List.mem_filter, decide_eq_true_iff]
      exact ⟨hMem, hOther⟩
    | _ => exact hMem

/-- A thread whose owning registration is not dropped stays the task on the worker it was. -/
theorem steady {deed : Deed} {next : Chronicle} {t : ThreadId}
    (hDeed : chronicle.deed? deed = some next)
    (hRegistered : (chronicle.machine.world.position t).isSome = true)
    (hKeeps : ¬ chronicle.Drops deed t) :
    (next.machine.world.position t).isSome = true ∧
      (next.machine.world.currentTask t).id = (chronicle.machine.world.currentTask t).id ∧
        next.machine.world.currentWorker t = chronicle.machine.world.currentWorker t := by
  obtain ⟨entry, hMem, rfl⟩ := (balanced.isSome_position_iff t).mp hRegistered
  have balancedNext := balanced.deed hDeed
  have hLater : entry ∈ next.ledger.members := by
    obtain ⟨machine, -, rfl⟩ := Option.map_eq_some_iff.mp hDeed
    exact balanced.mem_ledgerAfter hMem hKeeps
  obtain ⟨hTask, hWorker⟩ := balanced.booked.current_eq hMem
  obtain ⟨hTaskNext, hWorkerNext⟩ := balancedNext.booked.current_eq hLater
  refine ⟨(balancedNext.isSome_position_iff _).mpr ⟨entry, hLater, rfl⟩, ?_, ?_⟩
  · rw [hTaskNext, hTask]
  · rw [hWorkerNext, hWorker]

theorem unmoved {t : ThreadId} {current : TaskInfo} {before : WorkerId} {size : Nat}
    {rest : List Move}
    (hTodo : (chronicle.machine.thread t).todo = .dumpCheck current before size :: rest)
    (hRegistered : (chronicle.machine.world.position t).isSome = true) :
    checkWorker before (chronicle.machine.world.currentWorker t) = .ok () := by
  obtain ⟨entry, hMem, rfl⟩ := (balanced.isSome_position_iff t).mp hRegistered
  have hFirst : .dumpCheck current before size ∈ (chronicle.machine.thread entry.thread).todo := by
    rw [hTodo]
    exact List.mem_cons_self
  have hBefore : before = entry.worker := (balanced.recalls entry hMem _ hFirst).2
  rw [(balanced.booked.current_eq hMem).2, hBefore]
  exact if_pos rfl

theorem lastTask_eq : chronicle.machine.world.lastTask = chronicle.ledger.enrolled.length := by
  have hLength := congrArg List.length balanced.booked.numbered
  rwa [List.length_map, List.length_range', eq_comm] at hLength

theorem lastWorker_eq : chronicle.machine.world.lastWorker = chronicle.ledger.enrolled.length := by
  have hLength := congrArg List.length balanced.booked.manned
  rwa [List.length_map, List.length_range', eq_comm] at hLength

theorem map_snapshots : chronicle.machine.world.snapshots.map (fun task => task.info.id) =
    chronicle.ledger.members.map Enrolment.task := by
  unfold SafepointWorld.snapshots
  rw [List.map_map, ← balanced.booked.map_id]
  rfl

theorem orderly : chronicle.Orderly where
  placed := balanced.booked.consistent.placed
  injective := balanced.booked.consistent.injective
  covered := balanced.booked.consistent.covered
  registered_iff := balanced.registered_iff
  single := fun _ _ _ _ hLive hOther hThread => balanced.single hLive hOther hThread
  once := balanced.shared.nodup
  numbered := by
    rw [← balanced.lastTask_eq]
    exact balanced.booked.numbered
  manned := by
    rw [← balanced.lastWorker_eq]
    exact balanced.booked.manned
  ascending := by
    rw [balanced.booked.map_id]
    exact balanced.booked.pairwise_task
  ascending_worker := by
    rw [balanced.booked.map_worker]
    exact balanced.booked.pairwise_worker
  visited := balanced.map_snapshots
  waited := balanced.booked.allParkedExcept_eq
  known := fun _ hMem => balanced.booked.current_eq hMem
  steady := fun _ _ _ hDeed hRegistered hKeeps => balanced.steady hDeed hRegistered hKeeps
  unmoved := fun _ _ _ _ _ hTodo hRegistered => balanced.unmoved hTodo hRegistered

end Balanced

/-- Wherever any deeds of any threads lead, the books balance: positions, numbers, workers and
owning registrations belong to each other, and only the drop of its owning registration changes
which task on which worker a thread is. -/
theorem tasks_stay_orderly {deeds : List Deed} {chronicle : Chronicle}
    (hRun : start.run? deeds = some chronicle) : chronicle.Orderly :=
  (balanced_run hRun).orderly

/-- Moves of one thread. -/
def moves (t : ThreadId) (count : Nat) : List Deed := (Act.moves t 0 count).map .act

/-- Thread 2 registers twice and hands its owning registration to thread 3, which drops it; thread
2 registers anew.  Thread 1 drops its own while thread 3 is in the middle of a dump. -/
def handedRun : List Deed :=
  .act (.begin 1 .register) :: moves 1 1 ++ .act (.begin 2 .register) :: moves 2 1 ++
    .act (.begin 3 .register) :: moves 3 1 ++ .act (.begin 2 .register) :: moves 2 1 ++
    .hand 2 3 1 :: .act (.begin 3 (.unregister false)) :: moves 3 3 ++
    .act (.begin 2 .register) :: moves 2 1 ++
    .act (.begin 2 (.setStatus .waiting)) :: moves 2 3 ++
    .act (.begin 1 (.setStatus .waiting)) :: moves 1 3 ++
    .act (.begin 3 (.dump 64 true)) :: moves 3 5 ++
    .act (.begin 1 (.unregister true)) :: moves 1 2

theorem tasks_stay_orderly_handed : ∃ chronicle, start.run? handedRun = some chronicle ∧
    chronicle.Orderly ∧ chronicle.ledger.enrolled.map Enrolment.thread = [1, 2, 3, 2] ∧
    chronicle.machine.world.snapshots.map (fun task => task.info.id) = [3, 4] ∧
    (chronicle.machine.thread 3).todo.head? = some (.dumpCheck ⟨3, .running⟩ 3 64) :=
  ⟨_, rfl, @tasks_stay_orderly handedRun _ rfl, rfl, rfl, rfl⟩

end Chronicle

end SiteProfiler
