import SiteProfiler.Proofs.Pause.Marks

/-!
# No wake-up is lost

A thread sleeps on one of four conditions.  Three of them are about the world: no other thread's
stop is on, every other task is at a safe point, or no stop is on at all.  Whenever such a condition
comes about while a thread sleeps on it, some thread is about to wake all sleepers.  The fourth is
the semaphore: while it is free and threads are queued for it, one of them has been notified or
some thread is about to notify one.  Both hold in every run, whatever the commands.
-/

namespace SiteProfiler

/-! ## Notifications in a call -/

/-- A move that lets other threads go on is followed by their notification. -/
def Move.NotifiedBy (move : Move) (rest : List Move) : Prop :=
  match move with
  | .block _ | .setStatus _ | .unregister _ | .lift => rest.head? = some .wakeAll
  | .free => rest.head? = some .wakeOne
  | _ => True

/-- Every move of a call that lets other threads go on is followed by their notification. -/
def Notifies : List Move → Prop
  | [] => True
  | move :: rest => move.NotifiedBy rest ∧ Notifies rest

/-- Whether a thread may sleep before a move until the world changes. -/
def Move.dozes : Move → Bool
  | .unblock _ | .drain | .leave => true
  | _ => false

theorem notifies_acquireMoves {task : TaskId} {rest : List Move} (hRest : Notifies rest) :
    Notifies (acquireMoves task ++ rest) := by
  simp [acquireMoves, Notifies, Move.NotifiedBy, hRest]

theorem notifies_releaseMoves {task : TaskId} {rest : List Move} (hRest : Notifies rest) :
    Notifies (releaseMoves task ++ rest) := by
  simp [releaseMoves, Notifies, Move.NotifiedBy, hRest]

theorem notifies_unregisterMoves {registration : Registration} {rest : List Move}
    (hRest : Notifies rest) : Notifies (unregisterMoves registration ++ rest) := by
  rw [unregisterMoves]
  split <;> simp [Notifies, Move.NotifiedBy, hRest]

theorem notifies_flatMap {α : Type} {moves : α → List Move}
    (hMoves : ∀ a rest, Notifies rest → Notifies (moves a ++ rest)) (dropped : List α)
    {rest : List Move} (hRest : Notifies rest) : Notifies (dropped.flatMap moves ++ rest) := by
  induction dropped with
  | nil => exact hRest
  | cons a others ih =>
    rw [List.flatMap_cons, List.append_assoc]
    exact hMoves a _ ih

theorem notifies_begin (command : Command) (thread : Thread) :
    Notifies (command.begin thread).todo := by
  have hLast : ∀ answer, Notifies [.finish answer] := fun answer => ⟨trivial, trivial⟩
  cases command with
  | unregister oldest =>
    simp only [Command.begin]
    split
    · exact hLast _
    · exact notifies_unregisterMoves (hLast _)
  | release =>
    simp only [Command.begin]
    split
    · exact hLast _
    · exact notifies_releaseMoves (hLast _)
  | depart unwinding =>
    simp only [Command.begin, List.append_assoc]
    apply notifies_flatMap fun _ _ => notifies_releaseMoves
    apply notifies_flatMap fun _ _ => notifies_unregisterMoves
    exact ⟨trivial, trivial⟩
  | acquire task =>
    cases task with
    | none => exact ⟨trivial, trivial⟩
    | some task => exact notifies_acquireMoves ⟨trivial, trivial⟩
  | dump size allTasks =>
    simp only [Command.begin]
    split <;> exact ⟨trivial, trivial⟩
  | setBlocked task blocked =>
    cases blocked <;> exact ⟨by trivial, trivial, trivial, trivial⟩
  | _ => simp [Command.begin, Notifies, Move.NotifiedBy]

/-! ## Changes of the world that let nobody go on -/

namespace SafepointWorld

/-- Whatever another thread than `t` sleeps on after a change of `t` had come about before it. -/
structure Silent (t : ThreadId) (old new : SafepointWorld) : Prop where
  quiet : ∀ u, u ≠ t → new.stoppedByOther u = false → old.stoppedByOther u = false
  lifted : new.stopper = none → old.stopper = none
  complete : ∀ u, u ≠ t → new.allParkedExcept u = true → old.allParkedExcept u = true

theorem Silent.refl (t : ThreadId) (world : SafepointWorld) : Silent t world world :=
  ⟨fun _ _ hQuiet => hQuiet, fun hOver => hOver, fun _ _ hComplete => hComplete⟩

/-- The stop is left alone and no task comes to a safe point. -/
theorem silent_of_slots {old new : SafepointWorld} (t : ThreadId) (consistent : old.Consistent)
    (hNew : new.Consistent) (hStopper : new.stopper = old.stopper)
    (hSlots : ∀ v slot, old.slot? v = some slot →
      ∃ now, new.slot? v = some now ∧ (now.atSafePoint = true → slot.atSafePoint = true)) :
    Silent t old new where
  quiet := fun u _ hQuiet => by rwa [stoppedByOther, ← hStopper]
  lifted := fun hOver => hStopper ▸ hOver
  complete := by
    intro u _ hComplete
    rw [hNew.allParkedExcept_iff] at hComplete
    rw [consistent.allParkedExcept_iff]
    intro v slot hOther hSlot
    obtain ⟨now, hNow, hSafe⟩ := hSlots v slot hSlot
    exact hSafe (hComplete v now hOther hNow)

theorem stopper_of_stop {old new : SafepointWorld} (hStop : new.stop = old.stop) :
    new.stopper = old.stopper :=
  congrArg Prod.fst hStop

theorem silent_raise (world : SafepointWorld) (t : ThreadId) :
    Silent t world (world.raise t) where
  quiet := fun u hOther hQuiet => by simp [stoppedByOther, raise, Ne.symm hOther] at hQuiet
  lifted := fun hOver => by cases hOver
  complete := fun _ _ hComplete => hComplete

namespace Consistent

variable {world : SafepointWorld} (consistent : world.Consistent) (t : ThreadId)
include consistent

theorem silent_modifyTask (task : TaskId) {change : TaskSlot → TaskSlot}
    (hId : ∀ slot, (change slot).id = slot.id)
    (hSafe : ∀ slot, (change slot).atSafePoint = true → slot.atSafePoint = true) :
    Silent t world (world.modifyTask task change) := by
  apply silent_of_slots t consistent (consistent.modifyTask task hId)
    (stopper_of_stop (world.stop_modifyTask task change))
  intro v slot hSlot
  refine ⟨_, by rw [consistent.slot?_modifyTask, hSlot, Option.map_some], ?_⟩
  split
  · exact hSafe slot
  · exact id

theorem silent_unpark : Silent t world (world.unpark t) := by
  have hUnparked := consistent.modifySlot t (fun own => { own with parked := false }) fun _ => rfl
  apply silent_of_slots t consistent hUnparked (stopper_of_stop (world.stop_unpark t))
  intro v slot hSlot
  have hChanged := consistent.slot?_modifySlot t v fun own => { own with parked := false }
  by_cases hOwn : v = t
  · rw [if_pos hOwn, hSlot, Option.map_some] at hChanged
    refine ⟨_, hChanged, ?_⟩
    simp only [TaskSlot.atSafePoint, Bool.false_or, Bool.or_eq_true]
    tauto
  · rw [if_neg hOwn] at hChanged
    exact ⟨slot, hChanged.trans hSlot, id⟩

theorem silent_register : Silent t world (world.register t).2 := by
  apply silent_of_slots t consistent (consistent.register t)
    (stopper_of_stop (world.stop_register t))
  intro v slot hSlot
  refine ⟨slot, ?_, id⟩
  cases hOwn : world.slot? t with
  | some own => rw [register_of_some hOwn, hSlot]
  | none =>
    have hOther : v ≠ t := by
      rintro rfl
      cases hOwn.symm.trans hSlot
    rw [consistent.slot?_register hOwn, if_neg hOther, hSlot]

end Consistent

end SafepointWorld

namespace Machine

theorem notifies_perform {machine : Machine} {t : ThreadId} (woken : ThreadId) {move : Move}
    {rest : List Move} (hTodo : (machine.thread t).todo = move :: rest)
    (hNotifies : Notifies (machine.thread t).todo) :
    Notifies ((machine.perform t woken move rest).thread t).todo := by
  rw [hTodo] at hNotifies
  obtain ⟨hMove, hRest⟩ := hNotifies
  cases move <;> simp only [perform] <;> (repeat' split) <;>
    simp_all [Notifies, Move.NotifiedBy, acquireMoves, queueMoves, releaseMoves]

/-- What a thread sleeps on has come about. -/
def due (machine : Machine) (t : ThreadId) : Bool :=
  match (machine.thread t).todo with
  | .unblock _ :: _ => !machine.world.stoppedByOther t
  | .leave :: _ => machine.world.stopper.isNone
  | .drain :: _ => machine.world.allParkedExcept t
  | _ => false

/-- A thread is about to make a move. -/
def Faces (machine : Machine) (t : ThreadId) (move : Move) : Prop :=
  (machine.thread t).todo.head? = some move

theorem faces_change {machine : Machine} {t : ThreadId} {world : SafepointWorld}
    {rest : List Move} {move : Move} (hHead : rest.head? = some move) :
    (machine.change t world rest).Faces t move := by
  rw [Faces, change_self]
  exact hHead

theorem due_of_silent {machine next : Machine} {t u : ThreadId} (hOther : u ≠ t)
    (hThread : next.thread u = machine.thread u)
    (silent : SafepointWorld.Silent t machine.world next.world) (hDue : next.due u = true) :
    machine.due u = true := by
  simp only [due, hThread] at hDue ⊢
  split at hDue
  · simp only [Bool.not_eq_true'] at hDue ⊢
    exact silent.quiet u hOther hDue
  · simp only [Option.isNone_iff_eq_none] at hDue ⊢
    exact silent.lifted hDue
  · exact silent.complete u hOther hDue
  · cases hDue

/-- What others sleep on comes about only by a move that is followed by their notification, or
with their notification. -/
theorem silent_perform {machine : Machine} (t woken : ThreadId) {move : Move} {rest : List Move}
    (consistent : machine.world.Consistent) (hNotified : move.NotifiedBy rest) :
    SafepointWorld.Silent t machine.world (machine.perform t woken move rest).world ∨
      (machine.perform t woken move rest).Faces t .wakeAll ∨
      ∀ u ∈ (machine.perform t woken move rest).asleep, u = t := by
  cases move with
  | block task => exact .inr (.inl (faces_change hNotified))
  | setStatus status => exact .inr (.inl (faces_change hNotified))
  | unregister registration => exact .inr (.inl (faces_change hNotified))
  | lift => exact .inr (.inl (faces_change hNotified))
  | unblock task =>
    left
    simp only [perform]
    split
    · exact .refl t _
    · exact consistent.silent_modifyTask t task (fun _ => rfl) fun slot => by
        simp only [TaskSlot.atSafePoint, Bool.or_false, Bool.or_eq_true]
        tauto
  | hold task held => exact .inl (consistent.silent_modifyTask t task (fun _ => rfl) fun _ => id)
  | raise =>
    left
    simp only [perform]
    split <;> exact machine.world.silent_raise t
  | leave =>
    left
    simp only [perform]
    split
    · exact .refl t _
    · exact consistent.silent_unpark t
  | register => exact .inl (consistent.silent_register t)
  | park stack =>
    simp only [perform]
    split
    · exact .inl (.refl t _)
    · refine .inr (.inr ?_)
      split <;> simp [sleep, change, continueWith, setThread]
  | _ =>
    left
    simp only [perform]
    (repeat' split) <;> exact .refl t _

/-! ## Waiting lists -/

theorem mem_asleep_sleep {machine : Machine} {t u : ThreadId} {move : Move} {rest : List Move}
    (hMem : u ∈ (machine.sleep t move rest).asleep) (hDozes : move.dozes = true)
    (hDue : (machine.sleep t move rest).due t = false) :
    u ∈ machine.asleep ∨ u = t ∧ (machine.sleep t move rest).due t = false ∧
      ∃ first, (machine.sleep t move rest).Faces t first ∧ first.dozes = true := by
  have hAsleep : (machine.sleep t move rest).asleep = machine.asleep ++ [t] := rfl
  rw [hAsleep, List.mem_append, List.mem_singleton] at hMem
  refine hMem.imp_right fun hSelf => ⟨hSelf, hDue, move, ?_, hDozes⟩
  rw [Faces, sleep_self]
  rfl

/-- A thread that has just gone to sleep until the world changes does so for a reason. -/
theorem mem_asleep_perform (machine : Machine) (t woken : ThreadId) {move : Move}
    {rest : List Move} {u : ThreadId} (hMem : u ∈ (machine.perform t woken move rest).asleep) :
    (u ∈ machine.asleep ∧ move ≠ .wakeAll) ∨
      u = t ∧ (machine.perform t woken move rest).due t = false ∧
        ∃ first, (machine.perform t woken move rest).Faces t first ∧ first.dozes = true := by
  cases move with
  | unblock task =>
    simp only [perform] at hMem ⊢
    split at hMem
    next hStopped =>
      rw [if_pos hStopped]
      exact (mem_asleep_sleep hMem rfl (by simp [due, hStopped])).imp_left
        fun hOld => ⟨hOld, by simp⟩
    next => exact .inl ⟨hMem, by simp⟩
  | raise =>
    simp only [perform] at hMem ⊢
    split at hMem
    next => exact .inl ⟨hMem, by simp⟩
    next hRunning =>
      rw [if_neg hRunning]
      exact (mem_asleep_sleep hMem rfl (by simpa [due] using hRunning)).imp_left
        fun hOld => ⟨hOld, by simp⟩
  | drain =>
    simp only [perform] at hMem ⊢
    split at hMem
    next => exact .inl ⟨hMem, by simp⟩
    next hRunning =>
      rw [if_neg hRunning]
      exact (mem_asleep_sleep hMem rfl (by simpa [due] using hRunning)).imp_left
        fun hOld => ⟨hOld, by simp⟩
  | leave =>
    simp only [perform] at hMem ⊢
    split at hMem
    next hStopped =>
      rw [if_pos hStopped]
      exact (mem_asleep_sleep hMem rfl (by
        simpa [due, Option.isSome_iff_ne_none] using hStopped)).imp_left fun hOld => ⟨hOld, by simp⟩
    next => exact .inl ⟨hMem, by simp⟩
  | park stack =>
    simp only [perform] at hMem ⊢
    split at hMem
    next => exact .inl ⟨hMem, by simp⟩
    next parked hPark =>
      split at hMem
      next hStopped =>
        rw [if_pos hStopped]
        refine (mem_asleep_sleep hMem rfl ?_).imp_left fun hOld => absurd hOld List.not_mem_nil
        simpa [due, Option.isSome_iff_ne_none] using hStopped
      next => exact absurd hMem List.not_mem_nil
  | wakeAll => exact absurd hMem List.not_mem_nil
  | _ =>
    refine .inl ⟨?_, by simp⟩
    simp only [perform] at hMem
    (repeat' split at hMem) <;> exact hMem

theorem queue_perform (machine : Machine) (t woken : ThreadId) (move : Move) (rest : List Move) :
    (machine.perform t woken move rest).queue = machine.queue ∨
      (move = .wakeOne ∧
        (machine.perform t woken move rest).queue = machine.queue.erase woken) ∨
      (move = .awaitTurn ∧ machine.held = true ∧
        machine.perform t woken move rest = { machine with queue := machine.queue ++ [t] }) := by
  cases move with
  | wakeOne => exact .inr (.inl ⟨rfl, rfl⟩)
  | awaitTurn =>
    by_cases hHeld : machine.held = true
    · exact .inr (.inr ⟨rfl, hHeld, by simp only [perform, if_pos hHeld]⟩)
    · left
      simp only [perform, if_neg hHeld]
      rfl
  | _ =>
    left
    simp only [perform]
    (repeat' split) <;> rfl

/-- Only by freeing it does a move leave the semaphore free that was held. -/
theorem held_perform {machine : Machine} (t woken : ThreadId) {move : Move} (rest : List Move)
    (hFree : (machine.perform t woken move rest).held = false) :
    machine.held = false ∧ move ≠ .awaitTurn ∨ move = .free := by
  cases move with
  | free => exact .inr rfl
  | take task =>
    simp only [perform] at hFree
    split at hFree
    next hHeld => exact .inl ⟨hFree, by simp⟩
    next => cases hFree
  | awaitTurn =>
    simp only [perform] at hFree
    split at hFree
    next hHeld => cases hHeld.symm.trans hFree
    next => cases hFree
  | _ =>
    refine .inl ⟨?_, by simp⟩
    simp only [perform] at hFree
    (repeat' split at hFree) <;> exact hFree

/-! ## The invariant -/

/-- Notifications of the semaphore reach a thread in the queue, if there is one. -/
def hears (machine : Machine) : Act → Bool
  | .move t woken =>
    match (machine.thread t).todo with
    | .wakeOne :: _ => machine.queue.isEmpty || machine.queue.contains woken
    | _ => true
  | _ => true

/-- No thread sleeps on what has come about, unless its notification is on the way. -/
structure Heard (machine : Machine) : Prop where
  notifies : ∀ t, Notifies (machine.thread t).todo
  consistent : machine.world.Consistent
  queued : ∀ t ∈ machine.queue, machine.Faces t .awaitTurn
  nodup : machine.queue.Nodup
  dozing : ∀ t ∈ machine.asleep, ∃ move, machine.Faces t move ∧ move.dozes = true
  /-- A thread that is awake and faces the semaphore has been notified of it. -/
  turn : machine.held = false → machine.queue ≠ [] →
    ∃ t, machine.Faces t .wakeOne ∨ (t ∉ machine.queue ∧ machine.Faces t .awaitTurn)
  change : ∀ t ∈ machine.asleep, machine.due t = true → ∃ u, machine.Faces u .wakeAll

theorem heard_start : start.Heard where
  notifies := fun _ => trivial
  consistent := SafepointWorld.consistent_empty
  queued := fun _ hMem => absurd hMem List.not_mem_nil
  nodup := List.nodup_nil
  dozing := fun _ hMem => absurd hMem List.not_mem_nil
  turn := fun _ hQueue => absurd rfl hQueue
  change := fun _ hMem => absurd hMem List.not_mem_nil

namespace Heard

variable {machine : Machine} (heard : machine.Heard)
include heard

/-- A command is begun by a thread that faces nothing. -/
theorem begin {t : ThreadId} (command : Command) (hTodo : (machine.thread t).todo = []) :
    (machine.setThread t (command.begin (machine.thread t))).Heard := by
  have hFaces : ∀ {u : ThreadId} {move : Move}, machine.Faces u move →
      (machine.setThread t (command.begin (machine.thread t))).Faces u move := by
    intro u move hFaces
    have hU : u ≠ t := by
      rintro rfl
      rw [Faces, hTodo] at hFaces
      cases hFaces
    rw [Faces, machine.setThread_of_ne t _ hU]
    exact hFaces
  constructor
  · intro u
    by_cases hU : u = t
    · rw [hU, setThread_self]
      exact notifies_begin command _
    · rw [machine.setThread_of_ne t _ hU]
      exact heard.notifies u
  · exact heard.consistent
  · exact fun u hMem => hFaces (heard.queued u hMem)
  · exact heard.nodup
  · intro u hMem
    obtain ⟨move, hMove, hDozes⟩ := heard.dozing u hMem
    exact ⟨move, hFaces hMove, hDozes⟩
  · intro hFree hQueue
    obtain ⟨u, hNotified⟩ := heard.turn hFree hQueue
    exact ⟨u, hNotified.imp hFaces fun hAwake => ⟨hAwake.1, hFaces hAwake.2⟩⟩
  · intro u hMem hDue
    have hU : u ≠ t := by
      rintro rfl
      obtain ⟨move, hMove, -⟩ := heard.dozing u hMem
      rw [Faces, hTodo] at hMove
      cases hMove
    have hSame : machine.due u = true := by
      simp only [due, machine.setThread_of_ne t _ hU] at hDue
      exact hDue
    obtain ⟨v, hNotified⟩ := heard.change u hMem hSame
    exact ⟨v, hFaces hNotified⟩

/-- A sleeper that wakes for no reason looks at its condition again. -/
theorem rouse (t : ThreadId) : (machine.rouse t).Heard := by
  constructor
  · exact heard.notifies
  · exact heard.consistent
  · exact fun u hMem => heard.queued u (List.mem_of_mem_erase hMem)
  · exact heard.nodup.erase t
  · exact fun u hMem => heard.dozing u (List.mem_of_mem_erase hMem)
  · intro hFree hQueue
    have hBefore : machine.queue ≠ [] := by
      intro hEmpty
      apply hQueue
      simp [Machine.rouse, hEmpty]
    obtain ⟨u, hNotified⟩ := heard.turn hFree hBefore
    exact ⟨u, hNotified.imp_right fun hAwake =>
      ⟨fun hMem => hAwake.1 (List.mem_of_mem_erase hMem), hAwake.2⟩⟩
  · exact fun u hMem hDue => heard.change u (List.mem_of_mem_erase hMem) hDue

section Perform

variable {t woken : ThreadId} {move : Move} {rest : List Move}
  (hTodo : (machine.thread t).todo = move :: rest)
include hTodo

omit heard in
theorem faces_self : machine.Faces t move := by
  rw [Faces, hTodo]
  rfl

omit heard hTodo in
theorem faces_perform {u : ThreadId} {other : Move} (hOther : u ≠ t)
    (hFaces : machine.Faces u other) : (machine.perform t woken move rest).Faces u other := by
  rw [Faces, machine.perform_of_ne t woken move rest hOther]
  exact hFaces

omit heard in
theorem eq_of_faces {other : Move} (hFaces : machine.Faces t other) : move = other := by
  rw [Faces, hTodo] at hFaces
  exact Option.some.inj hFaces

variable (hHears : machine.hears (.move t woken) = true) (hAwake : t ∉ machine.sleepers)
include hAwake

theorem queued_perform {u : ThreadId} (hMem : u ∈ (machine.perform t woken move rest).queue) :
    (machine.perform t woken move rest).Faces u .awaitTurn := by
  have hOld (hQueue : u ∈ machine.queue) :
      (machine.perform t woken move rest).Faces u .awaitTurn := by
    refine faces_perform ?_ (heard.queued u hQueue)
    rintro rfl
    exact hAwake (List.mem_append_left _ hQueue)
  rcases machine.queue_perform t woken move rest with hSame | ⟨-, hErased⟩ | ⟨rfl, -, hNext⟩
  · exact hOld (hSame ▸ hMem)
  · rw [hErased] at hMem
    exact hOld (List.mem_of_mem_erase hMem)
  · have hQueue : (machine.perform t woken .awaitTurn rest).queue = machine.queue ++ [t] := by
      rw [hNext]
    rw [hQueue, List.mem_append, List.mem_singleton] at hMem
    rcases hMem with hQueued | rfl
    · exact hOld hQueued
    · rw [hNext]
      exact faces_self hTodo

omit hTodo in
theorem nodup_perform : (machine.perform t woken move rest).queue.Nodup := by
  rcases machine.queue_perform t woken move rest with hSame | ⟨-, hErased⟩ | ⟨-, -, hNext⟩
  · exact hSame ▸ heard.nodup
  · exact hErased ▸ heard.nodup.erase woken
  · rw [hNext]
    refine List.nodup_append.mpr ⟨heard.nodup, by simp, ?_⟩
    intro u hMem v hLast
    rw [List.mem_singleton.mp hLast]
    rintro rfl
    exact hAwake (List.mem_append_left _ hMem)

include hHears in
/-- Whoever was about to notify a thread of the semaphore still is, or has. -/
theorem turn_perform (hFree : (machine.perform t woken move rest).held = false)
    (hQueue : (machine.perform t woken move rest).queue ≠ []) :
    ∃ u, (machine.perform t woken move rest).Faces u .wakeOne ∨
      (u ∉ (machine.perform t woken move rest).queue ∧
        (machine.perform t woken move rest).Faces u .awaitTurn) := by
  have hNotified := heard.notifies t
  rw [hTodo] at hNotified
  by_cases hWakes : move = .wakeOne
  · subst hWakes
    have hErased : (machine.perform t woken .wakeOne rest).queue = machine.queue.erase woken := rfl
    have hWoken : woken ∈ machine.queue := by
      simp only [hears, hTodo, Bool.or_eq_true, List.isEmpty_iff, List.contains_eq_mem,
        decide_eq_true_eq] at hHears
      refine hHears.resolve_left fun hEmpty => hQueue ?_
      rw [hErased, hEmpty]
      rfl
    refine ⟨woken, .inr ⟨?_, faces_perform ?_ (heard.queued woken hWoken)⟩⟩
    · rw [hErased]
      exact heard.nodup.not_mem_erase
    · rintro rfl
      exact hAwake (List.mem_append_left _ hWoken)
  · rcases held_perform t woken rest hFree with ⟨hBefore, hMove⟩ | rfl
    · have hSame : (machine.perform t woken move rest).queue = machine.queue := by
        rcases machine.queue_perform t woken move rest with hSame | ⟨hIs, -⟩ | ⟨hIs, -⟩
        · exact hSame
        · exact absurd hIs hWakes
        · exact absurd hIs hMove
      rw [hSame] at hQueue ⊢
      obtain ⟨u, hFaces⟩ := heard.turn hBefore hQueue
      have hOther : u ≠ t := by
        rintro rfl
        rcases hFaces with hWake | ⟨-, hTurn⟩
        · exact hWakes (eq_of_faces hTodo hWake)
        · exact hMove (eq_of_faces hTodo hTurn)
      exact ⟨u, hFaces.imp (faces_perform hOther) fun hTurn =>
        ⟨hTurn.1, faces_perform hOther hTurn.2⟩⟩
    · refine ⟨t, .inl ?_⟩
      simp only [Faces, Machine.perform, continueWith_self]
      exact hNotified.1

/-- What a sleeper waits for comes about together with its notification. -/
theorem change_perform {u : ThreadId} (hMem : u ∈ (machine.perform t woken move rest).asleep)
    (hDue : (machine.perform t woken move rest).due u = true) :
    ∃ v, (machine.perform t woken move rest).Faces v .wakeAll := by
  have hNotified := heard.notifies t
  rw [hTodo] at hNotified
  rcases machine.mem_asleep_perform t woken hMem with ⟨hOld, hMove⟩ | ⟨rfl, hNotDue, -⟩
  · have hOther : u ≠ t := by
      rintro rfl
      exact hAwake (List.mem_append_right _ hOld)
    rcases silent_perform t woken heard.consistent hNotified.1 with silent | hSelf | hNone
    · have hBefore := due_of_silent hOther (machine.perform_of_ne t woken move rest hOther) silent
        hDue
      obtain ⟨v, hFaces⟩ := heard.change u hOld hBefore
      have hElse : v ≠ t := by
        rintro rfl
        exact hMove (eq_of_faces hTodo hFaces)
      exact ⟨v, faces_perform hElse hFaces⟩
    · exact ⟨t, hSelf⟩
    · exact absurd (hNone u hMem) hOther
  · cases hNotDue.symm.trans hDue

include hHears in
theorem perform : (machine.perform t woken move rest).Heard := by
  constructor
  · intro u
    by_cases hU : u = t
    · rw [hU]
      exact notifies_perform woken hTodo (heard.notifies t)
    · rw [machine.perform_of_ne t woken move rest hU]
      exact heard.notifies u
  · exact consistent_perform t woken move rest heard.consistent
  · exact fun u => heard.queued_perform hTodo hAwake
  · exact heard.nodup_perform hAwake
  · intro u hMem
    rcases machine.mem_asleep_perform t woken hMem with ⟨hOld, -⟩ | ⟨rfl, -, hFaces⟩
    · have hOther : u ≠ t := by
        rintro rfl
        exact hAwake (List.mem_append_right _ hOld)
      obtain ⟨first, hFaces, hDozes⟩ := heard.dozing u hOld
      exact ⟨first, faces_perform hOther hFaces, hDozes⟩
    · exact hFaces
  · exact heard.turn_perform hTodo hHears hAwake
  · exact fun u => heard.change_perform hTodo hAwake

end Perform

theorem after {act : Act} {next : Machine} (hHears : machine.hears act = true)
    (hAct : machine.act? act = some next) : next.Heard := by
  cases act with
  | begin t command =>
    obtain ⟨hTodo, rfl⟩ := act?_begin hAct
    exact heard.begin command hTodo
  | move t woken =>
    obtain ⟨move, rest, hTodo, hAwake, rfl⟩ := act?_move hAct
    exact heard.perform hTodo hHears hAwake
  | rouse t =>
    cases hAct
    exact heard.rouse t

end Heard

/-- No wake-up is lost in any run. -/
theorem heard_run {acts : List Act} {machine : Machine}
    (hRun : start.run? hears acts = some machine) : machine.Heard := by
  refine run_induction (motive := fun _ => Heard) heard_start ?_ acts machine hRun
  exact fun _ _ _ _ heard hHears hAct => heard.after hHears hAct

end Machine

end SiteProfiler
