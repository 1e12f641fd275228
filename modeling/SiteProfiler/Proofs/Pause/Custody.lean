import Mathlib.Data.List.Perm.Basic
import SiteProfiler.Proofs.Pause.Standing
import SiteProfiler.Proofs.Pause.Ledger

/-!
# Who has which registration

A registration is a value: the thread that made it may drop it, keep it, or hand it to another
thread, which drops it in its place.  What a thread has is what it keeps and what its call is yet
to drop.  `SharedOut` says that the owning registrations that stand are each with exactly one
thread, and this module tells what commands, moves and handing over do to that.
-/

namespace SiteProfiler

/-! ## Sharing out -/

/-- Each registration that stands is with one thread, which has it once, and nobody has another. -/
def SharedOut (live : ThreadId → List Registration) (standing : List Registration) : Prop :=
  ∃ keeper : Registration → ThreadId, ∀ u registration, (live u).count registration =
    if registration ∈ standing ∧ u = keeper registration then 1 else 0

namespace SharedOut

variable {live next : ThreadId → List Registration} {standing rest : List Registration}
  {registration : Registration} {t u v : ThreadId}

theorem mem_iff (shared : SharedOut live standing) :
    ∃ keeper : Registration → ThreadId, ∀ u registration,
      registration ∈ live u ↔ registration ∈ standing ∧ u = keeper registration := by
  obtain ⟨keeper, hCount⟩ := shared
  refine ⟨keeper, fun u registration => ?_⟩
  rw [← List.count_pos_iff, hCount]
  split <;> simp_all

theorem nodup (shared : SharedOut live standing) (u : ThreadId) : (live u).Nodup := by
  obtain ⟨keeper, hCount⟩ := shared
  rw [List.nodup_iff_count_le_one]
  intro registration
  rw [hCount]
  split <;> omega

theorem mem_standing (shared : SharedOut live standing) (hMem : registration ∈ live u) :
    registration ∈ standing := by
  obtain ⟨keeper, hIff⟩ := shared.mem_iff
  exact ((hIff u registration).mp hMem).1

theorem exists_keeper (shared : SharedOut live standing) (hMem : registration ∈ standing) :
    ∃ u, registration ∈ live u := by
  obtain ⟨keeper, hIff⟩ := shared.mem_iff
  exact ⟨keeper registration, (hIff _ registration).mpr ⟨hMem, rfl⟩⟩

theorem keeper_eq (shared : SharedOut live standing) (hU : registration ∈ live u)
    (hV : registration ∈ live v) : u = v := by
  obtain ⟨keeper, hIff⟩ := shared.mem_iff
  exact ((hIff u registration).mp hU).2.trans ((hIff v registration).mp hV).2.symm

/-- Nothing changes hands. -/
theorem congr (shared : SharedOut live standing) (hPerm : ∀ u, (next u).Perm (live u)) :
    SharedOut next standing := by
  obtain ⟨keeper, hCount⟩ := shared
  refine ⟨keeper, fun u registration => ?_⟩
  rw [(hPerm u).count_eq, hCount]

/-- A registration goes from the thread that has it to another, or back to the same. -/
theorem pass {giver : ThreadId} (taker : ThreadId) (shared : SharedOut live standing)
    (hMem : registration ∈ live giver)
    (hNext : ∀ u other, (next u).count other + (if u = giver ∧ other = registration then 1 else 0) =
      (live u).count other + (if u = taker ∧ other = registration then 1 else 0)) :
    SharedOut next standing := by
  obtain ⟨keeper, hCount⟩ := shared
  have hHere : registration ∈ standing ∧ giver = keeper registration := by
    have hPos := List.count_pos_iff.mpr hMem
    rw [hCount] at hPos
    by_contra hNot
    rw [if_neg hNot] at hPos
    omega
  obtain ⟨hStanding, hGiver⟩ := hHere
  refine ⟨fun other => if other = registration then taker else keeper other, fun u other => ?_⟩
  have hAt := hNext u other
  rw [hCount] at hAt
  by_cases hSame : other = registration
  · subst hSame
    simp only [hStanding, ← hGiver, if_true, and_true, true_and] at hAt ⊢
    omega
  · simp only [hSame, and_false, if_false, Nat.add_zero] at hAt ⊢
    exact hAt

/-- A new registration comes to a thread. -/
theorem enter (shared : SharedOut live standing) (hNew : registration ∉ standing)
    (hNext : ∀ u other, (next u).count other =
      (live u).count other + (if u = t ∧ other = registration then 1 else 0)) :
    SharedOut next (standing ++ [registration]) := by
  obtain ⟨keeper, hCount⟩ := shared
  refine ⟨fun other => if other = registration then t else keeper other, fun u other => ?_⟩
  rw [hNext, hCount]
  by_cases hSame : other = registration
  · subst hSame
    simp [hNew]
  · simp [hSame]

/-- A registration is dropped by the thread that has it. -/
theorem leave (registration : Registration) (shared : SharedOut live standing)
    (hRest : ∀ other, other ∈ rest ↔ other ∈ standing ∧ other ≠ registration)
    (hNext : ∀ u other, (next u).count other + (if u = t ∧ other = registration then 1 else 0) =
      (live u).count other) : SharedOut next rest := by
  obtain ⟨keeper, hCount⟩ := shared
  refine ⟨keeper, fun u other => ?_⟩
  have hAt := hNext u other
  rw [hCount] at hAt
  by_cases hSame : other = registration
  · subst hSame
    -- The thread that drops it is the one that had it.
    have hOwn := hNext t other
    rw [hCount, if_pos ⟨rfl, rfl⟩] at hOwn
    have hKeeper : t = keeper other := by
      by_contra hNot
      rw [if_neg fun h => hNot h.2] at hOwn
      omega
    have hGone : other ∉ rest := fun hMem => ((hRest other).mp hMem).2 rfl
    rw [if_neg fun h => hGone h.1]
    simp only [← hKeeper, and_true] at hAt
    split at hAt <;> split at hAt <;> simp_all
  · simp only [hSame, and_false, if_false, Nat.add_zero] at hAt
    rw [hAt]
    simp [hRest, hSame]

end SharedOut

/-! ## What threads have -/

/-- The registration that a move drops. -/
def Move.drops? : Move → Option Registration
  | .unregister registration => some registration
  | _ => none

/-- The registrations that a call is yet to drop. -/
def dropsOf (moves : List Move) : List Registration := moves.filterMap Move.drops?

@[simp] theorem dropsOf_nil : dropsOf [] = [] := rfl

@[simp] theorem dropsOf_cons (move : Move) (rest : List Move) :
    dropsOf (move :: rest) = move.drops?.toList ++ dropsOf rest := by
  unfold dropsOf
  cases hDrops : move.drops? with
  | none => rw [List.filterMap_cons_none hDrops]; rfl
  | some registration => rw [List.filterMap_cons_some hDrops]; rfl

@[simp] theorem dropsOf_append (moves rest : List Move) :
    dropsOf (moves ++ rest) = dropsOf moves ++ dropsOf rest :=
  List.filterMap_append

/-- The owning registrations a thread has: those it keeps, and those its call is yet to drop. -/
def Thread.live (thread : Thread) : List Registration :=
  thread.registrations.filter Registration.owned ++ dropsOf thread.todo

/-- After a move of these nothing is left of a call, or nothing that concerns registrations. -/
def Move.closes : Move → Bool
  | .register | .dumpTask _ _ | .dumpWorker _ _ | .dumpCheck _ _ _ | .abort | .depart _ => true
  | _ => false

/-- A call registers, dumps or ends its thread only with the last of its moves. -/
def Closed : List Move → Prop
  | [] => True
  | move :: rest => (move.closes = true → rest = []) ∧ Closed rest

theorem closed_append {moves rest : List Move} (hMoves : ∀ move ∈ moves, move.closes = false)
    (hRest : Closed rest) : Closed (moves ++ rest) := by
  induction moves with
  | nil => exact hRest
  | cons move others ih =>
    constructor
    · intro hCloses
      rw [hMoves move List.mem_cons_self] at hCloses
      cases hCloses
    · exact ih fun other hMem => hMoves other (List.mem_cons_of_mem _ hMem)

theorem closes_releaseMoves (task : TaskId) : ∀ move ∈ releaseMoves task, move.closes = false := by
  simp [releaseMoves, Move.closes]

theorem closes_unregisterMoves (registration : Registration) :
    ∀ move ∈ unregisterMoves registration, move.closes = false := by
  unfold unregisterMoves
  split <;> simp [Move.closes]

@[simp] theorem dropsOf_releaseMoves (task : TaskId) : dropsOf (releaseMoves task) = [] := rfl

@[simp] theorem dropsOf_unregisterMoves (registration : Registration) :
    dropsOf (unregisterMoves registration) = [registration].filter Registration.owned := by
  unfold unregisterMoves
  split
  next hOwned => rw [List.filter_cons_of_pos hOwned]; rfl
  next hNot => rw [List.filter_cons_of_neg hNot]; rfl

theorem dropsOf_flatMap_releaseMoves (tasks : List TaskId) :
    dropsOf (tasks.flatMap releaseMoves) = [] := by
  induction tasks with
  | nil => rfl
  | cons task others ih => rw [List.flatMap_cons, dropsOf_append, dropsOf_releaseMoves, ih]; rfl

theorem dropsOf_flatMap_unregisterMoves (registrations : List Registration) :
    dropsOf (registrations.flatMap unregisterMoves) =
      registrations.filter Registration.owned := by
  induction registrations with
  | nil => rfl
  | cons registration others ih =>
    rw [List.flatMap_cons, dropsOf_append, dropsOf_unregisterMoves, ih, ← List.filter_append,
      List.singleton_append]

/-! ## Commands -/

theorem Command.closed_begin (command : Command) (thread : Thread) :
    Closed (command.begin thread).todo := by
  cases command with
  | unregister oldest =>
    simp only [begin]
    split
    · simp [Closed]
    · exact closed_append (closes_unregisterMoves _) (by simp [Closed])
  | release =>
    simp only [begin]
    split
    · simp [Closed]
    · exact closed_append (closes_releaseMoves _) (by simp [Closed])
  | depart unwinding =>
    apply closed_append
    · intro move hMem
      rcases List.mem_append.mp hMem with hRelease | hUnregister
      · obtain ⟨task, -, hMove⟩ := List.mem_flatMap.mp hRelease
        exact closes_releaseMoves task move hMove
      · obtain ⟨registration, -, hMove⟩ := List.mem_flatMap.mp hUnregister
        exact closes_unregisterMoves registration move hMove
    · simp [Closed]
  | acquire task => cases task <;> simp [begin, acquireMoves, Closed, Move.closes]
  | setBlocked task blocked => cases blocked <;> simp [begin, Closed, Move.closes]
  | _ => simp [begin, Closed, Move.closes]

/-- A command moves registrations from those kept to those to be dropped, and loses none. -/
theorem Command.live_begin (command : Command) {thread : Thread} (hTodo : thread.todo = []) :
    (command.begin thread).live.Perm thread.live := by
  have hLive : thread.live = thread.registrations.filter Registration.owned := by
    rw [Thread.live, hTodo, dropsOf_nil, List.append_nil]
  rw [hLive]
  cases command with
  | unregister oldest =>
    simp only [begin]
    split
    · simp [Thread.live, Move.drops?]
    next given hGiven =>
      have hPerm : ((if oldest = true then thread.registrations.dropLast
          else thread.registrations.tail) ++ [given]).Perm thread.registrations := by
        cases oldest with
        | true =>
          rw [if_pos rfl] at hGiven ⊢
          rw [List.dropLast_append_getLast? given hGiven]
        | false =>
          rw [if_neg Bool.false_ne_true] at hGiven ⊢
          have hCons : given :: thread.registrations.tail = thread.registrations :=
            List.cons_head?_tail hGiven
          calc (thread.registrations.tail ++ [given]).Perm (given :: thread.registrations.tail) :=
                List.perm_append_singleton _ _
            _ = thread.registrations := hCons
      have hLive := hPerm.filter Registration.owned
      rw [List.filter_append] at hLive
      simpa only [Thread.live, dropsOf_append, dropsOf_unregisterMoves, dropsOf_cons, Move.drops?,
        dropsOf_nil, Option.toList_none, List.append_nil] using hLive
  | release =>
    simp only [begin]
    split <;> simp [Thread.live, Move.drops?, releaseMoves]
  | depart unwinding =>
    have hReverse := thread.registrations.reverse_perm.filter Registration.owned
    simpa only [begin, Thread.live, dropsOf_append, dropsOf_flatMap_releaseMoves,
      dropsOf_flatMap_unregisterMoves, dropsOf_cons, dropsOf_nil, Move.drops?, Option.toList_none,
      List.filter_nil, List.nil_append, List.append_nil] using hReverse
  | setBlocked task blocked => cases blocked <;> simp [begin, Thread.live, Move.drops?]
  | acquire task => cases task <;> simp [begin, acquireMoves, Thread.live, Move.drops?]
  | dump size allTasks =>
    simp only [begin]
    split <;> simp [Thread.live, Move.drops?]
  | _ => simp [begin, Thread.live, Move.drops?]

namespace Machine

/-! ## Moves -/

section Moves

variable {machine : Machine} {t : ThreadId} (woken : ThreadId) {move : Move} {rest : List Move}

theorem closed_perform (hTodo : (machine.thread t).todo = move :: rest)
    (hClosed : Closed (machine.thread t).todo) :
    Closed ((machine.perform t woken move rest).thread t).todo := by
  have hWhole := hClosed
  rw [hTodo] at hClosed
  obtain ⟨hLast, hRest⟩ := hClosed
  cases move <;> simp only [perform] <;> (repeat' split) <;>
    simp_all [Closed, Move.closes, acquireMoves, queueMoves, releaseMoves]

/-- A move that neither registers nor drops a registration leaves each thread what it has. -/
theorem live_perform (hTodo : (machine.thread t).todo = move :: rest)
    (hClosed : Closed (machine.thread t).todo) (hRegister : move ≠ .register)
    (hDrops : move.drops? = none) (u : ThreadId) :
    ((machine.perform t woken move rest).thread u).live = (machine.thread u).live := by
  by_cases hOther : u = t
  · subst hOther
    rw [hTodo] at hClosed
    obtain ⟨hLast, -⟩ := hClosed
    cases move <;> simp only [perform] <;> (repeat' split) <;>
      simp_all [Thread.live, Move.closes, Move.drops?, acquireMoves, queueMoves, releaseMoves]
  · rw [perform_of_ne machine t woken move rest hOther]

theorem books_perform (hRegister : move ≠ .register) (hDrops : move.drops? = none) :
    (machine.perform t woken move rest).world.books = machine.world.books := by
  cases move with
  | register => exact absurd rfl hRegister
  | unregister registration => cases hDrops
  | park stack =>
    simp only [perform]
    split
    · rfl
    next parked hPark =>
      have hBooks := SafepointWorld.books_park? hPark
      split
      · exact hBooks
      · exact (SafepointWorld.books_unpark parked t).trans hBooks
  | _ =>
    simp only [perform]
    (repeat' split) <;> simp [setThread, returnWith]

theorem live_register (hTodo : (machine.thread t).todo = .register :: rest) :
    ((machine.perform t woken .register rest).thread t).live =
      [(machine.world.register t).1].filter Registration.owned ++ (machine.thread t).live := by
  simp only [perform, setThread_self, Thread.live, hTodo]
  rw [← List.append_assoc, ← List.filter_append]
  rfl

theorem live_unregister {registration : Registration}
    (hTodo : (machine.thread t).todo = .unregister registration :: rest) :
    (machine.thread t).live.Perm
      (registration :: ((machine.perform t woken (.unregister registration) rest).thread t).live) := by
  simp only [perform, change_self, Thread.live, hTodo, dropsOf_cons, Move.drops?,
    Option.toList_some, List.singleton_append]
  exact List.perm_middle

end Moves

/-! ## Handing over -/

/-- Put a registration among those of a thread and leave another with the ones it keeps. -/
def handOver (machine : Machine) (giver taker : ThreadId) (registration : Registration)
    (kept : List Registration) : Machine :=
  let without := machine.setThread giver { machine.thread giver with registrations := kept }
  without.setThread taker
    { without.thread taker with
      registrations := registration :: (without.thread taker).registrations }

/-- Hand the registration at a place in a thread's list to any thread, whatever the two are at.
Handed to itself, a thread has the registration as its newest. -/
def hand? (machine : Machine) (giver taker : ThreadId) (place : Nat) : Option Machine :=
  let registrations := (machine.thread giver).registrations
  registrations[place]?.map fun registration =>
    machine.handOver giver taker registration (registrations.eraseIdx place)

section Handing

variable (machine : Machine) (giver taker : ThreadId) (registration : Registration)
  (kept : List Registration) (u : ThreadId)

theorem todo_handOver :
    ((machine.handOver giver taker registration kept).thread u).todo = (machine.thread u).todo := by
  simp only [handOver, setThread]
  repeat' split
  all_goals simp_all

theorem registrations_handOver :
    ((machine.handOver giver taker registration kept).thread u).registrations =
      (if u = taker then [registration] else []) ++
        (if u = giver then kept else (machine.thread u).registrations) := by
  simp only [handOver, setThread]
  repeat' split
  all_goals simp_all

end Handing

theorem hand?_eq_some {machine next : Machine} {giver taker : ThreadId} {place : Nat}
    (hHand : machine.hand? giver taker place = some next) :
    ∃ registration kept, (registration :: kept).Perm (machine.thread giver).registrations ∧
      next = machine.handOver giver taker registration kept := by
  obtain ⟨registration, hAt, rfl⟩ := Option.map_eq_some_iff.mp hHand
  obtain ⟨hLt, rfl⟩ := List.getElem?_eq_some_iff.mp hAt
  exact ⟨_, _, List.getElem_cons_eraseIdx_perm hLt, rfl⟩

/-- Handing over keeps the registrations shared out. -/
theorem sharedOut_handOver {machine : Machine} {giver taker : ThreadId}
    {registration : Registration} {kept standing : List Registration}
    (hPerm : (registration :: kept).Perm (machine.thread giver).registrations)
    (shared : SharedOut (fun u => (machine.thread u).live) standing) :
    SharedOut (fun u => ((machine.handOver giver taker registration kept).thread u).live)
      standing := by
  have hFilter := hPerm.filter Registration.owned
  have hLive : ∀ u, ((machine.handOver giver taker registration kept).thread u).live =
      ((if u = taker then [registration] else []).filter Registration.owned ++
        (if u = giver then kept else (machine.thread u).registrations).filter Registration.owned) ++
          dropsOf (machine.thread u).todo := by
    intro u
    rw [Thread.live, registrations_handOver, todo_handOver, List.filter_append]
  cases hOwned : registration.owned with
  | false =>
    rw [List.filter_cons_of_neg (by simp [hOwned])] at hFilter
    apply shared.congr
    intro u
    rw [hLive, Thread.live]
    apply List.Perm.append_right
    have hNone : (if u = taker then [registration] else []).filter Registration.owned = [] := by
      split <;> simp [hOwned]
    rw [hNone, List.nil_append]
    split
    next hGiver => exact hGiver ▸ hFilter
    next => rfl
  | true =>
    rw [List.filter_cons_of_pos hOwned] at hFilter
    have hHere : registration ∈ (machine.thread giver).live :=
      List.mem_append_left _ (hFilter.subset List.mem_cons_self)
    apply shared.pass taker hHere
    intro u other
    have hSome : ((if u = taker then [registration] else []).filter Registration.owned).count other =
        if u = taker ∧ other = registration then 1 else 0 := by
      by_cases hTaker : u = taker
      · by_cases hSame : other = registration <;> simp [hTaker, hOwned, hSame, Ne.symm]
      · simp [hTaker]
    have hKept : ((if u = giver then kept else (machine.thread u).registrations).filter
        Registration.owned).count other + (if u = giver ∧ other = registration then 1 else 0) =
          ((machine.thread u).registrations.filter Registration.owned).count other := by
      by_cases hGiver : u = giver
      · rw [if_pos hGiver, hGiver, ← hFilter.count_eq]
        by_cases hSame : other = registration <;> simp [hSame, Ne.symm]
      · simp [hGiver]
    rw [hLive, Thread.live, List.count_append, List.count_append, List.count_append, hSome]
    omega

end Machine

end SiteProfiler
