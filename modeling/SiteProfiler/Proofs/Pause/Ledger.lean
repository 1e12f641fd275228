import Mathlib.Data.List.InsertIdx
import Mathlib.Data.List.Nodup
import SiteProfiler.Proofs.Pause.Slots

/-!
# The ledger of registrations

The world forgets a task when its thread leaves.  A ledger does not: it lists every owning
registration that was ever handed out, and the numbers of those that have been dropped.  `Booked`
says that the task list, the positions and the counters of the world are what the ledger makes of
them, and each section of the world keeps that.
-/

namespace SiteProfiler

/-- An owning registration as it was handed out, and the worker that its thread saw then. -/
structure Enrolment where
  thread : ThreadId
  task : TaskId
  worker : WorkerId
deriving DecidableEq, Repr

def Enrolment.registration (entry : Enrolment) : Registration := ⟨entry.thread, entry.task, true⟩

/-- What a task that keeps its number and worker shows of its enrolment. -/
def Enrolment.key (entry : Enrolment) : TaskId × WorkerId := (entry.task, entry.worker)

structure Ledger where
  /-- Oldest first. -/
  enrolled : List Enrolment
  /-- Numbers of the tasks that have been removed. -/
  struck : List TaskId
deriving DecidableEq, Repr

namespace Ledger

def empty : Ledger := ⟨[], []⟩

def enrol (ledger : Ledger) (entry : Enrolment) : Ledger :=
  { ledger with enrolled := ledger.enrolled ++ [entry] }

def strike (ledger : Ledger) (task : TaskId) : Ledger :=
  { ledger with struck := task :: ledger.struck }

/-- The enrolments that stand, in the order of registration. -/
def members (ledger : Ledger) : List Enrolment :=
  ledger.enrolled.filter fun entry => entry.task ∉ ledger.struck

variable {ledger : Ledger}

theorem mem_members {entry : Enrolment} :
    entry ∈ ledger.members ↔ entry ∈ ledger.enrolled ∧ entry.task ∉ ledger.struck := by
  simp [members]

theorem members_sublist : ledger.members.Sublist ledger.enrolled := List.filter_sublist

theorem members_enrol {entry : Enrolment} (hFresh : entry.task ∉ ledger.struck) :
    (ledger.enrol entry).members = ledger.members ++ [entry] := by
  have hLast : [entry].filter (fun entry => entry.task ∉ ledger.struck) = [entry] := by
    simp [hFresh]
  change (ledger.enrolled ++ [entry]).filter (fun entry => entry.task ∉ ledger.struck) = _
  rw [List.filter_append, hLast, members]

theorem members_strike (task : TaskId) :
    (ledger.strike task).members = ledger.members.filter fun entry => entry.task ≠ task := by
  unfold members strike
  rw [List.filter_filter]
  apply List.filter_congr
  intro entry _
  simp [not_or]

/-- If no two enrolments have one number, striking a member closes the gap that it leaves. -/
theorem members_strike_eq_eraseIdx (hDistinct : (ledger.members.map Enrolment.task).Nodup)
    {index : Nat} {entry : Enrolment} (hAt : ledger.members[index]? = some entry) :
    (ledger.strike entry.task).members = ledger.members.eraseIdx index := by
  obtain ⟨hLt, hEntry⟩ := List.getElem?_eq_some_iff.mp hAt
  have hNodup : ledger.members.Nodup := hDistinct.of_map
  have hMem : entry ∈ ledger.members := List.mem_of_getElem? hAt
  calc (ledger.strike entry.task).members
      = ledger.members.filter fun other => other.task ≠ entry.task := members_strike entry.task
    _ = ledger.members.filter fun other => other != entry := by
      apply List.filter_congr
      intro other hOther
      rw [bne, beq_eq_decide, ← decide_not]
      apply decide_eq_decide.mpr
      apply not_congr
      exact ⟨List.inj_on_of_nodup_map hDistinct hOther hMem, congrArg Enrolment.task⟩
    _ = ledger.members.erase entry := (hNodup.erase_eq_filter entry).symm
    _ = ledger.members.eraseIdx index := by rw [← hEntry, hNodup.erase_getElem]

end Ledger

/-- What a task shows of the enrolment it comes from. -/
def TaskSlot.key (slot : TaskSlot) : TaskId × WorkerId := (slot.id, slot.worker)

namespace SafepointWorld

/-- The counters, the numbers and workers of the tasks, and where each thread has its task. -/
def books (world : SafepointWorld) :
    (TaskId × WorkerId) × List (TaskId × WorkerId) × (ThreadId → Option Nat) :=
  ((world.lastTask, world.lastWorker), world.tasks.map TaskSlot.key, world.position)

/-! ## What leaves the books alone -/

section Books

variable (world : SafepointWorld)

theorem map_key_modify (tasks : List TaskSlot) (index : Nat) {change : TaskSlot → TaskSlot}
    (hKey : ∀ slot, (change slot).key = slot.key) :
    (tasks.modify index change).map TaskSlot.key = tasks.map TaskSlot.key := by
  apply List.ext_getElem?
  intro place
  rw [List.getElem?_map, List.getElem?_map, List.getElem?_modify]
  cases tasks[place]? with
  | none => rfl
  | some slot =>
    by_cases hSame : index = place
    · simp [hSame, hKey]
    · simp [hSame]

theorem books_modifySlot (t : ThreadId) {change : TaskSlot → TaskSlot}
    (hKey : ∀ slot, (change slot).key = slot.key) :
    (world.modifySlot t change).books = world.books := by
  unfold modifySlot
  split
  · rfl
  · simp only [books, map_key_modify _ _ hKey]

theorem books_modifyTask (task : TaskId) {change : TaskSlot → TaskSlot}
    (hKey : ∀ slot, (change slot).key = slot.key) :
    (world.modifyTask task change).books = world.books := by
  unfold modifyTask
  split
  · rfl
  · simp only [books, map_key_modify _ _ hKey]

@[simp] theorem books_setStatus (t : ThreadId) (status : TaskStatus) :
    (world.setStatus t status).books = world.books :=
  world.books_modifySlot t fun _ => rfl

@[simp] theorem books_setCollectionHold (task : TaskId) (held : Bool) :
    (world.setCollectionHold task held).books = world.books :=
  world.books_modifyTask task fun _ => rfl

@[simp] theorem books_setBlocked (task : TaskId) (blocked : Bool) :
    (world.setBlocked task blocked).books = world.books :=
  world.books_modifyTask task fun _ => rfl

@[simp] theorem books_unpark (t : ThreadId) : (world.unpark t).books = world.books :=
  world.books_modifySlot t fun _ => rfl

@[simp] theorem books_raise (t : ThreadId) : (world.raise t).books = world.books := rfl

@[simp] theorem books_lift : world.lift.books = world.books := rfl

theorem books_park? {world parked : SafepointWorld} {t : ThreadId} {stack : CallStack}
    (hPark : world.park? t stack = some parked) : parked.books = world.books := by
  obtain ⟨-, -, rfl⟩ := park?_eq_some hPark
  exact world.books_modifySlot t fun _ => rfl

end Books

/-! ## Worlds that are as their ledger says -/

/-- Owning registrations were numbered from one on, tasks and workers alike, and the task list
holds the members of the ledger in order. -/
structure Booked (world : SafepointWorld) (ledger : Ledger) : Prop where
  numbered : ledger.enrolled.map Enrolment.task = List.range' 1 world.lastTask
  manned : ledger.enrolled.map Enrolment.worker = List.range' 1 world.lastWorker
  issued : ∀ task ∈ ledger.struck, task ≤ world.lastTask
  listed : world.tasks.map TaskSlot.key = ledger.members.map Enrolment.key
  placed : ∀ t index, world.position t = some index ↔
    (ledger.members[index]?).map Enrolment.thread = some t

theorem booked_empty : empty.Booked .empty where
  numbered := rfl
  manned := rfl
  issued := fun _ hMem => by cases hMem
  listed := rfl
  placed := fun _ _ => by simp [empty, Ledger.members, Ledger.empty]

/-- The first registration of a thread is an owning one and has the next number. -/
theorem registration_register {world : SafepointWorld} {t : ThreadId}
    (hNone : world.slot? t = none) :
    (world.register t).1 = ⟨t, world.lastTask + 1, true⟩ := by
  unfold register
  rw [hNone]

namespace Booked

variable {world : SafepointWorld} {ledger : Ledger} (booked : world.Booked ledger)
include booked

/-- Only the books of a world matter. -/
theorem congr {next : SafepointWorld} (hBooks : next.books = world.books) :
    next.Booked ledger := by
  simp only [books, Prod.mk.injEq] at hBooks
  obtain ⟨⟨hTask, hWorker⟩, hTasks, hPosition⟩ := hBooks
  constructor
  · rw [hTask]
    exact booked.numbered
  · rw [hWorker]
    exact booked.manned
  · rw [hTask]
    exact booked.issued
  · rw [hTasks]
    exact booked.listed
  · rw [hPosition]
    exact booked.placed

/-! ### Numbers -/

theorem length_tasks : world.tasks.length = ledger.members.length := by
  have hLength := congrArg List.length booked.listed
  rwa [List.length_map, List.length_map] at hLength

theorem map_id : world.tasks.map TaskSlot.id = ledger.members.map Enrolment.task := by
  have hIds := congrArg (List.map Prod.fst) booked.listed
  rwa [List.map_map, List.map_map] at hIds

theorem map_worker : world.tasks.map TaskSlot.worker = ledger.members.map Enrolment.worker := by
  have hWorkers := congrArg (List.map Prod.snd) booked.listed
  rwa [List.map_map, List.map_map] at hWorkers

theorem pairwise_task : (ledger.members.map Enrolment.task).Pairwise (· < ·) := by
  have hAll : (ledger.enrolled.map Enrolment.task).Pairwise (· < ·) := by
    rw [booked.numbered]
    exact List.pairwise_lt_range'
  exact hAll.sublist (Ledger.members_sublist.map _)

theorem pairwise_worker : (ledger.members.map Enrolment.worker).Pairwise (· < ·) := by
  have hAll : (ledger.enrolled.map Enrolment.worker).Pairwise (· < ·) := by
    rw [booked.manned]
    exact List.pairwise_lt_range'
  exact hAll.sublist (Ledger.members_sublist.map _)

theorem nodup_task : (ledger.members.map Enrolment.task).Nodup :=
  booked.pairwise_task.imp fun hLt => Nat.ne_of_lt hLt

theorem task_bounds {entry : Enrolment} (hMem : entry ∈ ledger.enrolled) :
    1 ≤ entry.task ∧ entry.task ≤ world.lastTask := by
  have hTask : entry.task ∈ List.range' 1 world.lastTask :=
    booked.numbered ▸ List.mem_map_of_mem hMem
  obtain ⟨hFirst, hLast⟩ := List.mem_range'_1.mp hTask
  exact ⟨hFirst, Nat.lt_one_add_iff.mp hLast⟩

/-! ### Members and their tasks -/

/-- A thread stands in the ledger at most once. -/
theorem entry_eq {entry other : Enrolment} (hMem : entry ∈ ledger.members)
    (hOther : other ∈ ledger.members) (hThread : entry.thread = other.thread) : entry = other := by
  obtain ⟨index, hAt⟩ := List.mem_iff_getElem?.mp hMem
  obtain ⟨place, hPlace⟩ := List.mem_iff_getElem?.mp hOther
  have hPosition : world.position entry.thread = some index :=
    (booked.placed _ _).mpr (by rw [hAt, Option.map_some])
  have hOtherPosition : world.position entry.thread = some place :=
    (booked.placed _ _).mpr (by rw [hPlace, Option.map_some, hThread])
  have hSame : index = place := Option.some.inj (hPosition.symm.trans hOtherPosition)
  rw [hSame, hPlace] at hAt
  exact (Option.some.inj hAt).symm

/-- The task at a place is the one that the ledger has there. -/
theorem key_at (index : Nat) :
    (world.tasks[index]?).map TaskSlot.key = (ledger.members[index]?).map Enrolment.key := by
  rw [← List.getElem?_map, booked.listed, List.getElem?_map]

theorem slot?_key {t : ThreadId} {slot : TaskSlot} (hSlot : world.slot? t = some slot) :
    ∃ entry ∈ ledger.members, entry.thread = t ∧ entry.key = slot.key := by
  obtain ⟨index, hPosition, hAt⟩ := exists_position hSlot
  obtain ⟨entry, hEntry, hThread⟩ :=
    Option.map_eq_some_iff.mp ((booked.placed t index).mp hPosition)
  have hKey := booked.key_at index
  rw [hAt, hEntry, Option.map_some, Option.map_some] at hKey
  exact ⟨entry, List.mem_of_getElem? hEntry, hThread, (Option.some.inj hKey).symm⟩

theorem exists_slot {entry : Enrolment} (hMem : entry ∈ ledger.members) :
    ∃ slot, world.slot? entry.thread = some slot ∧ slot.key = entry.key := by
  obtain ⟨index, hEntry⟩ := List.mem_iff_getElem?.mp hMem
  have hPosition : world.position entry.thread = some index :=
    (booked.placed _ _).mpr (by rw [hEntry, Option.map_some])
  have hKey := booked.key_at index
  rw [hEntry, Option.map_some] at hKey
  obtain ⟨slot, hSlot, hSame⟩ := Option.map_eq_some_iff.mp hKey
  refine ⟨slot, ?_, hSame⟩
  unfold slot?
  rw [hPosition, Option.bind_some, hSlot]

theorem isSome_slot?_iff (t : ThreadId) :
    (world.slot? t).isSome = true ↔ ∃ entry ∈ ledger.members, entry.thread = t := by
  constructor
  · intro hSome
    obtain ⟨slot, hSlot⟩ := Option.isSome_iff_exists.mp hSome
    obtain ⟨entry, hMem, hThread, -⟩ := booked.slot?_key hSlot
    exact ⟨entry, hMem, hThread⟩
  · rintro ⟨entry, hMem, rfl⟩
    obtain ⟨slot, hSlot, -⟩ := booked.exists_slot hMem
    rw [hSlot]
    rfl

/-- What a registered thread sees of itself is what it was enrolled with. -/
theorem current_eq {entry : Enrolment} (hMem : entry ∈ ledger.members) :
    (world.currentTask entry.thread).id = entry.task ∧
      world.currentWorker entry.thread = entry.worker := by
  obtain ⟨slot, hSlot, hKey⟩ := booked.exists_slot hMem
  simp only [TaskSlot.key, Enrolment.key, Prod.mk.injEq] at hKey
  unfold currentTask currentWorker
  rw [hSlot]
  exact hKey

theorem consistent : world.Consistent := by
  have hLength := booked.length_tasks
  have hEntry : ∀ t index, world.position t = some index →
      ∃ entry, ledger.members[index]? = some entry ∧ entry.thread = t :=
    fun t index hPosition => Option.map_eq_some_iff.mp ((booked.placed t index).mp hPosition)
  constructor
  · intro t index hPosition
    obtain ⟨entry, hAt, -⟩ := hEntry t index hPosition
    have hLt := (List.getElem?_eq_some_iff.mp hAt).1
    omega
  · intro t u index hT hU
    obtain ⟨entry, hAt, rfl⟩ := hEntry t index hT
    obtain ⟨other, hOther, rfl⟩ := hEntry u index hU
    rw [Option.some.inj (hAt.symm.trans hOther)]
  · intro index hLt
    rw [hLength] at hLt
    refine ⟨(ledger.members[index]).thread, (booked.placed _ _).mpr ?_⟩
    rw [List.getElem?_eq_getElem hLt, Option.map_some]
  · rw [booked.map_id]
    exact booked.nodup_task
  · intro slot hMem
    have hId : slot.id ∈ ledger.members.map Enrolment.task :=
      booked.map_id ▸ List.mem_map_of_mem hMem
    obtain ⟨entry, hEntry, hTask⟩ := List.mem_map.mp hId
    rw [← hTask]
    exact (booked.task_bounds (Ledger.mem_members.mp hEntry).1).2

/-- A stop by a thread waits for every task but the one that has the thread's own number. -/
theorem allParkedExcept_eq (t : ThreadId) :
    world.allParkedExcept t =
      (world.tasks.filter fun slot => slot.id ≠ (world.currentTask t).id).all
        TaskSlot.atSafePoint := by
  have hConsistent := booked.consistent
  rw [Bool.eq_iff_iff, hConsistent.allParkedExcept_iff]
  simp only [List.all_eq_true, List.mem_filter, decide_eq_true_eq, and_imp]
  constructor
  · intro hAll slot hMem hNumber
    obtain ⟨u, hSlot⟩ := hConsistent.exists_thread hMem
    refine hAll u slot ?_ hSlot
    rintro rfl
    apply hNumber
    unfold currentTask
    rw [hSlot]
  · intro hAll u slot hOther hSlot
    refine hAll slot (mem_tasks hSlot) fun hNumber => ?_
    cases hOwn : world.slot? t with
    | some own =>
      -- Two threads with tasks of one number are one thread.
      unfold currentTask at hNumber
      rw [hOwn] at hNumber
      exact hOther (hConsistent.thread_eq hSlot hOwn hNumber)
    | none =>
      -- A thread without a task sees number zero, which was never given.
      unfold currentTask at hNumber
      rw [hOwn] at hNumber
      obtain ⟨entry, hMem, -, hKey⟩ := booked.slot?_key hSlot
      have hBounds := booked.task_bounds (Ledger.mem_members.mp hMem).1
      simp only [TaskSlot.key, Enrolment.key, Prod.mk.injEq] at hKey
      rw [hKey.1, hNumber] at hBounds
      exact absurd hBounds.1 (Nat.not_succ_le_zero 0)

/-! ### Registering and leaving -/

theorem fresh : world.lastTask + 1 ∉ ledger.struck := by
  intro hStruck
  exact Nat.not_succ_le_self _ (booked.issued _ hStruck)

/-- The first registration of a thread is enrolled at the end. -/
theorem register {t : ThreadId} (hNone : world.slot? t = none) :
    (world.register t).2.Booked
      (ledger.enrol ⟨t, (world.register t).1.task, (world.register t).2.currentWorker t⟩) := by
  have hConsistent := booked.consistent
  have hWorker : (world.register t).2.currentWorker t = world.lastWorker + 1 := by
    unfold currentWorker
    rw [hConsistent.slot?_register hNone, if_pos rfl]
  have hFresh := booked.fresh
  have hUnplaced := (hConsistent.slot?_eq_none_iff t).mp hNone
  rw [hWorker]
  unfold SafepointWorld.register
  rw [hNone]
  constructor
  · simp only [Ledger.enrol, List.map_append, booked.numbered, List.map_singleton]
    rw [List.range'_1_concat, Nat.add_comm]
  · simp only [Ledger.enrol, List.map_append, booked.manned, List.map_singleton]
    rw [List.range'_1_concat, Nat.add_comm]
  · intro task hStruck
    exact Nat.le_succ_of_le (booked.issued task hStruck)
  · rw [Ledger.members_enrol hFresh, List.map_append, List.map_append, booked.listed]
    rfl
  · intro u index
    have hLength := booked.length_tasks
    rw [Ledger.members_enrol hFresh, List.getElem?_append]
    dsimp only
    split
    next hSame =>
      -- The new thread has its place at the end and nowhere before.
      subst hSame
      split
      next hLt =>
        have hNot : ¬ (ledger.members[index]?).map Enrolment.thread = some u := by
          rw [← booked.placed, hUnplaced]
          simp
        simp only [hNot, iff_false, Option.some.injEq]
        omega
      next hGe =>
        rw [List.getElem?_singleton]
        split
        · simp only [Option.map_some, Option.some.injEq, iff_true]
          omega
        · simp only [Option.map_none, Option.some.injEq, reduceCtorEq, iff_false]
          omega
    next hOther =>
      rw [booked.placed]
      split
      · rfl
      next hGe =>
        rw [List.getElem?_eq_none (by omega), List.getElem?_singleton]
        split
        · simp [Ne.symm hOther]
        · simp

/-- When a registered thread leaves, its entry is struck and the tasks after it move up. -/
theorem unregister {entry : Enrolment} (hMem : entry ∈ ledger.members) :
    (world.unregister entry.thread).Booked (ledger.strike entry.task) := by
  obtain ⟨index, hAt⟩ := List.mem_iff_getElem?.mp hMem
  have hPosition : world.position entry.thread = some index :=
    (booked.placed _ _).mpr (by rw [hAt, Option.map_some])
  have hMembers := Ledger.members_strike_eq_eraseIdx booked.nodup_task hAt
  unfold SafepointWorld.unregister
  rw [hPosition]
  constructor
  · exact booked.numbered
  · exact booked.manned
  · intro task hStruck
    rcases List.mem_cons.mp hStruck with rfl | hOld
    · exact (booked.task_bounds (Ledger.mem_members.mp hMem).1).2
    · exact booked.issued task hOld
  · rw [hMembers, ← List.eraseIdx_map, ← List.eraseIdx_map, booked.listed]
  · intro u place
    rw [hMembers, List.getElem?_eraseIdx]
    dsimp only
    split
    next hSame =>
      -- The thread that left stood at the place that is gone, hence at no other.
      subst hSame
      have hNowhere : ∀ other, other ≠ index →
          (ledger.members[other]?).map Enrolment.thread ≠ some entry.thread := by
        intro other hOther hThread
        have hThere := (booked.placed _ _).mpr hThread
        exact hOther (Option.some.inj (hThere.symm.trans hPosition))
      simp only [reduceCtorEq, false_iff]
      split
      · exact hNowhere place (by omega)
      · exact hNowhere (place + 1) (by omega)
    next hOther =>
      have hElsewhere : world.position u ≠ some index := by
        intro hThere
        exact hOther (booked.consistent.injective u entry.thread index hThere hPosition)
      have hShift : ((world.position u).map fun old => if index < old then old - 1 else old) =
          some place ↔ world.position u = some (if place < index then place else place + 1) := by
        cases hOld : world.position u with
        | none => simp
        | some old =>
          have hNe : old ≠ index := fun hSame => hElsewhere (hSame ▸ hOld)
          simp only [Option.map_some, Option.some.injEq]
          split <;> split <;> omega
      rw [hShift, booked.placed]
      split <;> rfl

end Booked

end SafepointWorld

end SiteProfiler
