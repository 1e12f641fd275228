import Mathlib.Data.List.Basic
import SiteProfiler.Pause.Safepoint

/-!
# Slots of the safepoint world

Tasks are kept in a list that closes up when one of them leaves, and found through the positions
of their threads or through their numbers.  `Consistent` says that the positions are a bijection
between the registered threads and the places of the list and that no number is used twice.  Each
section of the world is then described by what it does to the slot of each thread.
-/

namespace SiteProfiler

namespace SafepointWorld

/-- Registered threads and places of the task list belong to each other. -/
structure Consistent (world : SafepointWorld) : Prop where
  placed : ∀ t index, world.position t = some index → index < world.tasks.length
  injective : ∀ t u index, world.position t = some index → world.position u = some index → t = u
  covered : ∀ index < world.tasks.length, ∃ t, world.position t = some index
  distinct : (world.tasks.map TaskSlot.id).Nodup
  numbered : ∀ slot ∈ world.tasks, slot.id ≤ world.lastTask

theorem consistent_empty : empty.Consistent where
  placed := fun _ _ hPosition => by cases hPosition
  injective := fun _ _ _ hPosition => by cases hPosition
  covered := fun _ hLt => absurd hLt (Nat.not_lt_zero _)
  distinct := List.nodup_nil
  numbered := fun _ hMem => by cases hMem

/-! ## What leaves the stop alone -/

section Stop

variable (world : SafepointWorld)

/-- Whose stop is on, and whether it shows. -/
def stop (world : SafepointWorld) : Option ThreadId × Bool := (world.stopper, world.stopRequested)

@[simp] theorem stop_modifySlot (t : ThreadId) (change : TaskSlot → TaskSlot) :
    (world.modifySlot t change).stop = world.stop := by
  rw [modifySlot]
  split <;> rfl

@[simp] theorem stop_modifyTask (task : TaskId) (change : TaskSlot → TaskSlot) :
    (world.modifyTask task change).stop = world.stop := by
  rw [modifyTask]
  split <;> rfl

@[simp] theorem stop_register (t : ThreadId) : (world.register t).2.stop = world.stop := by
  rw [register]
  split <;> rfl

@[simp] theorem stop_unregister (t : ThreadId) : (world.unregister t).stop = world.stop := by
  rw [unregister]
  split <;> rfl

@[simp] theorem stop_setStatus (t : ThreadId) (status : TaskStatus) :
    (world.setStatus t status).stop = world.stop :=
  world.stop_modifySlot t _

@[simp] theorem stop_setCollectionHold (task : TaskId) (held : Bool) :
    (world.setCollectionHold task held).stop = world.stop :=
  world.stop_modifyTask task _

@[simp] theorem stop_setBlocked (task : TaskId) (blocked : Bool) :
    (world.setBlocked task blocked).stop = world.stop :=
  world.stop_modifyTask task _

@[simp] theorem stop_unpark (t : ThreadId) : (world.unpark t).stop = world.stop :=
  world.stop_modifySlot t _

/-- A thread parks only if it has a task that is not held and another thread's stop may be on. -/
theorem park?_eq_some {world parked : SafepointWorld} {t : ThreadId} {stack : CallStack}
    (hPark : world.park? t stack = some parked) :
    ∃ slot, world.slot? t = some slot ∧
      parked = world.modifySlot t fun own => { own with parked := true, stack := stack } := by
  rw [park?] at hPark
  split at hPark
  · cases hPark
  · split at hPark
    · cases hPark
    next slot hSlot =>
      split at hPark
      · cases hPark
      · exact ⟨slot, hSlot, (Option.some.inj hPark).symm⟩

theorem thread_register (t : ThreadId) : (world.register t).1.thread = t := by
  rw [register]
  split <;> rfl

end Stop

/-! ## Finding slots -/

theorem exists_position {world : SafepointWorld} {t : ThreadId} {slot : TaskSlot}
    (hSlot : world.slot? t = some slot) :
    ∃ index, world.position t = some index ∧ world.tasks[index]? = some slot :=
  Option.bind_eq_some_iff.mp hSlot

theorem mem_tasks {world : SafepointWorld} {t : ThreadId} {slot : TaskSlot}
    (hSlot : world.slot? t = some slot) : slot ∈ world.tasks := by
  obtain ⟨index, -, hAt⟩ := exists_position hSlot
  exact List.mem_of_getElem? hAt

theorem register_of_some {world : SafepointWorld} {t : ThreadId} {slot : TaskSlot}
    (hSlot : world.slot? t = some slot) : world.register t = (⟨t, slot.id, false⟩, world) := by
  rw [register, hSlot]

namespace Consistent

variable {world : SafepointWorld} (consistent : world.Consistent)
include consistent

theorem slot?_eq_none_iff (t : ThreadId) : world.slot? t = none ↔ world.position t = none := by
  cases hPosition : world.position t with
  | none => simp [slot?, hPosition]
  | some index =>
    have hLt := consistent.placed t index hPosition
    simp [slot?, hPosition, hLt]

/-- Every task of the list is the task of some thread. -/
theorem exists_thread {slot : TaskSlot} (hMem : slot ∈ world.tasks) :
    ∃ t, world.slot? t = some slot := by
  obtain ⟨index, hLt, hSlot⟩ := List.getElem_of_mem hMem
  obtain ⟨t, hPosition⟩ := consistent.covered index hLt
  refine ⟨t, ?_⟩
  rw [slot?, hPosition, Option.bind_some, List.getElem?_eq_getElem hLt, hSlot]

/-- Two places do not have tasks of one number. -/
theorem place_eq {index place : Nat} {slot other : TaskSlot}
    (hAt : world.tasks[index]? = some slot) (hOther : world.tasks[place]? = some other)
    (hId : slot.id = other.id) : index = place := by
  have hIds : (world.tasks.map TaskSlot.id)[index]? = (world.tasks.map TaskSlot.id)[place]? := by
    rw [List.getElem?_map, List.getElem?_map, hAt, hOther, Option.map_some, Option.map_some, hId]
  have hLt : index < (world.tasks.map TaskSlot.id).length := by
    rw [List.length_map]
    exact (List.getElem?_eq_some_iff.mp hAt).1
  exact (List.getElem?_inj hLt consistent.distinct).mp hIds

/-- Two threads do not have tasks of one number. -/
theorem thread_eq {t u : ThreadId} {slot other : TaskSlot} (hSlot : world.slot? t = some slot)
    (hOther : world.slot? u = some other) (hId : slot.id = other.id) : t = u := by
  obtain ⟨index, hPosition, hAt⟩ := exists_position hSlot
  obtain ⟨place, hPlace, hAtPlace⟩ := exists_position hOther
  have hSame := consistent.place_eq hAt hAtPlace hId
  exact consistent.injective t u index hPosition (hSame ▸ hPlace)

theorem allParkedExcept_iff (t : ThreadId) :
    world.allParkedExcept t = true ↔
      ∀ u slot, u ≠ t → world.slot? u = some slot → slot.atSafePoint = true := by
  simp only [allParkedExcept, List.all_eq_true, Prod.forall, Bool.or_eq_true, decide_eq_true_eq,
    List.mem_zipIdx_iff_getElem?]
  constructor
  · intro hAll u slot hOther hSlot
    obtain ⟨index, hPosition, hAt⟩ := exists_position hSlot
    refine (hAll slot index hAt).resolve_left fun hOwn => hOther ?_
    exact consistent.injective u t index hPosition hOwn
  · intro hAll slot index hAt
    by_cases hOwn : world.position t = some index
    · exact .inl hOwn
    · obtain ⟨hLt, -⟩ := List.getElem?_eq_some_iff.mp hAt
      obtain ⟨u, hPosition⟩ := consistent.covered index hLt
      refine .inr (hAll u slot ?_ ?_)
      · rintro rfl
        exact hOwn hPosition
      · rw [slot?, hPosition, Option.bind_some, hAt]

/-! ## Changing slots -/

theorem slot?_modifySlot (t u : ThreadId) (change : TaskSlot → TaskSlot) :
    (world.modifySlot t change).slot? u =
      if u = t then (world.slot? u).map change else world.slot? u := by
  rw [modifySlot]
  cases hPosition : world.position t with
  | none =>
    by_cases hSame : u = t
    · rw [if_pos hSame, hSame, (consistent.slot?_eq_none_iff t).mpr hPosition]
      rfl
    · rw [if_neg hSame]
  | some index =>
    cases hOther : world.position u with
    | none =>
      have hNe : u ≠ t := by
        rintro rfl
        rw [hPosition] at hOther
        cases hOther
      simp [slot?, hOther, hNe]
    | some place =>
      have hIff : index = place ↔ u = t := by
        constructor
        · rintro rfl
          exact consistent.injective u t index hOther hPosition
        · rintro rfl
          exact Option.some.inj (hPosition.symm.trans hOther)
      simp only [slot?, hOther, Option.bind_some, List.getElem?_modify, hIff, Option.map_eq_map]
      split
      · rfl
      · exact Option.map_id'

theorem slot?_modifyTask (task : TaskId) (u : ThreadId) (change : TaskSlot → TaskSlot) :
    (world.modifyTask task change).slot? u =
      (world.slot? u).map fun slot => if slot.id = task then change slot else slot := by
  rw [modifyTask]
  cases hFound : world.tasks.findIdx? fun slot => slot.id = task with
  | none =>
    rw [List.findIdx?_eq_none_iff] at hFound
    cases hSlot : world.slot? u with
    | none => rfl
    | some slot =>
      have hId := hFound slot (mem_tasks hSlot)
      simp only [decide_eq_false_iff_not] at hId
      rw [Option.map_some, if_neg hId]
  | some index =>
    obtain ⟨hLt, hId, -⟩ := List.findIdx?_eq_some_iff_getElem.mp hFound
    cases hPosition : world.position u with
    | none => simp [slot?, hPosition]
    | some place =>
      simp only [slot?, hPosition, Option.bind_some, List.getElem?_modify, Option.map_eq_map]
      cases hAt : world.tasks[place]? with
      | none => rfl
      | some slot =>
        have hIff : index = place ↔ slot.id = task := by
          have hFirst := List.getElem?_eq_getElem hLt
          constructor
          · rintro rfl
            rw [Option.some.inj (hAt.symm.trans hFirst)]
            exact of_decide_eq_true hId
          · intro hTask
            exact consistent.place_eq hFirst hAt ((of_decide_eq_true hId).trans hTask.symm)
        simp only [Option.map_some, hIff]

theorem slot?_register {t : ThreadId} (hNone : world.slot? t = none) (u : ThreadId) :
    (world.register t).2.slot? u =
      if u = t then
        some ⟨world.lastTask + 1, world.lastWorker + 1, .running, .empty, false, false, false⟩
      else world.slot? u := by
  rw [register, hNone]
  by_cases hSame : u = t
  · simp [slot?, hSame]
  · simp only [slot?, if_neg hSame]
    cases hPosition : world.position u with
    | none => rfl
    | some index =>
      have hLt := consistent.placed u index hPosition
      rw [Option.bind_some, Option.bind_some, List.getElem?_append_left hLt]

/-- The places after the one that closes up are found again, one before where they were. -/
theorem slot?_unregister (t u : ThreadId) :
    (world.unregister t).slot? u = if u = t then none else world.slot? u := by
  rw [unregister]
  cases hPosition : world.position t with
  | none =>
    by_cases hSame : u = t
    · rw [if_pos hSame, hSame]
      exact (consistent.slot?_eq_none_iff t).mpr hPosition
    · rw [if_neg hSame]
  | some index =>
    by_cases hSame : u = t
    · simp [slot?, hSame]
    · simp only [slot?, if_neg hSame]
      cases hOther : world.position u with
      | none => rfl
      | some place =>
        have hNe : place ≠ index := by
          rintro rfl
          exact hSame (consistent.injective u t place hOther hPosition)
        by_cases hAfter : index < place
        · rw [Option.map_some, Option.bind_some, if_pos hAfter,
            List.getElem?_eraseIdx_of_ge (by omega), Nat.sub_add_cancel (by omega),
            Option.bind_some]
        · rw [Option.map_some, Option.bind_some, if_neg hAfter,
            List.getElem?_eraseIdx_of_lt (by omega), Option.bind_some]

/-! ## Staying consistent -/

theorem modifyAt (index : Nat) {change : TaskSlot → TaskSlot}
    (hId : ∀ slot, (change slot).id = slot.id) :
    { world with tasks := world.tasks.modify index change }.Consistent := by
  have hIds : (world.tasks.modify index change).map TaskSlot.id = world.tasks.map TaskSlot.id := by
    apply List.ext_getElem?
    intro place
    rw [List.getElem?_map, List.getElem?_map, List.getElem?_modify, Option.map_eq_map,
      Option.map_map]
    congr 1
    funext slot
    rw [Function.comp_apply]
    split
    · exact hId slot
    · rfl
  constructor
  · intro t place hPosition
    rw [List.length_modify]
    exact consistent.placed t place hPosition
  · exact consistent.injective
  · intro place hLt
    rw [List.length_modify] at hLt
    exact consistent.covered place hLt
  · rw [hIds]
    exact consistent.distinct
  · intro slot hMem
    have hOld : slot.id ∈ world.tasks.map TaskSlot.id := hIds ▸ List.mem_map_of_mem hMem
    obtain ⟨old, hOldMem, hOldId⟩ := List.mem_map.mp hOld
    rw [← hOldId]
    exact consistent.numbered old hOldMem

theorem modifySlot (t : ThreadId) (change : TaskSlot → TaskSlot)
    (hId : ∀ slot, (change slot).id = slot.id) : (world.modifySlot t change).Consistent := by
  rw [SafepointWorld.modifySlot]
  split
  · exact consistent
  · exact consistent.modifyAt _ hId

theorem modifyTask (task : TaskId) {change : TaskSlot → TaskSlot}
    (hId : ∀ slot, (change slot).id = slot.id) : (world.modifyTask task change).Consistent := by
  rw [SafepointWorld.modifyTask]
  split
  · exact consistent
  · exact consistent.modifyAt _ hId

theorem register (t : ThreadId) : (world.register t).2.Consistent := by
  cases hSlot : world.slot? t with
  | some slot =>
    rw [register_of_some hSlot]
    exact consistent
  | none =>
    have hPosition := (consistent.slot?_eq_none_iff t).mp hSlot
    rw [SafepointWorld.register, hSlot]
    constructor
    · intro u index hAt
      simp only [List.length_append, List.length_singleton]
      simp only at hAt
      split at hAt
      · cases hAt
        exact Nat.lt_succ_self _
      · exact Nat.lt_succ_of_lt (consistent.placed u index hAt)
    · intro u v index hU hV
      have hNew : ∀ w, world.position w ≠ some world.tasks.length :=
        fun w hAt => Nat.lt_irrefl _ (consistent.placed w _ hAt)
      simp only at hU hV
      split at hU
      next hSame =>
        cases hU
        split at hV
        next hOther => exact hSame.trans hOther.symm
        next => exact absurd hV (hNew v)
      next =>
        split at hV
        next => cases hV; exact absurd hU (hNew u)
        next => exact consistent.injective u v index hU hV
    · intro index hLt
      simp only [List.length_append, List.length_singleton] at hLt
      by_cases hLast : index = world.tasks.length
      · exact ⟨t, by simp [hLast]⟩
      · obtain ⟨u, hAt⟩ := consistent.covered index (by omega)
        refine ⟨u, ?_⟩
        have hOther : u ≠ t := by
          rintro rfl
          rw [hPosition] at hAt
          cases hAt
        simp only [if_neg hOther, hAt]
    · rw [List.map_append, List.nodup_append]
      refine ⟨consistent.distinct, by simp, ?_⟩
      rintro id hMem other hOther rfl
      obtain ⟨slot, hSlotMem, rfl⟩ := List.mem_map.mp hMem
      have hBound := consistent.numbered slot hSlotMem
      rw [List.mem_singleton.mp hOther] at hBound
      exact Nat.not_succ_le_self _ hBound
    · intro slot hMem
      rcases List.mem_append.mp hMem with hOld | hNew
      · exact Nat.le_succ_of_le (consistent.numbered slot hOld)
      · exact Nat.le_of_eq (congrArg TaskSlot.id (List.mem_singleton.mp hNew))

theorem unregister (t : ThreadId) : (world.unregister t).Consistent := by
  rw [SafepointWorld.unregister]
  split
  · exact consistent
  next index hPosition =>
    have hLt := consistent.placed t index hPosition
    have hLength : (world.tasks.eraseIdx index).length = world.tasks.length - 1 :=
      List.length_eraseIdx_of_lt hLt
    -- Another thread stands at another place, before or after the one that closes up.
    have hElsewhere : ∀ u place, u ≠ t → world.position u = some place → place ≠ index := by
      rintro u place hOther hAt rfl
      exact hOther (consistent.injective u t place hAt hPosition)
    have hAt : ∀ u place, (if u = t then none else (world.position u).map fun place =>
        if index < place then place - 1 else place) = some place →
          u ≠ t ∧ ∃ old, world.position u = some old ∧ old ≠ index ∧
            place = if index < old then old - 1 else old := by
      intro u place hNew
      split at hNew
      · cases hNew
      next hOther =>
        obtain ⟨old, hOld, rfl⟩ := Option.map_eq_some_iff.mp hNew
        exact ⟨hOther, old, hOld, hElsewhere u old hOther hOld, rfl⟩
    constructor
    · intro u place hNew
      obtain ⟨-, old, hOld, hNe, rfl⟩ := hAt u place hNew
      have hBound := consistent.placed u old hOld
      simp only [hLength]
      split <;> omega
    · intro u v place hU hV
      obtain ⟨-, old, hOld, hNe, hPlace⟩ := hAt u place hU
      obtain ⟨-, other, hOther, hNeOther, hPlaceOther⟩ := hAt v place hV
      have hSame : old = other := by
        split at hPlace <;> split at hPlaceOther <;> omega
      exact consistent.injective u v old hOld (hSame ▸ hOther)
    · intro place hNew
      simp only [hLength] at hNew
      obtain ⟨u, hOld⟩ := consistent.covered (if place < index then place else place + 1)
        (by split <;> omega)
      refine ⟨u, ?_⟩
      have hOther : u ≠ t := by
        rintro rfl
        have hSame := Option.some.inj (hPosition.symm.trans hOld)
        split at hSame <;> omega
      simp only [if_neg hOther, hOld, Option.map_some, Option.some.injEq]
      split <;> split <;> omega
    · have hIds : ((world.tasks.eraseIdx index).map TaskSlot.id).Sublist
          (world.tasks.map TaskSlot.id) := (List.eraseIdx_sublist _ _).map _
      exact consistent.distinct.sublist hIds
    · intro slot hMem
      exact consistent.numbered slot (List.mem_of_mem_eraseIdx hMem)

end Consistent

end SafepointWorld

end SiteProfiler
