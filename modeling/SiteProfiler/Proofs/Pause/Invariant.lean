import Mathlib.Data.Fintype.Card
import Mathlib.Data.Fintype.EquivFin
import SiteProfiler.Proofs.Pause.Marks

/-!
# The invariant of stopped worlds

While one thread has the world stopped, every other task is at a safe point and stays there.  A
running task inside the call that takes a pause can only be at a safe point because it is marked
as blocked, and there are no more marks than threads waiting for their turn.  So each of these
threads waits for its turn, the marks are on their own tasks, and nobody is about to overtake.
-/

namespace SiteProfiler

namespace Machine

/-- What holds in every run of well-behaved threads. -/
structure Safe (last : ThreadId → Option Command) (machine : Machine) : Prop where
  regular : machine.Regular
  owned : machine.Owned
  consistent : machine.world.Consistent
  /-- A thread with a token takes no other pause. -/
  alone : ∀ t, (machine.thread t).tokens ≠ [] → (machine.thread t).phase = .outside
  /-- Pauses are taken by running tasks. -/
  members : ∀ t, (machine.thread t).phase.acquiring = true →
    ∃ slot, machine.world.slot? t = some slot ∧ slot.status = .running ∧ slot.parked = false
  taking : ∀ t, (machine.thread t).phase.acquiring = true →
    ∃ command, last t = some command ∧ command.pauses = true
  parked : ∀ t slot, machine.world.slot? t = some slot → slot.parked = true →
    (∃ rest, (machine.thread t).todo = .leave :: rest) ∧ last t = some (.safepoint slot.stack)
  heading : ∀ t stack,
    .poll stack ∈ (machine.thread t).todo ∨ .park stack ∈ (machine.thread t).todo →
      last t = some (.safepoint stack)
  /-- Every mark was set by a thread that has yet to clear it. -/
  blocked : ∀ t slot, machine.world.slot? t = some slot → slot.blocked = true →
    ∃ u, (machine.thread u).phase.marking = true ∧ markOf (machine.thread u).todo = some slot.id
  settled : ∀ t, (machine.standing t).settled = true → ∀ u slot, u ≠ t →
    machine.world.slot? u = some slot → slot.atSafePoint = true

theorem safe_start : start.Safe (lastBegun []) where
  regular := regular_start
  owned := owned_start
  consistent := SafepointWorld.consistent_empty
  alone := fun _ hTokens => absurd rfl hTokens
  members := fun _ hAcquiring => by cases hAcquiring
  taking := fun _ hAcquiring => by cases hAcquiring
  parked := fun _ _ hSlot => by cases hSlot
  heading := fun _ _ hMem => by rcases hMem with hMem | hMem <;> cases hMem
  blocked := fun _ _ hSlot => by cases hSlot
  settled := fun _ hSettled => by cases hSettled

namespace Safe

variable {last : ThreadId → Option Command} {machine : Machine} (safe : machine.Safe last)
include safe

/-- A thread that takes part in the protocol stands where its call is. -/
theorem phase_eq {t : ThreadId} (hPhase : (machine.thread t).phase ≠ .outside) :
    machine.standing t = (machine.thread t).phase := by
  cases hTokens : (machine.thread t).tokens with
  | nil => exact standing_of_no_tokens hTokens
  | cons task rest =>
    have hSome : (machine.thread t).tokens ≠ [] := by
      rw [hTokens]
      exact List.cons_ne_nil _ _
    exact absurd (safe.alone t hSome) hPhase

/-! ## Counting marks -/

theorem finite_acquiring :
    Finite { t : ThreadId // (machine.thread t).phase.acquiring = true } := by
  have hPlace : ∀ t : { t : ThreadId // (machine.thread t).phase.acquiring = true },
      ∃ index : Fin machine.world.tasks.length, machine.world.position t = some index.val := by
    rintro ⟨t, hAcquiring⟩
    obtain ⟨slot, hSlot, -⟩ := safe.members t hAcquiring
    obtain ⟨index, hPosition, -⟩ := SafepointWorld.exists_position hSlot
    exact ⟨⟨index, safe.consistent.placed t index hPosition⟩, hPosition⟩
  choose place hAt using hPlace
  refine Finite.of_injective place fun t u hSame => Subtype.ext ?_
  exact safe.consistent.injective t u _ (hAt t) (hSame ▸ hAt u)

/-- While the world is stopped, threads inside the call that takes a pause wait for their turn,
and the tasks marked as blocked are theirs: every such thread needs a mark on its own task, and
every mark needs such a thread. -/
theorem marks {t : ThreadId} (hSettled : (machine.standing t).settled = true) :
    (∀ u, (machine.thread u).phase.acquiring = true →
      (machine.thread u).phase.marking = true) ∧
    ∀ u slot, machine.world.slot? u = some slot → slot.blocked = true →
      (machine.thread u).phase.marking = true := by
  have hMarker : ∀ u : { u : ThreadId // (machine.thread u).phase.acquiring = true },
      ∃ v : { v : ThreadId // (machine.thread v).phase.acquiring = true },
        (machine.thread v).phase.marking = true ∧
          ∃ slot, machine.world.slot? u = some slot ∧
            markOf (machine.thread v).todo = some slot.id := by
    rintro ⟨u, hAcquiring⟩
    obtain ⟨slot, hSlot, hRunning, hParked⟩ := safe.members u hAcquiring
    have hOther : u ≠ t := by
      rintro rfl
      have hOutside : (machine.thread u).phase ≠ .outside := by
        intro hOutside
        rw [hOutside] at hAcquiring
        cases hAcquiring
      rw [safe.phase_eq hOutside, Phase.settled_eq_false_of_acquiring hAcquiring] at hSettled
      cases hSettled
    have hBlocked : slot.blocked = true := by
      simpa [TaskSlot.atSafePoint, hRunning, hParked] using
        safe.settled t hSettled u slot hOther hSlot
    obtain ⟨v, hPhase, hMark⟩ := safe.blocked u slot hSlot hBlocked
    exact ⟨⟨v, Phase.acquiring_of_marking hPhase⟩, hPhase, slot, hSlot, hMark⟩
  choose marker hPhase slotOf hSlot hMark using hMarker
  have hInjective : Function.Injective marker := by
    intro u v hSame
    have hId : (slotOf u).id = (slotOf v).id :=
      Option.some.inj ((hMark u).symm.trans (hSame ▸ hMark v))
    exact Subtype.ext (safe.consistent.thread_eq (hSlot u) (hSlot v) hId)
  have hFinite := safe.finite_acquiring
  have hSurjective := Finite.injective_iff_surjective.mp hInjective
  have hAll : ∀ u, (machine.thread u).phase.acquiring = true →
      (machine.thread u).phase.marking = true := by
    intro u hAcquiring
    obtain ⟨v, hV⟩ := hSurjective ⟨u, hAcquiring⟩
    have hPhaseV := hPhase v
    rw [hV] at hPhaseV
    exact hPhaseV
  refine ⟨hAll, fun u slot hSlotU hBlocked => ?_⟩
  obtain ⟨v, hPhaseV, hMarkV⟩ := safe.blocked u slot hSlotU hBlocked
  obtain ⟨w, hW⟩ := hSurjective ⟨v, Phase.acquiring_of_marking hPhaseV⟩
  have hMarkW := hMark w
  rw [hW] at hMarkW
  have hSame := safe.consistent.thread_eq hSlotU (hSlot w)
    (Option.some.inj (hMarkV.symm.trans hMarkW))
  rw [hSame]
  exact hAll w w.property

/-- Nobody takes the semaphore during a stop: who freed it still has the world stopped. -/
theorem not_overtakes (act : Act) : machine.overtakes act = false := by
  cases act with
  | move t woken =>
    rw [← Bool.not_eq_true]
    intro hOvertakes
    simp only [overtakes] at hOvertakes
    split at hOvertakes
    next task rest hTodo =>
      simp only [Bool.and_eq_true, Bool.not_eq_true'] at hOvertakes
      obtain ⟨owner, hOwner⟩ := Option.isSome_iff_exists.mp hOvertakes.2
      have hStops := safe.owned.stops_of_stopper owner hOwner
      have hFree : (machine.standing owner).owns = false := by
        rw [← Bool.not_eq_true]
        intro hOwns
        rw [safe.regular.manned.held_of_owns owner hOwns] at hOvertakes
        cases hOvertakes.1
      have hSettled : (machine.standing owner).settled = true := by
        revert hStops hFree
        cases machine.standing owner <;> decide
      have hPhase : (machine.thread t).phase = .calling := by rw [Thread.phase, hTodo]; rfl
      have hMarking := (safe.marks hSettled).1 t (by rw [hPhase]; rfl)
      rw [hPhase] at hMarking
      cases hMarking
    next => cases hOvertakes
  | begin t command => rfl
  | rouse t => rfl

/-! ## One move -/

section Move

variable {next : Machine} {t : ThreadId} (touches : machine.Touches next t)
  (hOthers : ∀ u, u ≠ t → next.thread u = machine.thread u)
include touches hOthers

omit safe in
/-- No move begins to take a pause. -/
theorem acquiring_move (u : ThreadId) (hAcquiring : (next.thread u).phase.acquiring = true) :
    (machine.thread u).phase.acquiring = true := by
  by_cases hU : u = t
  · subst hU
    cases touches with
    | nothing held hSlots hMarking hLeaving hBefore => exact hBefore hAcquiring
    | block task hSlots hWas => exact hWas ▸ rfl
    | unblock task hSlots hQuiet hWas => exact hWas ▸ rfl
    | own hSlots hWas hIs =>
      rw [hIs] at hAcquiring
      cases hAcquiring
  · exact hOthers u hU ▸ hAcquiring

theorem members_move (u : ThreadId) (hAcquiring : (next.thread u).phase.acquiring = true) :
    ∃ slot, next.world.slot? u = some slot ∧ slot.status = .running ∧ slot.parked = false := by
  obtain ⟨slot, hSlot, hRunning, hParked⟩ :=
    safe.members u (acquiring_move touches hOthers u hAcquiring)
  rcases touches.keeps u with ⟨rfl, -, hIs⟩ | hKeeps
  · rw [hIs] at hAcquiring
    cases hAcquiring
  · obtain ⟨new, hNew, -, hStatus, hStill, -⟩ := (hKeeps slot).1 hSlot
    exact ⟨new, hNew, hStatus.trans hRunning, hStill.trans hParked⟩

theorem parked_move (u : ThreadId) (slot : TaskSlot) (hSlot : next.world.slot? u = some slot)
    (hParked : slot.parked = true) :
    (∃ rest, (next.thread u).todo = .leave :: rest) ∧
      last u = some (.safepoint slot.stack) := by
  by_cases hU : u = t
  · subst hU
    cases touches with
    | nothing held hSlots hMarking hLeaving =>
      obtain ⟨old, hOld, rfl⟩ := Option.map_eq_some_iff.mp ((hSlots u).symm.trans hSlot)
      obtain ⟨⟨rest, hTodo⟩, hLast⟩ := safe.parked u old hOld hParked
      exact ⟨⟨rest, hLeaving rest hTodo⟩, hLast⟩
    | block task hSlots hWas =>
      obtain ⟨old, hOld, hNew⟩ := Option.map_eq_some_iff.mp ((hSlots u).symm.trans hSlot)
      have hStill : old.parked = true := by
        rw [← hParked, ← hNew]
        split <;> rfl
      obtain ⟨⟨rest, hTodo⟩, -⟩ := safe.parked u old hOld hStill
      rw [Thread.phase, hTodo] at hWas
      cases hWas
    | unblock task hSlots hQuiet hWas =>
      obtain ⟨old, hOld, hNew⟩ := Option.map_eq_some_iff.mp ((hSlots u).symm.trans hSlot)
      have hStill : old.parked = true := by
        rw [← hParked, ← hNew]
        split <;> rfl
      obtain ⟨⟨rest, hTodo⟩, -⟩ := safe.parked u old hOld hStill
      rw [Thread.phase, hTodo] at hWas
      cases hWas
    | own hSlots hWas hIs hParks =>
      obtain ⟨hTodo, hPark⟩ := hParks slot hSlot hParked
      exact ⟨hTodo, safe.heading u slot.stack (.inr hPark)⟩
  · rcases touches.keeps u with ⟨hSame, -⟩ | hKeeps
    · exact absurd hSame hU
    · obtain ⟨old, hOld, -, -, hStill, hStack⟩ := (hKeeps slot).2 hSlot
      rw [hOthers u hU, hStack]
      exact safe.parked u old hOld (hStill.symm.trans hParked)

/-- A mark that stays was set by another thread, or by this one, which has yet to clear it. -/
theorem blocked_move (u : ThreadId) (slot : TaskSlot) (hSlot : next.world.slot? u = some slot)
    (hBlocked : slot.blocked = true) :
    ∃ v, (next.thread v).phase.marking = true ∧ markOf (next.thread v).todo = some slot.id := by
  have hElse : ∀ {id : TaskId} {v : ThreadId}, v ≠ t →
      (machine.thread v).phase.marking = true → markOf (machine.thread v).todo = some id →
        ∃ v, (next.thread v).phase.marking = true ∧ markOf (next.thread v).todo = some id := by
    intro id v hV hPhase hMark
    exact ⟨v, by rw [hOthers v hV, hPhase], by rw [hOthers v hV, hMark]⟩
  cases touches with
  | nothing held hSlots hMarking =>
    obtain ⟨old, hOld, rfl⟩ := Option.map_eq_some_iff.mp ((hSlots u).symm.trans hSlot)
    obtain ⟨v, hPhase, hMark⟩ := safe.blocked u old hOld hBlocked
    by_cases hV : v = t
    · subst hV
      obtain ⟨hStill, hSame⟩ := hMarking hPhase
      exact ⟨v, hStill, hSame.trans hMark⟩
    · exact hElse hV hPhase hMark
  | block task hSlots hWas hIs hMark =>
    obtain ⟨old, hOld, hNew⟩ := Option.map_eq_some_iff.mp ((hSlots u).symm.trans hSlot)
    split at hNew
    next hTask =>
      refine ⟨t, by rw [hIs]; rfl, ?_⟩
      rw [← hNew, hMark, ← hTask]
    next =>
      subst hNew
      obtain ⟨v, hPhase, hMarkV⟩ := safe.blocked u _ hOld hBlocked
      refine hElse ?_ hPhase hMarkV
      rintro rfl
      rw [hWas] at hPhase
      cases hPhase
  | unblock task hSlots hQuiet hWas hIs hMark =>
    obtain ⟨old, hOld, hNew⟩ := Option.map_eq_some_iff.mp ((hSlots u).symm.trans hSlot)
    split at hNew
    next =>
      rw [← hNew] at hBlocked
      cases hBlocked
    next hTask =>
      subst hNew
      obtain ⟨v, hPhase, hMarkV⟩ := safe.blocked u _ hOld hBlocked
      refine hElse ?_ hPhase hMarkV
      rintro rfl
      exact hTask (Option.some.inj (hMarkV.symm.trans hMark))
  | own hSlots hWas hIs hParks hBlocks =>
    obtain ⟨old, hOld, hId, hOldBlocked⟩ : ∃ old, machine.world.slot? u = some old ∧
        old.id = slot.id ∧ old.blocked = true := by
      by_cases hU : u = t
      · subst hU
        exact hBlocks slot hSlot hBlocked
      · exact ⟨slot, (hSlots u hU).symm.trans hSlot, rfl, hBlocked⟩
    obtain ⟨v, hPhase, hMarkV⟩ := safe.blocked u old hOld hOldBlocked
    rw [hId] at hMarkV
    refine hElse ?_ hPhase hMarkV
    rintro rfl
    rw [hWas] at hPhase
    cases hPhase

omit hOthers in
/-- During a stop no task leaves its safe point. -/
theorem settled_move {owner : ThreadId} (hSettled : (machine.standing owner).settled = true)
    {u : ThreadId} {slot : TaskSlot} (hOther : u ≠ owner)
    (hSlot : next.world.slot? u = some slot) : slot.atSafePoint = true := by
  have hStopper := safe.owned.stopper_of_stops owner (Phase.stops_of_settled hSettled)
  cases touches with
  | nothing held hSlots =>
    obtain ⟨old, hOld, rfl⟩ := Option.map_eq_some_iff.mp ((hSlots u).symm.trans hSlot)
    exact safe.settled owner hSettled u old hOther hOld
  | block task hSlots =>
    obtain ⟨old, hOld, hNew⟩ := Option.map_eq_some_iff.mp ((hSlots u).symm.trans hSlot)
    have hAt := safe.settled owner hSettled u old hOther hOld
    split at hNew
    · simp [← hNew, TaskSlot.atSafePoint]
    · exact hNew ▸ hAt
  | unblock task hSlots hQuiet hWas =>
    -- A stop of another thread keeps the thread waiting, and it has none of its own.
    have hSelf : owner = t := by simpa [SafepointWorld.stoppedByOther, hStopper] using hQuiet
    have hOutside : (machine.thread t).phase ≠ .outside := by
      rw [hWas]
      decide
    rw [hSelf, safe.phase_eq hOutside, hWas] at hSettled
    cases hSettled
  | own hSlots hWas hIs hParks hBlocks hSafe =>
    by_cases hU : u = t
    · subst hU
      obtain ⟨old, hOld, hKeeps⟩ := hSafe slot hSlot (by rw [hStopper]; rfl)
      exact hKeeps (safe.settled owner hSettled u old hOther hOld)
    · exact safe.settled owner hSettled u slot hOther ((hSlots u hU).symm.trans hSlot)

end Move

end Safe

end Machine

end SiteProfiler
