import SiteProfiler.Proofs.Pause.Handover

/-!
# Owners of the semaphore and the stop

In every run the semaphore has at most one owner.  A stop belongs to the owner, or to the thread
that has freed the semaphore last, provided that nobody took the free semaphore while a stop was
still on.
-/

namespace SiteProfiler

namespace Machine

/-- The semaphore is held exactly while some thread owns it, and no two threads do. -/
structure Manned (machine : Machine) : Prop where
  held_of_owns : ∀ t, (machine.standing t).owns = true → machine.held = true
  owner_of_held : machine.held = true → ∃ t, (machine.standing t).owns = true
  unique : ∀ t u, (machine.standing t).owns = true → (machine.standing u).owns = true → t = u
  requested : machine.world.stopRequested = machine.world.stopper.isSome

theorem Passage.held {machine next : Machine} {t : ThreadId} (passage : machine.Passage next t) :
    (next.held = machine.held ∧ (next.standing t).owns = (machine.standing t).owns) ∨
      (machine.held = false ∧ next.held = true ∧ (next.standing t).owns = true) ∨
      ((machine.standing t).owns = true ∧ (next.standing t).owns = false ∧ next.held = false) := by
  cases passage with
  | wander hWas hIs hGate =>
    exact .inl ⟨congrArg Gate.held hGate,
      (Phase.owns_of_idle hIs).trans (Phase.owns_of_idle hWas).symm⟩
  | stay hIs hGate => exact .inl ⟨congrArg Gate.held hGate, by rw [hIs]⟩
  | take hFree hWas hIs hGate =>
    exact .inr (.inl ⟨hFree, congrArg Gate.held hGate, by rw [hIs]; rfl⟩)
  | turn hFree hWas hIs hGate =>
    exact .inr (.inl ⟨hFree, congrArg Gate.held hGate, by rw [hIs]; rfl⟩)
  | enter hQuiet hWas hIs hGate => exact .inl ⟨congrArg Gate.held hGate, by rw [hIs, hWas]; rfl⟩
  | raise hWas hIs hGate =>
    refine .inl ⟨congrArg Gate.held hGate, ?_⟩
    rcases hIs with hIs | ⟨hIs, -⟩ <;> rw [hIs, hWas] <;> rfl
  | complete hAll hWas hIs hGate =>
    exact .inl ⟨congrArg Gate.held hGate, by rw [hIs, hWas]; rfl⟩
  | free hWas hIs hGate =>
    exact .inr (.inr ⟨by rw [hWas]; rfl, by rw [hIs]; rfl, congrArg Gate.held hGate⟩)
  | lift hWas hIs hGate => exact .inl ⟨congrArg Gate.held hGate, by rw [hIs, hWas]; rfl⟩

theorem Passage.stop {machine next : Machine} {t : ThreadId} (passage : machine.Passage next t) :
    next.world.stop = machine.world.stop ∨ next.world.stop = (some t, true) ∨
      next.world.stop = (none, false) := by
  cases passage with
  | raise _ _ hGate => exact .inr (.inl (congrArg Gate.stop hGate))
  | lift _ _ hGate => exact .inr (.inr (congrArg Gate.stop hGate))
  | wander _ _ hGate => exact .inl (congrArg Gate.stop hGate)
  | stay _ hGate => exact .inl (congrArg Gate.stop hGate)
  | take _ _ _ hGate => exact .inl (congrArg Gate.stop hGate)
  | turn _ _ _ hGate => exact .inl (congrArg Gate.stop hGate)
  | enter _ _ _ hGate => exact .inl (congrArg Gate.stop hGate)
  | complete _ _ _ hGate => exact .inl (congrArg Gate.stop hGate)
  | free _ _ hGate => exact .inl (congrArg Gate.stop hGate)

/-- A pause that is complete after an act was so before, or it has just been found complete. -/
theorem Passage.settled {machine next : Machine} {t : ThreadId} (passage : machine.Passage next t)
    (hSettled : (next.standing t).settled = true) :
    (machine.standing t).settled = true ∨ next.world.allParkedExcept t = true := by
  cases passage with
  | wander hWas hIs => cases (Phase.stops_of_idle hIs).symm.trans (Phase.stops_of_settled hSettled)
  | stay hIs => exact .inl (hIs ▸ hSettled)
  | take hFree hWas hIs =>
    rw [hIs] at hSettled
    cases hSettled
  | turn hFree hWas hIs =>
    rw [hIs] at hSettled
    cases hSettled
  | enter hQuiet hWas hIs =>
    rw [hIs] at hSettled
    cases hSettled
  | raise hWas hIs =>
    rcases hIs with hIs | ⟨-, hAll⟩
    · rw [hIs] at hSettled
      cases hSettled
    · exact .inr hAll
  | complete hAll => exact .inr hAll
  | free hWas => exact .inl (hWas ▸ rfl)
  | lift hWas hIs =>
    rw [hIs] at hSettled
    cases hSettled

theorem Manned.passage {machine next : Machine} {t : ThreadId} (manned : machine.Manned)
    (hPassage : machine.Passage next t)
    (hOthers : ∀ u, u ≠ t → next.standing u = machine.standing u) : next.Manned := by
  have hRequested : next.world.stopRequested = next.world.stopper.isSome := by
    have hBefore := manned.requested
    rcases hPassage.stop with hSame | hRaised | hLifted
    · obtain ⟨hStopper, hFlag⟩ := Prod.mk.inj hSame
      rw [hStopper, hFlag, hBefore]
    · obtain ⟨hStopper, hFlag⟩ := Prod.mk.inj hRaised
      rw [hStopper, hFlag]
      rfl
    · obtain ⟨hStopper, hFlag⟩ := Prod.mk.inj hLifted
      rw [hStopper, hFlag]
      rfl
  rcases hPassage.held with ⟨hHeld, hOwns⟩ | ⟨hFree, hHeld, hOwns⟩ | ⟨hOwned, hOwns, hHeld⟩
  · have hSame : ∀ u, (next.standing u).owns = (machine.standing u).owns := by
      intro u
      by_cases hU : u = t
      · rw [hU, hOwns]
      · rw [hOthers u hU]
    refine ⟨?_, ?_, ?_, hRequested⟩
    · exact fun u hU => hHeld.trans (manned.held_of_owns u (hSame u ▸ hU))
    · intro hNext
      obtain ⟨u, hU⟩ := manned.owner_of_held (hHeld ▸ hNext)
      exact ⟨u, (hSame u).trans hU⟩
    · exact fun u v hU hV => manned.unique u v (hSame u ▸ hU) (hSame v ▸ hV)
  · -- Nobody owned the free semaphore, so the thread that took it is alone.
    have hNone : ∀ u, u ≠ t → (next.standing u).owns = false := by
      intro u hU
      rw [hOthers u hU, ← Bool.not_eq_true]
      intro hOwner
      rw [manned.held_of_owns u hOwner] at hFree
      cases hFree
    have hAlone : ∀ u, (next.standing u).owns = true → u = t := by
      intro u hU
      by_contra hOther
      rw [hNone u hOther] at hU
      cases hU
    exact ⟨fun _ _ => hHeld, fun _ => ⟨t, hOwns⟩,
      fun u v hU hV => (hAlone u hU).trans (hAlone v hV).symm, hRequested⟩
  · have hNone : ∀ u, (next.standing u).owns = false := by
      intro u
      by_cases hU : u = t
      · rw [hU, hOwns]
      · rw [hOthers u hU, ← Bool.not_eq_true]
        exact fun hOwner => hU (manned.unique u t hOwner hOwned)
    refine ⟨?_, ?_, ?_, hRequested⟩
    · intro u hU
      rw [hNone u] at hU
      cases hU
    · intro hNext
      rw [hHeld] at hNext
      cases hNext
    · intro u v hU
      rw [hNone u] at hU
      cases hU

/-- Whether an act is no command that reaches past the semaphore. -/
def within (_ : Machine) : Act → Bool
  | .begin _ command => !command.direct
  | _ => true

/-- A thread takes the free semaphore while a stop is still on. -/
def overtakes (machine : Machine) : Act → Bool
  | .move t _ =>
    match (machine.thread t).todo with
    | .take _ :: _ => !machine.held && machine.world.stopper.isSome
    | _ => false
  | _ => false

/-- Only taking the free semaphore leads into a pause at once. -/
theorem take_of_entering {machine : Machine} {t : ThreadId} (woken : ThreadId) {move : Move}
    {rest : List Move} (hTodo : (machine.thread t).todo = move :: rest)
    (hWas : machine.standing t = .calling)
    (hIs : (machine.perform t woken move rest).standing t = .entering) :
    ∃ task, move = .take task ∧ machine.held = false := by
  have hTokens : (machine.thread t).tokens = [] := tokens_eq_nil (by rw [hWas]; decide)
  rw [standing_of_no_tokens hTokens, hTodo] at hWas
  cases move with
  | take task =>
    refine ⟨task, rfl, ?_⟩
    simp only [perform] at hIs
    split at hIs
    · rw [standing_of_no_tokens (by simpa using hTokens)] at hIs
      simp [queueMoves, phaseOf, Move.phase?] at hIs
    next hFree => exact Bool.eq_false_iff.mpr hFree
  | dumpTask size allTasks =>
    cases allTasks with
    | true =>
      rw [standing_of_no_tokens (by simpa [perform] using hTokens)] at hIs
      simp [perform, phaseOf, Move.phase?] at hIs
    | false => cases hWas
  | _ =>
    first
      | (cases hWas; done)
      | rw [standing_of_no_tokens (by simpa [perform] using hTokens)] at hIs
        simp_all [perform, acquireMoves, phaseOf, Move.phase?]

/-- What holds in every run without such commands. -/
structure Regular (machine : Machine) : Prop where
  sound : ∀ t, (machine.thread t).Sound t
  manned : machine.Manned
  sleeping : ∀ t ∈ machine.sleepers, ∃ move rest,
    (machine.thread t).todo = move :: rest ∧ move.waits = true

theorem regular_start : start.Regular where
  sound := by
    intro t
    refine ⟨trivial, ?_, ?_, ?_⟩
    · intro task rest hTokens
      cases hTokens
    · intro registration hMem
      cases hMem
    · intro registration hMem
      cases hMem
  manned := by
    refine ⟨?_, ?_, ?_, rfl⟩
    · intro t hOwns
      cases hOwns
    · intro hHeld
      cases hHeld
    · intro t u hOwns
      cases hOwns
  sleeping := by
    intro t hMem
    cases hMem

/-- What an act does: it concerns one thread, which goes at most one step round. -/
structure Follows (machine next : Machine) (t : ThreadId) : Prop where
  others : ∀ u, u ≠ t → next.thread u = machine.thread u
  passage : machine.Passage next t
  sound : (next.thread t).Sound t
  sleeping : ∀ u ∈ next.sleepers, ∃ move rest,
    (next.thread u).todo = move :: rest ∧ move.waits = true

namespace Regular

variable {machine next : Machine} (regular : machine.Regular)
include regular

theorem follows_begin {t : ThreadId} {command : Command} (hDirect : command.direct = false)
    (hTodo : (machine.thread t).todo = []) :
    machine.Follows (machine.setThread t (command.begin (machine.thread t))) t where
  others := fun u hU => machine.setThread_of_ne t _ hU
  passage := passage_begin hDirect hTodo (regular.sound t)
  sound := by
    rw [setThread_self]
    exact (regular.sound t).begin hDirect
  sleeping := by
    intro u hMem
    obtain ⟨move, rest, hHead, hWaits⟩ := regular.sleeping u hMem
    have hU : u ≠ t := by
      rintro rfl
      rw [hTodo] at hHead
      cases hHead
    exact ⟨move, rest, by rw [machine.setThread_of_ne t _ hU, hHead], hWaits⟩

theorem follows_perform {t : ThreadId} (woken : ThreadId) {move : Move} {rest : List Move}
    (hTodo : (machine.thread t).todo = move :: rest) (hAwake : t ∉ machine.sleepers) :
    machine.Follows (machine.perform t woken move rest) t where
  others := fun u hU => machine.perform_of_ne t woken move rest hU
  passage := passage_perform woken hTodo (regular.sound t) (regular.manned.held_of_owns t)
  sound := sound_perform woken hTodo (regular.sound t) (regular.manned.held_of_owns t)
  sleeping := by
    intro u hMem
    rcases machine.mem_sleepers_perform t woken hTodo hMem with hOld | ⟨rfl, first, more, hNew⟩
    · have hU : u ≠ t := fun hSame => hAwake (hSame ▸ hOld)
      obtain ⟨first, more, hHead, hWaits⟩ := regular.sleeping u hOld
      exact ⟨first, more, by rw [machine.perform_of_ne t woken move rest hU, hHead], hWaits⟩
    · exact ⟨first, more, hNew⟩

/-- An act of any kind; a thread that enters at once finds no stop on, or overtakes. -/
theorem follows {act : Act} (hWithin : machine.within act = true)
    (hAct : machine.act? act = some next) :
    machine.Follows next act.thread ∧ (machine.overtakes act = false →
      machine.standing act.thread = .calling → next.standing act.thread = .entering →
        machine.world.stopper = none) := by
  cases act with
  | begin t command =>
    obtain ⟨hTodo, rfl⟩ := act?_begin hAct
    refine ⟨regular.follows_begin (by simpa [within] using hWithin) hTodo, ?_⟩
    intro _ hCalling _
    have hCalling : machine.standing t = .calling := hCalling
    rw [standing_of_no_tokens (tokens_eq_nil (by rw [hCalling]; decide)), hTodo] at hCalling
    cases hCalling
  | move t woken =>
    obtain ⟨move, rest, hTodo, hAwake, rfl⟩ := act?_move hAct
    refine ⟨regular.follows_perform woken hTodo hAwake, ?_⟩
    intro hPatient hCalling hEntering
    obtain ⟨task, rfl, hFree⟩ := take_of_entering woken hTodo hCalling hEntering
    simpa [overtakes, hTodo, hFree] using hPatient
  | rouse t =>
    cases hAct
    refine ⟨⟨fun _ _ => rfl, .stay rfl rfl, regular.sound t, fun u hMem => ?_⟩, ?_⟩
    · apply regular.sleeping u
      rcases List.mem_append.mp hMem with hQueue | hAsleep
      · exact List.mem_append_left _ (List.mem_of_mem_erase hQueue)
      · exact List.mem_append_right _ (List.mem_of_mem_erase hAsleep)
    · intro _ hCalling hEntering
      cases hCalling.symm.trans hEntering

theorem after {t : ThreadId} (follows : machine.Follows next t) : next.Regular where
  sound := by
    intro u
    by_cases hU : u = t
    · exact hU ▸ follows.sound
    · rw [follows.others u hU]
      exact regular.sound u
  manned := by
    refine regular.manned.passage follows.passage fun u hU => ?_
    rw [standing, follows.others u hU, standing]
  sleeping := follows.sleeping

end Regular

/-! ## Whose stop it is -/

/-- A stop that is on belongs to a thread that stopped the world and has not restarted it. -/
structure Owned (machine : Machine) : Prop where
  stopper_of_stops : ∀ t, (machine.standing t).stops = true → machine.world.stopper = some t
  stops_of_stopper : ∀ t, machine.world.stopper = some t → (machine.standing t).stops = true
  none_of_entering : ∀ t, machine.standing t = .entering → machine.world.stopper = none

/-- The stop that is on is a thread's, and shows. -/
def StoppedBy (machine : Machine) (t : ThreadId) : Prop :=
  machine.world.stopper = some t ∧ machine.world.stopRequested = true

theorem owned_start : start.Owned where
  stopper_of_stops := fun t hStops => by cases hStops
  stops_of_stopper := fun t hStopper => by cases hStopper
  none_of_entering := fun t hEntering => by cases hEntering

theorem Owned.stoppedBy {machine : Machine} (owned : machine.Owned) (regular : machine.Regular)
    {t : ThreadId} (hStops : (machine.standing t).stops = true) : machine.StoppedBy t := by
  have hStopper := owned.stopper_of_stops t hStops
  exact ⟨hStopper, by rw [regular.manned.requested, hStopper]; rfl⟩

/-- An act that leaves the stop alone, made by a thread that enters only while no stop is on. -/
theorem Owned.keep {machine next : Machine} {t : ThreadId} (owned : machine.Owned)
    (hOthers : ∀ u, u ≠ t → next.standing u = machine.standing u)
    (hStopper : next.world.stopper = machine.world.stopper)
    (hStops : (next.standing t).stops = (machine.standing t).stops)
    (hEnters : next.standing t = .entering → machine.world.stopper = none) : next.Owned := by
  have hSame : ∀ u, (next.standing u).stops = (machine.standing u).stops := by
    intro u
    by_cases hU : u = t
    · rw [hU, hStops]
    · rw [hOthers u hU]
  refine ⟨fun u hU => ?_, fun u hU => ?_, fun u hU => ?_⟩
  · rw [hStopper]
    exact owned.stopper_of_stops u (hSame u ▸ hU)
  · rw [hSame]
    exact owned.stops_of_stopper u (hStopper ▸ hU)
  · rw [hStopper]
    by_cases hSelf : u = t
    · exact hEnters (hSelf ▸ hU)
    · exact owned.none_of_entering u (hOthers u hSelf ▸ hU)

/-- The stop changes hands only in turn, unless somebody overtakes its owner. -/
theorem Owned.passage {machine next : Machine} {t : ThreadId} (owned : machine.Owned)
    (manned : machine.Manned) (passage : machine.Passage next t)
    (hOthers : ∀ u, u ≠ t → next.standing u = machine.standing u)
    (hPatient : machine.standing t = .calling → next.standing t = .entering →
      machine.world.stopper = none) : next.Owned := by
  have hStopper : ∀ {gate : Gate}, next.gate = gate → next.world.stopper = gate.stop.1 :=
    fun hGate => congrArg (·.stop.1) hGate
  cases passage with
  | wander hWas hIs hGate =>
    refine owned.keep hOthers (hStopper hGate)
      ((Phase.stops_of_idle hIs).trans (Phase.stops_of_idle hWas).symm) fun hEntering => ?_
    rw [hEntering] at hIs
    cases hIs
  | stay hIs hGate =>
    exact owned.keep hOthers (hStopper hGate) (by rw [hIs])
      fun hEntering => owned.none_of_entering t (hIs ▸ hEntering)
  | take hFree hWas hIs hGate =>
    exact owned.keep hOthers (hStopper hGate) (by rw [hIs, hWas]; rfl) fun _ => hPatient hWas hIs
  | turn hFree hWas hIs hGate =>
    exact owned.keep hOthers (hStopper hGate) (by rw [hIs, hWas]; rfl) fun hEntering => by
      rw [hIs] at hEntering
      cases hEntering
  | enter hQuiet hWas hIs hGate =>
    refine owned.keep hOthers (hStopper hGate) (by rw [hIs, hWas]; rfl) fun _ => ?_
    -- A stop would be the thread's own, but it has not stopped the world.
    rw [Option.eq_none_iff_forall_ne_some]
    intro u hU
    have hSelf : u = t := by simpa [SafepointWorld.stoppedByOther, hU] using hQuiet
    have hStops := owned.stops_of_stopper u hU
    rw [hSelf, hWas] at hStops
    cases hStops
  | raise hWas hIs hGate =>
    have hNone := owned.none_of_entering t hWas
    have hStops : (next.standing t).stops = true ∧ next.standing t ≠ .entering := by
      rcases hIs with hIs | ⟨hIs, -⟩ <;> rw [hIs] <;> decide
    refine ⟨fun u hU => ?_, fun u hU => ?_, fun u hU => ?_⟩
    · by_cases hSelf : u = t
      · rw [hSelf]
        exact hStopper hGate
      · rw [hOthers u hSelf] at hU
        cases hNone.symm.trans (owned.stopper_of_stops u hU)
    · rw [hStopper hGate] at hU
      cases hU
      exact hStops.1
    · have hSelf : u ≠ t := fun hSame => hStops.2 (hSame ▸ hU)
      rw [hOthers u hSelf] at hU
      exact absurd (manned.unique u t (by rw [hU]; rfl) (by rw [hWas]; rfl)) hSelf
  | complete hAll hWas hIs hGate =>
    exact owned.keep hOthers (hStopper hGate) (by rw [hIs, hWas]; rfl) fun hEntering => by
      rw [hIs] at hEntering
      cases hEntering
  | free hWas hIs hGate =>
    exact owned.keep hOthers (hStopper hGate) (by rw [hIs, hWas]; rfl) fun hEntering => by
      rw [hIs] at hEntering
      cases hEntering
  | lift hWas hIs hGate =>
    have hOwn := owned.stopper_of_stops t (by rw [hWas]; rfl)
    refine ⟨fun u hU => ?_, fun u hU => ?_, fun u _ => hStopper hGate⟩
    · have hSelf : u ≠ t := by
        rintro rfl
        rw [hIs] at hU
        cases hU
      rw [hOthers u hSelf] at hU
      cases hOwn.symm.trans (owned.stopper_of_stops u hU)
      exact absurd rfl hSelf
    · rw [hStopper hGate] at hU
      cases hU

end Machine

end SiteProfiler
