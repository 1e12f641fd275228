import SiteProfiler.Proofs.Pause.Slots
import SiteProfiler.Proofs.Pause.Standing

/-!
# Handing the semaphore over

Threads pass the semaphore and the stop between them in a fixed round.  `Passage` lists what one
act can do to them.
-/

namespace SiteProfiler

/-- What threads meet each other at: the semaphore and the stop. -/
structure Gate where
  held : Bool
  stop : Option ThreadId × Bool
deriving DecidableEq

namespace Machine

def gate (machine : Machine) : Gate := ⟨machine.held, machine.world.stop⟩

def standing (machine : Machine) (t : ThreadId) : Phase := (machine.thread t).standing

section Gate

variable (machine : Machine) (t : ThreadId)

@[simp] theorem gate_mk (world : SafepointWorld) (held : Bool) (queue asleep : List ThreadId)
    (thread : ThreadId → Thread) (aborted : Bool) :
    gate ⟨world, held, queue, asleep, thread, aborted⟩ = ⟨held, world.stop⟩ := rfl

@[simp] theorem gate_setThread (thread : Thread) :
    (machine.setThread t thread).gate = machine.gate := rfl

@[simp] theorem gate_continueWith (todo : List Move) :
    (machine.continueWith t todo).gate = machine.gate := rfl

@[simp] theorem gate_change (world : SafepointWorld) (rest : List Move) :
    (machine.change t world rest).gate = ⟨machine.held, world.stop⟩ := rfl

@[simp] theorem gate_sleep (move : Move) (rest : List Move) :
    (machine.sleep t move rest).gate = machine.gate := rfl

@[simp] theorem gate_returnWith (answer : Answer) (rest : List Move) :
    (machine.returnWith t answer rest).gate = machine.gate := rfl

end Gate

/-- What an act of a thread does to where it stands and to the gate. -/
inductive Passage (machine next : Machine) (t : ThreadId) : Prop where
  | wander (hWas : (machine.standing t).idle = true) (hIs : (next.standing t).idle = true)
      (hGate : next.gate = machine.gate)
  | stay (hIs : next.standing t = machine.standing t) (hGate : next.gate = machine.gate)
  | take (hFree : machine.held = false) (hWas : machine.standing t = .calling)
      (hIs : next.standing t = .entering) (hGate : next.gate = { machine.gate with held := true })
  | turn (hFree : machine.held = false) (hWas : machine.standing t = .waiting)
      (hIs : next.standing t = .turned) (hGate : next.gate = { machine.gate with held := true })
  | enter (hQuiet : machine.world.stoppedByOther t = false) (hWas : machine.standing t = .turned)
      (hIs : next.standing t = .entering) (hGate : next.gate = machine.gate)
  | raise (hWas : machine.standing t = .entering)
      (hIs : next.standing t = .stopping ∨
        next.standing t = .paused ∧ next.world.allParkedExcept t = true)
      (hGate : next.gate = { machine.gate with stop := (some t, true) })
  | complete (hAll : next.world.allParkedExcept t = true) (hWas : machine.standing t = .stopping)
      (hIs : next.standing t = .paused) (hGate : next.gate = machine.gate)
  | free (hWas : machine.standing t = .paused) (hIs : next.standing t = .restarting)
      (hGate : next.gate = { machine.gate with held := false })
  | lift (hWas : machine.standing t = .restarting) (hIs : next.standing t = .outside)
      (hGate : next.gate = { machine.gate with stop := (none, false) })

/-- A thread without the semaphore that someone else holds stays without it. -/
theorem idle_perform {machine : Machine} {t : ThreadId} (woken : ThreadId) {move : Move}
    {rest : List Move} (hTodo : (machine.thread t).todo = move :: rest)
    (hLeads : move.LeadsTo rest) (hIdle : (machine.thread t).phase.idle = true)
    (hHeld : machine.held = true) :
    ((machine.perform t woken move rest).thread t).phase.idle = true ∧
      ((machine.perform t woken move rest).thread t).tokens = (machine.thread t).tokens ∧
      (machine.perform t woken move rest).gate = machine.gate := by
  rw [Thread.phase, hTodo] at hIdle
  have hGate : machine.gate = ⟨true, machine.world.stop⟩ := by rw [gate, hHeld]
  cases move with
  | take task =>
    simp [perform, hHeld, hGate, Thread.phase, queueMoves, phaseOf, Move.phase?, Phase.idle]
  | awaitTurn => simp [perform, hHeld, hGate, Thread.phase, hTodo, phaseOf, Move.phase?, Phase.idle]
  | block task => simp [perform, hHeld, hGate, Thread.phase, hLeads.1, Phase.idle]
  | park stack =>
    have hRest : phaseOf rest = .outside := hLeads
    simp only [perform]
    split
    · simp [Thread.phase, hRest, Phase.idle, hGate]
    next parked hPark =>
      obtain ⟨slot, -, rfl⟩ := SafepointWorld.park?_eq_some hPark
      split <;> simp [Thread.phase, phaseOf, Move.phase?, hRest, Phase.idle, hGate, hHeld]
  | poll stack =>
    have hRest : phaseOf rest = .outside := hLeads
    simp only [perform]
    split <;> simp [Thread.phase, phaseOf, Move.phase?, hRest, Phase.idle, hGate]
  | leave =>
    have hRest : phaseOf rest = .outside := hLeads
    simp only [perform]
    split <;> simp [Thread.phase, phaseOf, Move.phase?, hRest, Phase.idle, hGate, hHeld]
  | dumpTask size allTasks =>
    have hRest : phaseOf rest = .outside := hLeads
    simp only [perform]
    split <;> simp [Thread.phase, phaseOf, Move.phase?, hRest, Phase.idle, hGate]
  | _ =>
    first
      | exact absurd hIdle (by decide)
      | simp_all [perform, acquireMoves, Thread.phase, phaseOf, Move.phase?, Phase.idle,
          Move.LeadsTo]

theorem standing_of_tokens {machine : Machine} {t : ThreadId} {task : TaskId}
    {rest : List TaskId} (hTokens : (machine.thread t).tokens = task :: rest) :
    machine.standing t = .paused := by
  simp [standing, Thread.standing, hTokens]

theorem standing_of_no_tokens {machine : Machine} {t : ThreadId}
    (hTokens : (machine.thread t).tokens = []) :
    machine.standing t = phaseOf (machine.thread t).todo := by
  simp [standing, Thread.standing, Thread.phase, hTokens]

theorem tokens_eq_nil {machine : Machine} {t : ThreadId} (hPhase : machine.standing t ≠ .paused) :
    (machine.thread t).tokens = [] := by
  cases hTokens : (machine.thread t).tokens with
  | nil => rfl
  | cons task rest => exact absurd (standing_of_tokens hTokens) hPhase

/-- A move of a thread without tokens goes one step round. -/
theorem passage_of_no_tokens {machine : Machine} {t : ThreadId} (woken : ThreadId) {move : Move}
    {rest : List Move} (hTodo : (machine.thread t).todo = move :: rest)
    (hLeads : move.LeadsTo rest) (hTokens : (machine.thread t).tokens = []) :
    machine.Passage (machine.perform t woken move rest) t := by
  have hWas : machine.standing t = phaseOf (move :: rest) := by
    rw [standing_of_no_tokens hTokens, hTodo]
  have hGate : machine.gate = ⟨machine.held, machine.world.stop⟩ := rfl
  have hIs : ∀ {next : Machine} {todo : List Move}, (next.thread t).tokens = [] →
      (next.thread t).todo = todo → next.standing t = phaseOf todo := by
    rintro next todo hNone rfl
    exact standing_of_no_tokens hNone
  cases move with
  | take task =>
    simp only [perform]
    split
    · exact .wander (hWas ▸ rfl) (by rw [hIs (by simpa using hTokens) (by simp; rfl)]; rfl) rfl
    next hFree =>
      exact .take (Bool.eq_false_iff.mpr hFree) hWas
        ((hIs (by simpa using hTokens) (by simp)).trans hLeads) rfl
  | awaitTurn =>
    simp only [perform]
    split
    · exact .stay rfl rfl
    next hFree =>
      exact .turn (Bool.eq_false_iff.mpr hFree) hWas
        ((hIs (by simpa using hTokens) (by simp)).trans hLeads) rfl
  | block task =>
    refine .wander (hWas ▸ rfl) ?_ ?_
    · rw [hIs (by simpa [perform] using hTokens) (by simp [perform]; rfl), hLeads.1]
      rfl
    · simp [perform, hGate]
  | unblock task =>
    simp only [perform]
    split
    · refine .stay ?_ rfl
      rw [hIs (by simpa using hTokens) (by simp; rfl), hWas]
    next hQuiet =>
      refine .enter (Bool.eq_false_iff.mpr hQuiet) hWas
        ((hIs (by simpa using hTokens) (by simp)).trans hLeads) ?_
      simp [hGate]
  | raise =>
    simp only [perform]
    split
    next hAll =>
      exact .raise hWas (.inr ⟨(hIs (by simpa using hTokens) (by simp)).trans hLeads, hAll⟩) rfl
    next =>
      refine .raise hWas (.inl ?_) rfl
      rw [hIs (by simpa using hTokens) (by simp; rfl)]
      rfl
  | drain =>
    simp only [perform]
    split
    next hAll =>
      exact .complete hAll hWas ((hIs (by simpa using hTokens) (by simp)).trans hLeads) rfl
    next =>
      refine .stay ?_ rfl
      rw [hIs (by simpa using hTokens) (by simp; rfl), hWas]
  | free =>
    exact .free hWas ((hIs (by simpa [perform] using hTokens) (by simp [perform])).trans hLeads) rfl
  | lift =>
    exact .lift hWas ((hIs (by simpa [perform] using hTokens) (by simp [perform])).trans hLeads) rfl
  | keepToken task =>
    refine .stay ?_ rfl
    have hKept : ((machine.perform t woken (.keepToken task) rest).thread t).tokens = [task] := by
      simp [perform, hTokens]
    rw [hWas, standing_of_tokens hKept]
    rfl
  | poll stack =>
    have hRest : phaseOf rest = .outside := hLeads
    simp only [perform]
    split
    · exact .stay (by rw [hWas, hIs (by simpa using hTokens) (by simp; rfl)]; rfl) rfl
    · exact .stay (by rw [hWas, hIs (by simpa using hTokens) (by simp; rfl), hRest]; rfl) rfl
  | park stack =>
    have hRest : phaseOf rest = .outside := hLeads
    simp only [perform]
    split
    · exact .stay (by rw [hWas, hIs (by simpa using hTokens) (by simp; rfl), hRest]; rfl) rfl
    next parked hPark =>
      obtain ⟨slot, -, rfl⟩ := SafepointWorld.park?_eq_some hPark
      split
      · refine .stay ?_ (by simp [hGate])
        rw [hWas, hIs (by simpa using hTokens) (by simp; rfl)]
        rfl
      · refine .stay ?_ (by simp [hGate])
        rw [hWas, hIs (by simpa using hTokens) (by simp; rfl), hRest]
        rfl
  | leave =>
    have hRest : phaseOf rest = .outside := hLeads
    simp only [perform]
    split
    · exact .stay (by rw [hWas, hIs (by simpa using hTokens) (by simp; rfl)]) rfl
    · refine .stay ?_ (by simp [hGate])
      rw [hWas, hIs (by simpa using hTokens) (by simp; rfl), hRest]
      rfl
  | dumpTask size allTasks =>
    have hRest : phaseOf rest = .outside := hLeads
    cases allTasks with
    | true =>
      refine .stay ?_ rfl
      rw [hWas, hIs (by simpa [perform] using hTokens) (by simp [perform]; rfl)]
      rfl
    | false =>
      refine .stay ?_ rfl
      rw [hWas, hIs (by simpa [perform] using hTokens) (by simp [perform]; rfl), hRest]
      rfl
  | dumpCheck current before size =>
    simp only [perform]
    split
    · exact .stay (by rw [hWas, hIs (by simpa using hTokens) (by simp; rfl)]; rfl) rfl
    · exact .stay (by rw [hWas, hIs (by simpa using hTokens) (by simp; rfl)]; rfl) rfl
  | _ =>
    refine .stay ?_ (by simp [perform, hGate])
    rw [hWas, hIs (by simpa [perform] using hTokens) (by simp [perform]; rfl)]
    simp_all [phaseOf, Move.phase?, Move.LeadsTo, acquireMoves, releaseMoves]

theorem passage_perform {machine : Machine} {t : ThreadId} (woken : ThreadId) {move : Move}
    {rest : List Move} (hTodo : (machine.thread t).todo = move :: rest)
    (sound : (machine.thread t).Sound t)
    (hHeld : (machine.standing t).owns = true → machine.held = true) :
    machine.Passage (machine.perform t woken move rest) t := by
  have hLeads := sound.leads hTodo
  cases hTokens : (machine.thread t).tokens with
  | nil => exact passage_of_no_tokens woken hTodo hLeads hTokens
  | cons task others =>
    have hPaused := standing_of_tokens hTokens
    obtain ⟨-, hSame, hGate⟩ := idle_perform woken hTodo hLeads
      (sound.single task others hTokens).2 (hHeld (hPaused ▸ rfl))
    exact .stay ((standing_of_tokens (hSame.trans hTokens)).trans hPaused.symm) hGate

theorem sound_perform {machine : Machine} {t : ThreadId} (woken : ThreadId) {move : Move}
    {rest : List Move} (hTodo : (machine.thread t).todo = move :: rest)
    (sound : (machine.thread t).Sound t)
    (hHeld : (machine.standing t).owns = true → machine.held = true) :
    ((machine.perform t woken move rest).thread t).Sound t := by
  have hLeads := sound.leads hTodo
  refine ⟨ordered_perform woken hTodo sound.ordered, ?_, ?_, ?_⟩
  · intro task others hTokens
    cases hBefore : (machine.thread t).tokens with
    | nil =>
      rcases machine.tokens_perform t woken move rest with hSame | ⟨kept, rfl, hRest, hKept⟩
      · rw [hSame, hBefore] at hTokens
        cases hTokens
      · rw [hKept, hBefore] at hTokens
        refine ⟨(List.cons.inj hTokens).2.symm, ?_⟩
        have hOutside : phaseOf rest = .outside := hLeads
        rw [Thread.phase, hRest, hOutside]
        rfl
    | cons first more =>
      have hPaused := standing_of_tokens hBefore
      obtain ⟨hIdle, hSame, -⟩ := idle_perform woken hTodo hLeads
        (sound.single first more hBefore).2 (hHeld (hPaused ▸ rfl))
      exact ⟨(sound.single task others (hSame ▸ hTokens)).1, hIdle⟩
  · intro registration hMem
    rcases machine.registrations_perform t woken move rest hMem with hOld | hNew
    · exact sound.own registration hOld
    · exact hNew ▸ machine.world.thread_register t
  · exact fun registration hMem =>
      sound.ownMoves registration (mem_todo_perform woken hTodo hMem)

/-- Beginning a command changes nothing but what the thread is up to. -/
theorem passage_begin {machine : Machine} {t : ThreadId} {command : Command}
    (hDirect : command.direct = false) (hTodo : (machine.thread t).todo = [])
    (sound : (machine.thread t).Sound t) :
    machine.Passage (machine.setThread t (command.begin (machine.thread t))) t := by
  cases hTokens : (machine.thread t).tokens with
  | nil =>
    have hIdle := sound.idle_begin hTokens hDirect
    refine .wander ?_ ?_ rfl
    · rw [standing_of_no_tokens hTokens, hTodo]
      rfl
    · simpa [standing, Thread.standing, hIdle.1] using hIdle.2
  | cons task rest =>
    have hPaused := standing_of_tokens hTokens
    refine .stay ?_ rfl
    rw [hPaused, standing, setThread_self]
    exact sound.standing_begin hTokens hDirect

end Machine

end SiteProfiler
