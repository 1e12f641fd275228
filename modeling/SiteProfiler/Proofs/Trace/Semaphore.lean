import SiteProfiler.Proofs.Trace.Bracketing

/-!
# What dumps leave of the semaphore

A dump that has its pause frees the semaphore in dropping it, whichever way it leaves.  A call that
fails before there is a pause to drop, or as the first one in dropping it, keeps the semaphore, and
then every later pause waits for it.
-/

namespace SiteProfiler

variable {σ : Type}

/-- Whether a call comes back to its caller, by returning or by unwinding. -/
def Ending.comesBack {α : Type} : Ending α → Bool
  | returned _ | unwound => true
  | aborted | waiting => false

/-- A dump to be made. -/
structure DumpRequest (σ : Type) where
  dumper : Dumper σ
  storage : List UInt8
  allTasks : Bool

/-- How a dump ends that finds the world and the semaphore as given. -/
def DumpRequest.run (request : DumpRequest σ) (state : σ) (held : Bool) :
    Ending Nat × Scene σ :=
  request.dumper.dump request.storage request.allTasks state held

/-- Dumps made one after the other with one semaphore, until one does not come back. -/
def runDumps : List (DumpRequest σ) → σ → Bool → List (Ending Nat × Scene σ)
  | [], _, _ => []
  | request :: rest, state, held =>
    let ended := request.run state held
    if ended.1.comesBack then ended :: runDumps rest ended.2.world ended.2.held else [ended]

/-- Whether a dump has unwound from a call that keeps the semaphore, which is then the last thing
observed of it. -/
def stranded : Ending Nat × Scene σ → Bool
  | (.unwound, scene) =>
    match scene.observed.getLast? with
    | some (.call which _) => which.keepsSemaphore
    | _ => false
  | _ => false

theorem unwound_of_stranded {ended : Ending Nat × Scene σ} (hStranded : stranded ended = true) :
    ended.1 = .unwound := by
  obtain ⟨_ | _ | _ | _, scene⟩ := ended
  case unwound => rfl
  all_goals cases hStranded

/-- What a dump makes of a semaphore that was held or not: stranded, it keeps it; otherwise it waits
for it only if it was held, and comes back leaving it held only if it was held. -/
inductive Aftermath (held : Bool) (ended : Ending Nat × Scene σ) : Prop where
  | keeps (hStranded : stranded ended = true) (hHeld : ended.2.held = true)
  | leaves (hNot : stranded ended = false) (hWaits : ended.1 = .waiting → held = true)
    (hHeld : ended.1.comesBack = true → ended.2.held = true → held = true)

namespace Dumper

variable (dumper : Dumper σ)

open Stage World

theorem dump_aftermath (storage : List UInt8) (allTasks : Bool) (state : σ) (held : Bool) :
    Aftermath held (dumper.dump storage allTasks state held) := by
  by_cases hStorage : storage = []
  · subst hStorage
    exact .leaves rfl (by simp [dump]) (fun _ hHeld => hHeld)
  rw [dumper.dump_of_ne_nil hStorage]
  cases allTasks with
  | false =>
    obtain ⟨outcome, _, _, hDump⟩ := dumper.dumpInto_false ⟨state, held, .ofStorage storage, []⟩
    rw [hDump]
    cases outcome with
    | returned _ => exact .leaves rfl (by simp [ofOutcome]) (fun _ hHeld => hHeld)
    | unwound => exact .leaves rfl (by simp [ofOutcome]) (fun _ hHeld => hHeld)
  | true =>
    rcases dumper.enter_cases ⟨state, held, .ofStorage storage, []⟩ with
      ⟨current, before, stopped, _, _, hEnter⟩ | ⟨_, events, which, _, hKeeps, hEnter⟩ |
      ⟨_, events, which, _, hKeeps, hEnter⟩ | ⟨hHeld, _, events, _, hEnter⟩
    · obtain ⟨during, exit, dropped, ended, left, out, events, hDump, course, dropping, -⟩ :=
        dumper.dumpInto_of_enter hEnter
      rw [hDump]
      cases dropping with
      | kept =>
        cases exit with
        | finished | moved =>
          refine .keeps ?_ rfl
          simp [stranded, Exit.ending, Scene.next, WorldCall.keepsSemaphore]
        | failed =>
          exact .leaves rfl (by simp [Exit.ending]) (by simp [Exit.ending, Ending.comesBack])
      | freed =>
        refine .leaves ?_ (by cases exit <;> simp [Exit.ending]) (by simp [Scene.next])
        cases exit <;> simp [stranded, Exit.ending, Scene.next, WorldCall.keepsSemaphore]
      | resumed =>
        refine .leaves ?_ (by cases exit <;> simp [Exit.ending]) (by simp [Scene.next])
        cases exit <;> simp [stranded, Exit.ending, Scene.next]
    · rw [dumpInto_true, bind_apply, hEnter]
      refine .leaves ?_ (by simp) (fun _ hHeld => hHeld)
      simp [stranded, Scene.next, hKeeps]
    · rw [dumpInto_true, bind_apply, hEnter]
      refine .keeps ?_ rfl
      simp [stranded, Scene.next, hKeeps]
    · rw [dumpInto_true, bind_apply, hEnter]
      exact .leaves rfl (fun _ => hHeld) (by simp [Ending.comesBack])

end Dumper

section

variable (request : DumpRequest σ) (rest : List (DumpRequest σ)) (state : σ) (held : Bool)

theorem DumpRequest.aftermath : Aftermath held (request.run state held) :=
  request.dumper.dump_aftermath request.storage request.allTasks state held

theorem DumpRequest.free_of_not_stranded (hNot : stranded (request.run state false) = false) :
    (request.run state false).1 ≠ .waiting ∧
      ((request.run state false).1.comesBack = true →
        (request.run state false).2.held = false) := by
  cases request.aftermath state false with
  | keeps hStranded _ => exact absurd hStranded (by simp [hNot])
  | leaves _ hWaits hHeld =>
    refine ⟨fun hWaiting => Bool.noConfusion (hWaits hWaiting), fun hBack => ?_⟩
    cases hFree : (request.run state false).2.held with
    | false => rfl
    | true => exact (hHeld hBack hFree).symm

theorem mem_runDumps_cons (ended : Ending Nat × Scene σ) :
    ended ∈ runDumps (request :: rest) state held ↔
      ended = request.run state held ∨ (request.run state held).1.comesBack = true ∧
        ended ∈ runDumps rest (request.run state held).2.world (request.run state held).2.held := by
  rw [runDumps]
  by_cases hBack : (request.run state held).1.comesBack = true <;> simp [hBack]

theorem held_of_stranded {requests : List (DumpRequest σ)} {ended : Ending Nat × Scene σ}
    (hEnded : ended ∈ runDumps requests state held) (hStranded : stranded ended = true) :
    ended.2.held = true := by
  induction requests generalizing state held with
  | nil => cases hEnded
  | cons request rest ih =>
    rcases (mem_runDumps_cons request rest state held ended).mp hEnded with rfl | ⟨-, hRest⟩
    · cases request.aftermath state held with
      | keeps _ hHeld => exact hHeld
      | leaves hNot _ _ => exact absurd hStranded (by simp [hNot])
    · exact ih _ _ hRest

theorem free_of_not_stranded {requests : List (DumpRequest σ)}
    (hNone : ∀ ended ∈ runDumps requests state false, stranded ended = false)
    {ended : Ending Nat × Scene σ} (hEnded : ended ∈ runDumps requests state false) :
    ended.1 ≠ .waiting ∧ (ended.1.comesBack = true → ended.2.held = false) := by
  induction requests generalizing state with
  | nil => cases hEnded
  | cons request rest ih =>
    have hFirst := request.free_of_not_stranded state
      (hNone _ ((mem_runDumps_cons request rest state false _).mpr (.inl rfl)))
    rcases (mem_runDumps_cons request rest state false ended).mp hEnded with rfl | ⟨hBack, hRest⟩
    · exact hFirst
    · rw [hFirst.2 hBack] at hRest
      refine ih _ (fun other hOther => hNone other ?_) hRest
      rw [mem_runDumps_cons, hFirst.2 hBack]
      exact .inr ⟨hBack, hOther⟩

end

/-- From a free semaphore, every dump that comes back leaves it free, and none waits for it, exactly
if none unwinds from a call that keeps it.  So the semaphore is freed whichever way a dump comes
back if what fails is naming the caller's task or worker, visiting the tasks, writing a trace or
starting the world. -/
theorem runDumps_free_iff (requests : List (DumpRequest σ)) (state : σ) :
    (∀ ended ∈ runDumps requests state false,
      (ended.1.comesBack = true → ended.2.held = false) ∧ ended.1 ≠ .waiting) ↔
    ∀ ended ∈ runDumps requests state false, stranded ended = false := by
  constructor
  · intro hFree ended hEnded
    cases hStranded : stranded ended with
    | false => rfl
    | true =>
      have hHeld := held_of_stranded state false hEnded hStranded
      have hBack : ended.1.comesBack = true := by
        rw [unwound_of_stranded hStranded]
        rfl
      rw [(hFree ended hEnded).1 hBack] at hHeld
      cases hHeld
  · intro hNone ended hEnded
    exact (free_of_not_stranded state hNone hEnded).symm

/-- A dump of all tasks in a scripted world. -/
def scriptedDump (fails : WorldCall → Bool) : DumpRequest Nat where
  dumper := ⟨Script.world ⟨⟨1, .running⟩, [], [], fails⟩, .raw, ⟨maxFrames, 0⟩, []⟩
  storage := [0]
  allTasks := true

/-- A world that fails to stop leaves the semaphore held by no one, and the next dump waits for it,
though nothing fails there. -/
theorem failed_stop_keeps_semaphore :
    (runDumps [scriptedDump (· = .stop), scriptedDump fun _ => false] 0 false).map
      (fun ended => (ended.1, ended.2.held)) = [(.unwound, true), (.waiting, true)] := by
  decide

end SiteProfiler
