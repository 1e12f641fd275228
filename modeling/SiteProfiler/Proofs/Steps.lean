import Mathlib.Data.List.Induction

/-!
# Runs of steps that may be impossible

A run is a fold of steps into the state that the last of them reaches, or nothing if one of them
is not possible.
-/

namespace SiteProfiler

variable {State Act : Type} {step : State → Act → Option State} {first next : State} {act : Act}

theorem steps_cons (hStep : step first act = some next) (acts : List Act) :
    (act :: acts).foldlM step first = acts.foldlM step next := by
  rw [List.foldlM_cons, hStep]
  rfl

theorem steps_append (step : State → Act → Option State) (first : State) (acts more : List Act) :
    (acts ++ more).foldlM step first = (acts.foldlM step first).bind (more.foldlM step) :=
  List.foldlM_append

theorem steps_concat (step : State → Act → Option State) (first : State) (acts : List Act)
    (act : Act) :
    (acts ++ [act]).foldlM step first = (acts.foldlM step first).bind (step · act) := by
  rw [steps_append]
  simp only [List.foldlM_cons, List.foldlM_nil, bind_pure]

/-- What holds at the start and is kept by every step holds wherever a run leads. -/
theorem steps_induction {motive : List Act → State → Prop} (hFirst : motive [] first)
    (hStep : ∀ acts state act next, acts.foldlM step first = some state → motive acts state →
      step state act = some next → motive (acts ++ [act]) next) :
    ∀ acts state, acts.foldlM step first = some state → motive acts state := by
  intro acts
  induction acts using List.reverseRecOn with
  | nil =>
    intro state hRun
    cases hRun
    exact hFirst
  | append_singleton acts act ih =>
    intro state hRun
    rw [steps_concat] at hRun
    obtain ⟨reached, hReached, hLast⟩ := Option.bind_eq_some_iff.1 hRun
    exact hStep acts reached act state hReached (ih reached hReached) hLast

end SiteProfiler
