import SiteProfiler.Proofs.Steps
import SiteProfiler.Roster.Shared

/-!
# The chain of workers

A node is put up once and stays, so what an iterator yields from its cursor is settled by where
it stands.  An act of a thread changes the stage of that thread only, and the chain changes only
when a thread swaps in its node at the head it saw.
-/

namespace SiteProfiler.SharedRoster

variable {shared next later : SharedRoster} {act : Act} {acts : List Act} {t : ThreadId}
  {nodes : List Node} {cursor : Option NodeId} {workers : List Worker}

/-! ## Iterators -/

/-- An iterator at the cursor yields the workers, one after the other, and then no more. -/
inductive Yields (nodes : List Node) : Option NodeId → List Worker → Prop
  | nil : Yields nodes none []
  | cons {id : NodeId} {node : Node} {workers : List Worker} (hNode : nodes[id]? = some node)
      (hRest : Yields nodes node.next workers) :
      Yields nodes (some id) (node.worker :: workers)

theorem advance_none (nodes : List Node) : advance nodes none = (none, none) := rfl

theorem advance_some {id : NodeId} {node : Node} (hNode : nodes[id]? = some node) :
    advance nodes (some id) = (some node.worker, node.next) := by
  rw [advance, Option.bind_some, hNode]

/-- A step yields the first of the workers, and the others are left. -/
theorem Yields.advance (yields : Yields nodes cursor workers) :
    ∃ rest, SharedRoster.advance nodes cursor = (workers.head?, rest) ∧
      Yields nodes rest workers.tail := by
  cases yields with
  | nil => exact ⟨none, advance_none nodes, .nil⟩
  | @cons _ node _ hNode hRest => exact ⟨node.next, advance_some hNode, hRest⟩

theorem Yields.eq_nil (yields : Yields nodes cursor workers)
    (hEnd : (SharedRoster.advance nodes cursor).1 = none) : workers = [] := by
  obtain ⟨rest, hAdvance, -⟩ := yields.advance
  rw [hAdvance] at hEnd
  exact List.head?_eq_none_iff.1 hEnd

theorem Yields.collect (yields : Yields nodes cursor workers) :
    ∀ {steps : Nat}, workers.length ≤ steps → collect nodes steps cursor = workers := by
  induction yields with
  | nil =>
    intro steps _
    cases steps <;> rfl
  | cons hNode _ ih =>
    intro steps hSteps
    obtain ⟨fewer, rfl⟩ := Nat.exists_eq_add_one_of_ne_zero (Nat.ne_zero_of_lt hSteps)
    rw [SharedRoster.collect, advance_some hNode]
    exact congrArg _ (ih (Nat.le_of_succ_le_succ hSteps))

theorem Yields.append (yields : Yields nodes cursor workers) (more : List Node) :
    Yields (nodes ++ more) cursor workers := by
  induction yields with
  | nil => exact .nil
  | cons hNode _ ih =>
    obtain ⟨hOld, -⟩ := List.getElem?_eq_some_iff.1 hNode
    exact .cons (by rwa [List.getElem?_append_left hOld]) ih

/-! ## Runs -/

theorem run?_cons (hAct : shared.act? act = some next) (acts : List Act) :
    shared.run? (act :: acts) = next.run? acts := steps_cons hAct acts

/-- What holds at the start and is kept by every act holds wherever a run leads. -/
theorem run_induction {first : SharedRoster} {motive : List Act → SharedRoster → Prop}
    (hFirst : motive [] first)
    (hAct : ∀ acts shared act next, first.run? acts = some shared → motive acts shared →
      shared.act? act = some next → motive (acts ++ [act]) next) :
    ∀ acts shared, first.run? acts = some shared → motive acts shared :=
  steps_induction hFirst hAct

/-! ## What acts do -/

/-- How a thread goes on from a stage. -/
inductive Proceeds (shared : SharedRoster) (t : ThreadId) : Stage → SharedRoster → Prop
  | looks (worker : Worker) :
      Proceeds shared t (.numbered worker) (shared.setStage t (.linked worker shared.head))
  | swaps (worker : Worker) :
      Proceeds shared t (.linked worker shared.head)
        (((shared.putUp worker).setStage t .idle).report (.registered t worker))
  | retries (worker : Worker) (seen : Option NodeId) :
      Proceeds shared t (.linked worker seen) (shared.setStage t (.linked worker shared.head))
  | counts {buffer : List StackRecord} {loaded cursor rest : Option NodeId} {counted : Nat}
      {worker : Worker} (hStep : advance shared.nodes cursor = (some worker, rest)) :
      Proceeds shared t (.counting buffer loaded cursor counted)
        (shared.setStage t (.counting buffer loaded rest (counted + 1)))
  | gives_up {buffer : List StackRecord} {loaded cursor rest : Option NodeId} {counted : Nat}
      (hEnd : advance shared.nodes cursor = (none, rest)) (hShort : buffer.length < counted) :
      Proceeds shared t (.counting buffer loaded cursor counted)
        (shared.answer t ⟨counted, false, buffer⟩)
  | turns {buffer : List StackRecord} {loaded cursor rest : Option NodeId} {counted : Nat}
      (hEnd : advance shared.nodes cursor = (none, rest)) (hRoom : counted ≤ buffer.length) :
      Proceeds shared t (.counting buffer loaded cursor counted)
        (shared.setStage t (.filling counted [] buffer loaded))
  | fills {needed : Nat} {filled rest : List StackRecord} {record : StackRecord}
      {cursor following : Option NodeId} {worker : Worker}
      (hStep : advance shared.nodes cursor = (some worker, following)) :
      Proceeds shared t (.filling needed filled (record :: rest) cursor)
        (shared.setStage t
          (.filling needed (filled ++ [record.fill worker.createStack]) rest following))
  | ends {needed : Nat} {filled rest : List StackRecord} {cursor : Option NodeId}
      (hEnd : rest = [] ∨ (advance shared.nodes cursor).1 = none) :
      Proceeds shared t (.filling needed filled rest cursor)
        (shared.answer t ⟨needed, true, filled ++ rest⟩)

theorem proceeds_of_proceed? {stage : Stage} (hNext : shared.proceed? t stage = some next) :
    shared.Proceeds t stage next := by
  cases stage with
  | idle => cases hNext
  | numbered worker =>
    cases hNext
    exact .looks worker
  | linked worker seen =>
    rw [proceed?] at hNext
    split at hNext <;> cases hNext
    next hSeen =>
      subst hSeen
      exact .swaps worker
    next => exact .retries worker seen
  | counting buffer loaded cursor counted =>
    rw [proceed?] at hNext
    split at hNext
    next hStep =>
      cases hNext
      exact .counts hStep
    next hEnd =>
      split at hNext <;> cases hNext
      next hShort => exact .gives_up hEnd hShort
      next hRoom => exact .turns hEnd (Nat.le_of_not_lt hRoom)
  | filling needed filled rest cursor =>
    cases hStep : advance shared.nodes cursor with
    | mk worker following =>
      unfold proceed? at hNext
      dsimp only at hNext
      rw [hStep] at hNext
      cases rest with
      | nil =>
        cases hNext
        exact .ends (.inl rfl)
      | cons record others =>
        cases worker with
        | none =>
          cases hNext
          exact .ends (.inr (congrArg Prod.fst hStep))
        | some worker =>
          cases hNext
          exact .fills hStep

/-- The thread that an act concerns. -/
def Act.thread? : Act → Option ThreadId
  | reserve t _ | profile t _ | proceed t => some t
  | take | clone _ | step _ => none

theorem setStage_stage_of_ne {u : ThreadId} (hOther : u ≠ t) (shared : SharedRoster)
    (stage : Stage) : (shared.setStage t stage).stage u = shared.stage u := if_neg hOther

theorem setStage_stage_self (shared : SharedRoster) (t : ThreadId) (stage : Stage) :
    (shared.setStage t stage).stage t = stage := if_pos rfl

theorem Proceeds.stage_of_ne {u : ThreadId} (hOther : u ≠ t) {stage : Stage}
    (proceeds : shared.Proceeds t stage next) : next.stage u = shared.stage u := by
  cases proceeds <;> exact if_neg hOther

end SiteProfiler.SharedRoster
