import Mathlib.Data.List.Nodup
import SiteProfiler.Proofs.Roster.Chain

/-!
# Registrations of several threads

Numbers are given out in the order in which registrations begin, and nodes are put up in the order
in which they end.  The two orders may differ, but every registration gets one number and one
node: its thread holds the worker until the node is the head, however often it has to try.
-/

namespace SiteProfiler.SharedRoster

variable {shared next later : SharedRoster} {act : Act} {acts : List Act} {t : ThreadId}

/-- The worker that a thread has taken a number for but not yet put up. -/
def Stage.pending? : Stage → Option Worker
  | numbered worker | linked worker _ => some worker
  | idle | counting .. | filling .. => none

def LogEntry.registered? : LogEntry → Option (ThreadId × Worker)
  | registered t worker => some (t, worker)
  | yielded .. | exported .. => none

/-- The registrations that have returned, in order, with the threads that made them. -/
def completed (shared : SharedRoster) : List (ThreadId × Worker) :=
  shared.log.filterMap LogEntry.registered?

def Act.begun? : Act → Option (ThreadId × CallStack)
  | reserve t createStack => some (t, createStack)
  | profile .. | proceed _ | take | clone _ | step _ => none

/-- The registrations that acts begin, in order and numbered from 1, with their threads. -/
def begun (acts : List Act) : List (ThreadId × Worker) :=
  (acts.filterMap Act.begun?).mapIdx fun place call => (call.1, ⟨call.2, place + 1⟩)

/-! ## Numbers -/

theorem begun_concat_of_none (hNone : act.begun? = none) (acts : List Act) :
    begun (acts ++ [act]) = begun acts := by
  rw [begun, List.filterMap_append, List.filterMap_cons_none hNone, List.filterMap_nil,
    List.append_nil, begun]

theorem begun_concat_reserve (acts : List Act) (t : ThreadId) (createStack : CallStack) :
    begun (acts ++ [.reserve t createStack]) =
      begun acts ++ [(t, ⟨createStack, (begun acts).length + 1⟩)] := by
  simp only [begun, List.filterMap_append, List.mapIdx_append, List.length_mapIdx]
  simp [Act.begun?]

theorem begun_ids (acts : List Act) :
    (begun acts).map (·.2.id) = List.range' 1 (begun acts).length := by
  refine List.ext_getElem (by simp) fun place _ _ => ?_
  simp [begun, Nat.add_comm]

theorem le_of_mem_begun {entry : ThreadId × Worker} (hMem : entry ∈ begun acts) :
    entry.2.id ≤ (begun acts).length := by
  have hId : entry.2.id ∈ (begun acts).map (·.2.id) := List.mem_map_of_mem hMem
  rw [begun_ids, List.mem_range'_1] at hId
  exact Nat.lt_one_add_iff.1 hId.2

/-- Nothing that concerns registrations has changed. -/
structure SameRegistrations (shared next : SharedRoster) : Prop where
  nextId : next.nextId = shared.nextId
  nodes : next.nodes = shared.nodes
  head : next.head = shared.head
  pending : ∀ t, (next.stage t).pending? = (shared.stage t).pending?
  completed : next.completed = shared.completed

theorem completed_report (shared : SharedRoster) (entry : LogEntry) :
    (shared.report entry).completed = shared.completed ++ entry.registered?.toList := by
  simp only [completed, report, List.filterMap_append]
  cases entry <;> rfl

/-- A thread that changes from one stage to another with the same pending worker. -/
theorem sameRegistrations_setStage {stage : Stage}
    (hPending : stage.pending? = (shared.stage t).pending?) :
    shared.SameRegistrations (shared.setStage t stage) where
  nextId := rfl
  nodes := rfl
  head := rfl
  pending u := by
    by_cases hSame : u = t
    · subst hSame
      rw [setStage_stage_self, hPending]
    · rw [setStage_stage_of_ne hSame]
  completed := rfl

theorem sameRegistrations_answer (hPending : (shared.stage t).pending? = none)
    (result : Export StackRecord) : shared.SameRegistrations (shared.answer t result) := by
  have same : shared.SameRegistrations (shared.setStage t .idle) :=
    sameRegistrations_setStage hPending.symm
  exact ⟨same.nextId, same.nodes, same.head, same.pending,
    (completed_report _ _).trans (List.append_nil _)⟩

/-- An act begins a registration, ends one, or leaves them all as they are. -/
theorem registers_of_act? (hAct : shared.act? act = some next) :
    (∃ t createStack, act = .reserve t createStack ∧ shared.stage t = .idle ∧
      next = { shared with nextId := shared.nextId + 1 }.setStage t
        (.numbered ⟨createStack, shared.nextId⟩)) ∨
    (∃ t worker, act = .proceed t ∧ shared.stage t = .linked worker shared.head ∧
      next = ((shared.putUp worker).setStage t .idle).report (.registered t worker)) ∨
    act.begun? = none ∧ shared.SameRegistrations next := by
  cases act with
  | reserve t createStack =>
    rw [act?] at hAct
    split at hAct <;> cases hAct
    next hIdle => exact .inl ⟨t, createStack, rfl, hIdle, rfl⟩
  | profile t buffer =>
    rw [act?] at hAct
    split at hAct <;> cases hAct
    next hIdle =>
      refine .inr (.inr ⟨rfl, sameRegistrations_setStage ?_⟩)
      rw [hIdle]
      rfl
  | proceed t =>
    have proceeds := proceeds_of_proceed? hAct
    generalize hStage : shared.stage t = stage at proceeds
    have hPending := congrArg Stage.pending? hStage
    cases proceeds with
    | swaps worker => exact .inr (.inl ⟨t, worker, rfl, hStage, rfl⟩)
    | looks worker | retries worker seen =>
      exact .inr (.inr ⟨rfl, sameRegistrations_setStage hPending.symm⟩)
    | counts | turns | fills => exact .inr (.inr ⟨rfl, sameRegistrations_setStage hPending.symm⟩)
    | gives_up | ends => exact .inr (.inr ⟨rfl, sameRegistrations_answer hPending _⟩)
  | take =>
    cases hAct
    exact .inr (.inr ⟨rfl, rfl, rfl, rfl, fun _ => rfl, rfl⟩)
  | clone iterator =>
    obtain ⟨cursor, -, rfl⟩ := Option.map_eq_some_iff.1 hAct
    exact .inr (.inr ⟨rfl, rfl, rfl, rfl, fun _ => rfl, rfl⟩)
  | step iterator =>
    obtain ⟨cursor, -, rfl⟩ := Option.map_eq_some_iff.1 hAct
    exact .inr (.inr ⟨rfl, rfl, rfl, rfl, fun _ => rfl,
      (completed_report _ _).trans (List.append_nil _)⟩)

/-- Nodes stay in the chain. -/
theorem nodes_of_act? (hAct : shared.act? act = some next) :
    ∃ added, next.nodes = shared.nodes ++ added := by
  obtain ⟨t, createStack, -, -, rfl⟩ | ⟨t, worker, -, -, rfl⟩ | ⟨-, same⟩ :=
    registers_of_act? hAct
  · exact ⟨[], (List.append_nil _).symm⟩
  · exact ⟨_, rfl⟩
  · exact ⟨[], same.nodes.trans (List.append_nil _).symm⟩

/-- Every registration that was begun has returned or is pending, and those that returned stand in
the chain, the last one first. -/
structure Registered (acts : List Act) (shared : SharedRoster) : Prop where
  nextId : shared.nextId = (begun acts).length + 1
  begun : ∀ t worker, (t, worker) ∈ begun acts ↔
    (t, worker) ∈ shared.completed ∨ (shared.stage t).pending? = some worker
  pending : ∀ t worker, (shared.stage t).pending? = some worker → (t, worker) ∉ shared.completed
  nodup : shared.completed.Nodup
  nodes : shared.nodes.length = shared.completed.length
  chain : Yields shared.nodes shared.head (shared.completed.map Prod.snd).reverse

namespace Registered

theorem reserve (registered : Registered acts shared) (hIdle : shared.stage t = .idle)
    (createStack : CallStack) :
    Registered (acts ++ [.reserve t createStack])
      ({ shared with nextId := shared.nextId + 1 }.setStage t
        (.numbered ⟨createStack, shared.nextId⟩)) where
  nextId := by
    rw [begun_concat_reserve, List.length_append, List.length_singleton, ← registered.nextId]
    rfl
  begun u worker := by
    rw [begun_concat_reserve, List.mem_append, List.mem_singleton, ← registered.nextId,
      registered.begun, or_assoc]
    refine or_congr_right ?_
    by_cases hSame : u = t
    · subst hSame
      rw [hIdle, setStage_stage_self]
      simp [Stage.pending?, eq_comm]
    · rw [setStage_stage_of_ne hSame]
      simp [hSame]
  pending u worker hPending := by
    by_cases hSame : u = t
    · subst hSame
      rw [setStage_stage_self] at hPending
      cases hPending
      -- The number is above every number that was given out before.
      intro hMem
      have hLe := le_of_mem_begun ((registered.begun _ _).2 (.inl hMem))
      rw [registered.nextId] at hLe
      exact Nat.not_succ_le_self _ hLe
    · rw [setStage_stage_of_ne hSame] at hPending
      exact registered.pending u worker hPending
  nodup := registered.nodup
  nodes := registered.nodes
  chain := registered.chain

theorem swap (registered : Registered acts shared) {worker : Worker}
    (hStage : shared.stage t = .linked worker shared.head) :
    Registered (acts ++ [.proceed t])
      (((shared.putUp worker).setStage t .idle).report (.registered t worker)) := by
  have hPending : (shared.stage t).pending? = some worker := by rw [hStage]; rfl
  have hCompleted : (((shared.putUp worker).setStage t .idle).report
      (.registered t worker)).completed = shared.completed ++ [(t, worker)] := completed_report _ _
  have hBegun : SharedRoster.begun (acts ++ [.proceed t]) = SharedRoster.begun acts :=
    begun_concat_of_none rfl acts
  refine ⟨?_, fun u other => ?_, fun u other hOther => ?_, ?_, ?_, ?_⟩
  · rw [hBegun]
    exact registered.nextId
  · rw [hBegun, hCompleted, List.mem_append, List.mem_singleton, registered.begun, or_assoc]
    refine or_congr_right ?_
    by_cases hSame : u = t
    · subst hSame
      rw [hPending]
      simp [report, setStage_stage_self, Stage.pending?, eq_comm]
    · simp [report, setStage_stage_of_ne hSame, putUp, hSame]
  · have hNe : u ≠ t := by
      rintro rfl
      rw [report, setStage_stage_self] at hOther
      cases hOther
    rw [report, setStage_stage_of_ne hNe] at hOther
    rw [hCompleted, List.mem_append, List.mem_singleton, Prod.mk.injEq]
    rintro (hMem | ⟨hSame, -⟩)
    · exact registered.pending u other hOther hMem
    · exact hNe hSame
  · rw [hCompleted, ← List.concat_eq_append]
    exact registered.nodup.concat (registered.pending t worker hPending)
  · rw [hCompleted, List.length_append, ← registered.nodes]
    exact List.length_append
  · rw [hCompleted, List.map_append, List.reverse_append]
    exact .cons List.getElem?_concat_length (registered.chain.append _)

theorem of_same (registered : Registered acts shared) (hNone : act.begun? = none)
    (same : shared.SameRegistrations next) : Registered (acts ++ [act]) next where
  nextId := by rw [begun_concat_of_none hNone, same.nextId, registered.nextId]
  begun u worker := by
    rw [begun_concat_of_none hNone, same.completed, same.pending, registered.begun]
  pending u worker hPending := by
    rw [same.pending] at hPending
    rw [same.completed]
    exact registered.pending u worker hPending
  nodup := by rw [same.completed]; exact registered.nodup
  nodes := by rw [same.nodes, same.completed, registered.nodes]
  chain := by rw [same.nodes, same.head, same.completed]; exact registered.chain

theorem act? (registered : Registered acts shared) (hAct : shared.act? act = some next) :
    Registered (acts ++ [act]) next := by
  obtain ⟨t, createStack, rfl, hIdle, rfl⟩ | ⟨t, worker, rfl, hStage, rfl⟩ | ⟨hNone, same⟩ :=
    registers_of_act? hAct
  · exact registered.reserve hIdle createStack
  · exact registered.swap hStage
  · exact registered.of_same hNone same

end Registered

namespace Registered

theorem length_chain (registered : Registered acts shared) :
    (shared.completed.map Prod.snd).reverse.length ≤ shared.nodes.length :=
  Nat.le_of_eq (by rw [List.length_reverse, List.length_map, registered.nodes])

theorem listing (registered : Registered acts shared) :
    shared.listing = (shared.completed.map Prod.snd).reverse :=
  registered.chain.collect registered.length_chain

/-- Acts of threads reserve numbers and publish workers, as the calls of a single caller do. -/
theorem roster_act? (registered : Registered acts shared) (hAct : shared.act? act = some next) :
    next.roster = shared.roster ∨ next.roster = shared.roster.reserve.2 ∨
      ∃ worker, next.roster = shared.roster.publish worker := by
  have hListing := (registered.act? hAct).listing
  obtain ⟨t, createStack, rfl, -, rfl⟩ | ⟨t, worker, rfl, -, rfl⟩ | ⟨-, same⟩ :=
    registers_of_act? hAct
  · exact .inr (.inl rfl)
  · refine .inr (.inr ⟨worker, ?_⟩)
    rw [completed_report, List.map_append, List.reverse_append] at hListing
    rw [roster, hListing, roster, Roster.publish, registered.listing]
    rfl
  · refine .inl ?_
    rw [roster, hListing, same.completed, same.nextId, roster, registered.listing]

end Registered

end SiteProfiler.SharedRoster
