import SiteProfiler.Proofs.Roster.Registration

/-!
# Iterators over the roster

What an iterator has yielded, followed by what it will yield, stays the same from the moment it is
made: stepping it moves one worker from the second list to the first, and whatever else happens
changes neither.
-/

namespace SiteProfiler.SharedRoster

variable {shared next later : SharedRoster} {act : Act} {acts more : List Act} {t : ThreadId}
  {i : Nat} {cursor : Option NodeId} {workers : List Worker}

def LogEntry.yielded? (i : Nat) : LogEntry → Option Worker
  | yielded iterator worker => if iterator = i then worker else none
  | registered .. | exported .. => none

/-- The workers that an iterator has yielded. -/
def handed (shared : SharedRoster) (i : Nat) : List Worker :=
  shared.log.filterMap (LogEntry.yielded? i)

theorem handed_report (shared : SharedRoster) (entry : LogEntry) (i : Nat) :
    (shared.report entry).handed i = shared.handed i ++ (entry.yielded? i).toList := by
  simp only [handed, report, List.filterMap_append]
  rfl

/-- Iterators stand in the chain, and one that is not there has yielded nothing. -/
structure Iterating (shared : SharedRoster) : Prop where
  standing : ∀ cursor ∈ shared.iterators, ∃ workers,
    Yields shared.nodes cursor workers ∧ workers.length ≤ shared.nodes.length
  fresh : ∀ i, shared.iterators.length ≤ i → shared.handed i = []

theorem left_of_yields (hCursor : shared.iterators[i]? = some cursor)
    (yields : Yields shared.nodes cursor workers)
    (hLength : workers.length ≤ shared.nodes.length) : shared.left i = workers := by
  rw [left, hCursor]
  exact yields.collect hLength

/-- What an iterator will yield is settled by the nodes that are there. -/
theorem Iterating.left_of_nodes (iterating : shared.Iterating)
    (hCursor : shared.iterators[i]? = some cursor) {added : List Node}
    (hNodes : next.nodes = shared.nodes ++ added) (hNext : next.iterators[i]? = some cursor) :
    next.left i = shared.left i := by
  obtain ⟨workers, yields, hLength⟩ := iterating.standing cursor (List.mem_of_getElem? hCursor)
  rw [left_of_yields hCursor yields hLength]
  refine left_of_yields hNext ?_ ?_
  · rw [hNodes]
    exact yields.append added
  · rw [hNodes, List.length_append]
    exact Nat.le_add_right_of_le hLength

/-- A call leaves the iterators where they are and only adds to the chain. -/
theorem iterators_of_call (hThread : act.thread? ≠ none) (hAct : shared.act? act = some next) :
    next.iterators = shared.iterators ∧ (∃ added, next.nodes = shared.nodes ++ added) ∧
      ∀ i, next.handed i = shared.handed i := by
  have hNodes := nodes_of_act? hAct
  cases act with
  | reserve t createStack | profile t buffer =>
    rw [act?] at hAct
    split at hAct <;> cases hAct
    exact ⟨rfl, hNodes, fun _ => rfl⟩
  | proceed t =>
    have proceeds := proceeds_of_proceed? hAct
    generalize shared.stage t = stage at proceeds
    cases proceeds with
    | looks | retries | counts | turns | fills => exact ⟨rfl, hNodes, fun _ => rfl⟩
    | swaps | gives_up | ends =>
      exact ⟨rfl, hNodes, fun i => (handed_report _ _ i).trans (List.append_nil _)⟩
  | take | clone iterator | step iterator => exact absurd rfl hThread

/-! ## Steps -/

/-- A new iterator at a cursor in the chain. -/
theorem Iterating.add (iterating : shared.Iterating)
    (yields : Yields shared.nodes cursor workers)
    (hLength : workers.length ≤ shared.nodes.length) :
    let added := { shared with iterators := shared.iterators ++ [cursor] }
    added.Iterating ∧ added.handed shared.iterators.length = [] ∧
      added.left shared.iterators.length = workers ∧
      ∀ i < shared.iterators.length, added.handed i = shared.handed i ∧
        added.left i = shared.left i := by
  intro added
  have hNew : added.iterators[shared.iterators.length]? = some cursor :=
    List.getElem?_concat_length
  refine ⟨⟨?_, fun i hi => iterating.fresh i ?_⟩, iterating.fresh _ (Nat.le_refl _),
    left_of_yields hNew yields hLength, fun i hi => ⟨rfl, ?_⟩⟩
  · intro other hMem
    obtain hOld | hOther := List.mem_append.1 hMem
    · exact iterating.standing other hOld
    · rw [List.mem_singleton.1 hOther]
      exact ⟨workers, yields, hLength⟩
  · exact Nat.le_trans (by simp [added]) hi
  · have hOld : added.iterators[i]? = shared.iterators[i]? := List.getElem?_append_left hi
    exact congrArg (fun found => shared.remaining (found.getD none)) hOld

/-- Stepping an iterator hands out the first worker that it had left. -/
theorem Iterating.step (iterating : shared.Iterating)
    (hAct : shared.act? (.step i) = some next) :
    next.Iterating ∧ next.iterators.length = shared.iterators.length ∧
      next.log = shared.log ++ [.yielded i (shared.left i).head?] ∧
      next.left i = (shared.left i).tail ∧
      ∀ j, j ≠ i → next.handed j = shared.handed j ∧ next.left j = shared.left j := by
  obtain ⟨cursor, hCursor, rfl⟩ := Option.map_eq_some_iff.1 hAct
  obtain ⟨hi, -⟩ := List.getElem?_eq_some_iff.1 hCursor
  obtain ⟨workers, yields, hLength⟩ := iterating.standing cursor (List.mem_of_getElem? hCursor)
  obtain ⟨rest, hAdvance, hRest⟩ := yields.advance
  have hTail : workers.tail.length ≤ shared.nodes.length :=
    Nat.le_trans (by rw [List.length_tail]; exact Nat.sub_le _ _) hLength
  rw [left_of_yields hCursor yields hLength, hAdvance]
  refine ⟨⟨?_, fun j hj => ?_⟩, List.length_set, rfl, ?_, fun j hj => ⟨?_, ?_⟩⟩
  · intro other hMem
    obtain hOld | rfl := List.mem_or_eq_of_mem_set hMem
    · exact iterating.standing other hOld
    · exact ⟨workers.tail, hRest, hTail⟩
  · have hLe : shared.iterators.length ≤ j := Nat.le_trans (Nat.le_of_eq List.length_set.symm) hj
    have hNone : (LogEntry.yielded i workers.head?).yielded? j = none :=
      if_neg (Nat.ne_of_lt (Nat.lt_of_lt_of_le hi hLe))
    rw [handed_report, hNone, Option.toList_none, List.append_nil]
    exact iterating.fresh j hLe
  · exact left_of_yields (List.getElem?_set_self hi) hRest hTail
  · have hNone : (LogEntry.yielded i workers.head?).yielded? j = none := if_neg hj.symm
    rw [handed_report, hNone, Option.toList_none, List.append_nil]
    rfl
  · have hOther : (shared.iterators.set i rest)[j]? = shared.iterators[j]? :=
      List.getElem?_set_ne hj.symm
    exact congrArg (fun found => shared.remaining (found.getD none)) hOther

/-- What an iterator yields in all is the same after an act as before it. -/
theorem Iterating.act? (iterating : shared.Iterating) (registered : Registered acts shared)
    (hAct : shared.act? act = some next) :
    next.Iterating ∧ shared.iterators.length ≤ next.iterators.length ∧
      ∀ i < shared.iterators.length,
        next.handed i ++ next.left i = shared.handed i ++ shared.left i := by
  cases hThread : act.thread? with
  | some t =>
    obtain ⟨hSame, ⟨added, hNodes⟩, hHanded⟩ :=
      iterators_of_call (by rw [hThread]; exact Option.some_ne_none t) hAct
    have hLeft : ∀ i < shared.iterators.length, next.left i = shared.left i := fun i hi =>
      iterating.left_of_nodes (List.getElem?_eq_getElem hi) hNodes
        (by rw [hSame]; exact List.getElem?_eq_getElem hi)
    refine ⟨⟨?_, ?_⟩, Nat.le_of_eq (by rw [hSame]), fun i hi => by rw [hHanded, hLeft i hi]⟩
    · rw [hSame, hNodes]
      intro cursor hMem
      obtain ⟨workers, yields, hLength⟩ := iterating.standing cursor hMem
      refine ⟨workers, yields.append added, ?_⟩
      rw [List.length_append]
      exact Nat.le_add_right_of_le hLength
    · rw [hSame]
      exact fun i hi => (hHanded i).trans (iterating.fresh i hi)
  | none =>
    cases act with
    | take =>
      cases hAct
      obtain ⟨hNext, -, -, hOld⟩ := iterating.add registered.chain registered.length_chain
      exact ⟨hNext, by simp, fun i hi => by rw [(hOld i hi).1, (hOld i hi).2]⟩
    | clone iterator =>
      obtain ⟨cursor, hCursor, rfl⟩ := Option.map_eq_some_iff.1 hAct
      obtain ⟨workers, yields, hLength⟩ :=
        iterating.standing cursor (List.mem_of_getElem? hCursor)
      obtain ⟨hNext, -, -, hOld⟩ := iterating.add yields hLength
      exact ⟨hNext, by simp, fun i hi => by rw [(hOld i hi).1, (hOld i hi).2]⟩
    | step iterator =>
      obtain ⟨hNext, hLength, hLog, hLeft, hOthers⟩ := iterating.step hAct
      refine ⟨hNext, Nat.le_of_eq hLength.symm, fun i hi => ?_⟩
      by_cases hSame : i = iterator
      · subst hSame
        have hHanded : next.handed i = shared.handed i ++ (shared.left i).head?.toList := by
          have hYielded : (LogEntry.yielded i (shared.left i).head?).yielded? i =
              (shared.left i).head? := if_pos rfl
          rw [← hYielded, ← handed_report, handed, hLog]
          rfl
        rw [hHanded, hLeft, List.append_assoc]
        cases shared.left i <;> rfl
      · rw [(hOthers i hSame).1, (hOthers i hSame).2]
    | reserve t createStack | profile t buffer | proceed t => cases hThread

end SiteProfiler.SharedRoster
