import SiteProfiler.Proofs.Profiler.Copying
import SiteProfiler.Proofs.Roster.Iterators

/-!
# Exports of creation stacks

An export loads the head once, counts the workers from there, and fills a record for each if there
is room.  Registrations that end meanwhile put nodes in front of the head that was loaded, so the
export tells what it would have told at once, after at most two steps for each worker and two
more.
-/

namespace SiteProfiler

namespace SharedRoster

variable {shared next loaded : SharedRoster} {act : Act} {acts : List Act} {t : ThreadId}
  {buffer : List StackRecord} {steps : Nat}

/-- The act begins a call of the thread. -/
def Act.Begins (t : ThreadId) : Act → Prop
  | reserve u _ | profile u _ => u = t
  | proceed _ | take | clone _ | step _ => False

/-- The last call that the thread began is an export into the buffer.  It began, and loaded the
head, where `loaded` was reached; the thread has made so many steps since. -/
def Loaded (acts : List Act) (t : ThreadId) (buffer : List StackRecord) (loaded : SharedRoster)
    (steps : Nat) : Prop :=
  ∃ earlier later, acts = earlier ++ .profile t buffer :: later ∧
    start.run? earlier = some loaded ∧ (∀ act ∈ later, ¬ act.Begins t) ∧
    later.count (.proceed t) = steps

theorem Loaded.concat (hLoaded : Loaded acts t buffer loaded steps) (hBegins : ¬ act.Begins t) :
    Loaded (acts ++ [act]) t buffer loaded (steps + [act].count (.proceed t)) := by
  obtain ⟨earlier, later, rfl, hRun, hLater, rfl⟩ := hLoaded
  refine ⟨earlier, later ++ [act], ?_, hRun, ?_, List.count_append⟩
  · rw [List.append_assoc, List.cons_append]
  · exact fun other hMem => (List.mem_append.1 hMem).elim (hLater other)
      fun hLast => List.mem_singleton.1 hLast ▸ hBegins

/-- A step of the thread itself. -/
theorem Loaded.proceed (hLoaded : Loaded acts t buffer loaded steps) :
    Loaded (acts ++ [.proceed t]) t buffer loaded (steps + 1) := by
  rw [← List.count_singleton_self (a := Act.proceed t)]
  exact hLoaded.concat id

/-- An act that does not concern the thread. -/
theorem Loaded.other (hLoaded : Loaded acts t buffer loaded steps)
    (hOther : act.thread? ≠ some t) : Loaded (acts ++ [act]) t buffer loaded steps := by
  have hBegins : ¬ act.Begins t := by
    cases act with
    | reserve u _ | profile u _ => exact fun hSame => hOther (congrArg some hSame)
    | proceed _ | take | clone _ | step _ => exact id
  have hCount : [act].count (.proceed t) = 0 :=
    List.count_eq_zero_of_not_mem fun hMem => hOther (by rw [← List.mem_singleton.1 hMem]; rfl)
  have hConcat := hLoaded.concat hBegins
  rwa [hCount] at hConcat

/-- The record of a worker, made from what the buffer held. -/
def fillWorker (record : StackRecord) (worker : Worker) : StackRecord :=
  record.fill worker.createStack

/-- How far a thread has come with an export: what it has counted or filled, and what the iterator
has left, is what the loaded listing asks for. -/
def Exporting (acts : List Act) (nodes : List Node) (t : ThreadId) : Stage → Prop
  | .counting buffer head cursor counted => ∃ loaded,
    Loaded acts t buffer loaded counted ∧ Yields nodes head loaded.listing ∧
    counted ≤ loaded.listing.length ∧ Yields nodes cursor (loaded.listing.drop counted)
  | .filling needed filled rest cursor => ∃ buffer loaded others,
    Loaded acts t buffer loaded (needed + 1 + filled.length) ∧ needed = loaded.listing.length ∧
    needed ≤ buffer.length ∧ Yields nodes cursor others ∧
    filled.length + others.length = needed ∧ others.length ≤ rest.length ∧
    filled ++ copyOut fillWorker rest others = copyOut fillWorker buffer loaded.listing
  | .idle | .numbered _ | .linked .. => True

theorem Exporting.other {nodes : List Node} {stage : Stage}
    (exporting : Exporting acts nodes t stage) (hOther : act.thread? ≠ some t)
    (added : List Node) : Exporting (acts ++ [act]) (nodes ++ added) t stage := by
  cases stage with
  | idle | numbered worker | linked worker seen => trivial
  | counting buffer head cursor counted =>
    obtain ⟨loaded, hLoaded, hHead, hCounted, hCursor⟩ := exporting
    exact ⟨loaded, hLoaded.other hOther, hHead.append added, hCounted, hCursor.append added⟩
  | filling needed filled rest cursor =>
    obtain ⟨buffer, loaded, others, hLoaded, hNeeded, hFits, hCursor, hRest⟩ := exporting
    exact ⟨buffer, loaded, others, hLoaded.other hOther, hNeeded, hFits, hCursor.append added,
      hRest⟩

/-- A step of the thread itself. -/
theorem Exporting.proceed (exporting : Exporting acts shared.nodes t (shared.stage t))
    (hAct : shared.act? (.proceed t) = some next) :
    Exporting (acts ++ [.proceed t]) next.nodes t (next.stage t) := by
  have proceeds := proceeds_of_proceed? hAct
  generalize shared.stage t = stage at exporting proceeds
  cases proceeds with
  | looks | retries =>
    rw [setStage_stage_self]
    trivial
  | swaps =>
    rw [report, setStage_stage_self]
    trivial
  | gives_up | ends =>
    rw [answer, report, setStage_stage_self]
    trivial
  | @counts buffer head cursor rest counted worker hStep =>
    obtain ⟨loaded, hLoaded, hHead, hCounted, hCursor⟩ := exporting
    obtain ⟨following, hAdvance, hRest⟩ := hCursor.advance
    rw [hAdvance, List.head?_drop, Prod.mk.injEq] at hStep
    obtain ⟨hSome, rfl⟩ := hStep
    obtain ⟨hLt, -⟩ := List.getElem?_eq_some_iff.1 hSome
    rw [setStage_stage_self]
    rw [List.tail_drop] at hRest
    exact ⟨loaded, hLoaded.proceed, hHead, hLt, hRest⟩
  | @turns buffer head cursor rest counted hEnd hRoom =>
    obtain ⟨loaded, hLoaded, hHead, hCounted, hCursor⟩ := exporting
    have hAll : counted = loaded.listing.length :=
      Nat.le_antisymm hCounted (List.drop_eq_nil_iff.1 (hCursor.eq_nil (congrArg Prod.fst hEnd)))
    rw [setStage_stage_self]
    exact ⟨buffer, loaded, loaded.listing, hLoaded.proceed, hAll, hRoom, hHead,
      (Nat.zero_add _).trans hAll.symm, hAll ▸ hRoom, rfl⟩
  | @fills needed filled rest record cursor following worker hStep =>
    obtain ⟨buffer, loaded, others, hLoaded, hNeeded, hFits, hCursor, hLength, hRoom, hCopy⟩ :=
      exporting
    obtain ⟨after, hAdvance, hRest⟩ := hCursor.advance
    rw [hAdvance, Prod.mk.injEq] at hStep
    obtain ⟨hSome, rfl⟩ := hStep
    obtain ⟨tail, rfl⟩ := List.head?_eq_some_iff.1 hSome
    have hTail : tail.length ≤ rest.length := Nat.le_of_succ_le_succ hRoom
    rw [setStage_stage_self]
    refine ⟨buffer, loaded, tail, ?_, hNeeded, hFits, hRest, ?_, hTail, ?_⟩
    · rw [List.length_append]
      exact hLoaded.proceed
    · rw [List.length_append, List.length_singleton, Nat.add_assoc, Nat.add_comm 1]
      exact hLength
    · rw [← hCopy, copyOut_cons hTail, List.append_assoc]
      rfl

theorem threadProfile_of_roster {profiler : Profiler} (hRoster : profiler.roster = loaded.roster)
    (buffer : List StackRecord) :
    profiler.threadProfile buffer =
      (.of fillWorker buffer loaded.listing,
        (Export.of fillWorker buffer loaded.listing).journal .thread buffer.length) := by
  rw [Profiler.threadProfile, hRoster]
  rfl

/-- What an export tells of a listing: how many workers there are, and whether the buffer has room
for them.  If it has, the leading records hold their creation stacks, in the order of the listing,
and the others are what they were; if not, all of them are. -/
structure Tells (listing : List Worker) (buffer : List StackRecord)
    (result : Export StackRecord) : Prop where
  needed : result.needed = listing.length
  complete : result.complete = true ↔ listing.length ≤ buffer.length
  length : result.buffer.length = buffer.length
  filled : result.complete = true → (result.buffer.take result.needed).map StackRecord.stack =
    listing.map (·.createStack.frames)
  rest : result.complete = true → result.buffer.drop result.needed = buffer.drop result.needed
  unchanged : result.complete = false → result.buffer = buffer

theorem tells_of (buffer : List StackRecord) (listing : List Worker) :
    Tells listing buffer (.of fillWorker buffer listing) := by
  by_cases hRoom : listing.length ≤ buffer.length
  · have hCopy : copyOut fillWorker buffer listing =
        listing.map (fillWorker .zero) ++ buffer.drop listing.length :=
      copyOut_of_le StackRecord.overwrites hRoom
    have hFilled : (listing.map (fillWorker .zero)).length = listing.length := List.length_map _
    refine ⟨rfl, decide_eq_true_iff, ?_, fun _ => ?_, fun _ => ?_, fun hShort => ?_⟩
    · rw [Export.of, hCopy, List.length_append, hFilled, List.length_drop]
      exact Nat.add_sub_cancel' hRoom
    · rw [Export.of, hCopy, List.take_left' hFilled, List.map_map]
      exact List.map_congr_left fun worker _ => StackRecord.zero.stack_fill worker.createStack
    · rw [Export.of, hCopy, List.drop_left' hFilled]
    · exact absurd hRoom (of_decide_eq_false hShort)
  · have hCopy : copyOut fillWorker buffer listing = buffer :=
      copyOut_of_lt (Nat.lt_of_not_le hRoom)
    have hNone : ¬ (Export.of fillWorker buffer listing).complete = true :=
      fun hComplete => hRoom (of_decide_eq_true hComplete)
    exact ⟨rfl, decide_eq_true_iff, congrArg List.length hCopy, fun hAll => absurd hAll hNone,
      fun hAll => absurd hAll hNone, fun _ => hCopy⟩

/-- The answer tells the listing of when the calling thread loaded the head.  It is what the thread
would have got if it had been alone then, and the thread came to it in so many steps. -/
def Answers (acts : List Act) (t : ThreadId) (result : Export StackRecord)
    (journal : List JournalLine) : Prop :=
  ∃ buffer loaded steps, Loaded acts t buffer loaded steps ∧
    steps ≤ 2 * loaded.listing.length + 1 ∧ Tells loaded.listing buffer result ∧
    ∀ profiler : Profiler, profiler.roster = loaded.roster →
      profiler.threadProfile buffer = (result, journal)

/-- A result that is the export of the loaded listing answers the call. -/
theorem Loaded.answers {result : Export StackRecord} {journal : List JournalLine}
    (hLoaded : Loaded acts t buffer loaded steps) (hSteps : steps ≤ 2 * loaded.listing.length + 1)
    (hResult : Export.of fillWorker buffer loaded.listing = result)
    (hJournal : result.journal .thread buffer.length = journal) :
    Answers acts t result journal := by
  refine ⟨buffer, loaded, steps, hLoaded, hSteps, hResult ▸ tells_of buffer loaded.listing, ?_⟩
  intro profiler hRoster
  rw [threadProfile_of_roster hRoster, hResult, hJournal]

/-- There is no room for the workers that were counted. -/
theorem Exporting.gives_up {nodes : List Node} {head cursor : Option NodeId} {counted : Nat}
    (exporting : Exporting acts nodes t (.counting buffer head cursor counted))
    (hEnd : (advance nodes cursor).1 = none) (hShort : buffer.length < counted) :
    Answers acts t ⟨counted, false, buffer⟩ [.truncated .thread counted buffer.length] := by
  obtain ⟨loaded, hLoaded, -, hCounted, hCursor⟩ := exporting
  have hAll : loaded.listing.length = counted :=
    Nat.le_antisymm (List.drop_eq_nil_iff.1 (hCursor.eq_nil hEnd)) hCounted
  have hLong : ¬ counted ≤ buffer.length := Nat.not_le_of_lt hShort
  refine hLoaded.answers (by omega) ?_ rfl
  rw [Export.of, copyOut_of_lt (hAll ▸ hShort), hAll, decide_eq_false hLong]

/-- All the records are filled. -/
theorem Exporting.ends {nodes : List Node} {needed : Nat} {filled rest : List StackRecord}
    {cursor : Option NodeId}
    (exporting : Exporting acts nodes t (.filling needed filled rest cursor))
    (hEnd : rest = [] ∨ (advance nodes cursor).1 = none) :
    Answers acts t ⟨needed, true, filled ++ rest⟩ [] := by
  obtain ⟨buffer, loaded, others, hLoaded, hNeeded, hFits, hCursor, hLength, hRoom, hCopy⟩ :=
    exporting
  obtain rfl : others = [] := by
    obtain rfl | hNone := hEnd
    · exact List.eq_nil_of_length_eq_zero (Nat.le_zero.1 hRoom)
    · exact hCursor.eq_nil hNone
  rw [copyOut_nil] at hCopy
  rw [List.length_nil] at hLength
  refine hLoaded.answers (by omega) ?_ rfl
  rw [Export.of, ← hCopy, ← hNeeded, decide_eq_true hFits]

end SharedRoster

end SiteProfiler
