import Mathlib.Data.List.Infix
import SiteProfiler.Profiler.Shared
import SiteProfiler.Proofs.Profiler.History
import SiteProfiler.Proofs.Steps

/-!
# The moment of a snapshot

The records of a snapshot are those of its last attempt.  Its number of cycles is read later, and
a cycle is counted later than it rotates the table.  The two numbers agree exactly if as many
cycles were counted between the last attempt and the read as had rotated the table before the
attempt and were counted after it.
-/

namespace SiteProfiler.SharedProfiler

variable {settings : Settings} {shared next : SharedProfiler} {act : Act} {acts : List Act}
  {t : ThreadId} {includeZeroed : Bool} {records : List MemRecord}

/-! ## What acts do -/

theorem goOn_stage_self (shared : SharedProfiler) (t : ThreadId) (stage : Stage)
    (profiler : Profiler) : (shared.goOn t stage profiler).stage t = stage := if_pos rfl

theorem goOn_stage_of_ne {u : ThreadId} (hOther : u ≠ t) (shared : SharedProfiler) (stage : Stage)
    (profiler : Profiler) : (shared.goOn t stage profiler).stage u = shared.stage u :=
  if_neg hOther

/-- What an act does: one case for each, and two for an attempt. -/
inductive Does (shared : SharedProfiler) : Act → SharedProfiler → Prop
  | record {t : ThreadId} (stack : CallStack) (event : Event) (hStage : shared.stage t = .idle) :
      Does shared (.record t stack event)
        (shared.goOn t (if shared.profiler.enabled then .accepted stack event else .idle)
          shared.profiler)
  | tally {t : ThreadId} {stack : CallStack} {event : Event}
      (hStage : shared.stage t = .accepted stack event) :
      Does shared (.tally t) (shared.goOn t .idle
        { shared.profiler with table := shared.profiler.table.record stack event })
  | rotate {t : ThreadId} (hStage : shared.stage t = .idle) :
      Does shared (.rotate t) (shared.goOn t .rotated shared.profiler.rotate)
  | count {t : ThreadId} (hStage : shared.stage t = .rotated) :
      Does shared (.count t) (shared.goOn t .idle shared.profiler.countCycle)
  | snapshot {t : ThreadId} (includeZeroed : Bool) (hStage : shared.stage t = .idle) :
      Does shared (.snapshot t includeZeroed)
        (shared.goOn t (.trying includeZeroed []) shared.profiler)
  | copies {t : ThreadId} {includeZeroed : Bool} {buffer : List MemRecord}
      (hStage : shared.stage t = .trying includeZeroed buffer)
      (hRoom : (shared.profiler.memListed includeZeroed).length ≤ buffer.length) :
      Does shared (.attempt t)
        (shared.goOn t (.copied includeZeroed (shared.profiler.memListed includeZeroed))
          shared.profiler.flushed)
  | regrows {t : ThreadId} {includeZeroed : Bool} {buffer : List MemRecord}
      (hStage : shared.stage t = .trying includeZeroed buffer)
      (hShort : buffer.length < (shared.profiler.memListed includeZeroed).length) :
      Does shared (.attempt t)
        (shared.goOn t
          (.trying includeZeroed
            (regrow .zero (shared.profiler.memListed includeZeroed).length buffer))
          shared.profiler.flushed)
  | read {t : ThreadId} {includeZeroed : Bool} {records : List MemRecord}
      (hStage : shared.stage t = .copied includeZeroed records) :
      Does shared (.read t)
        ((shared.give t includeZeroed ⟨records, shared.profiler.collectionCycles⟩).goOn t .idle
          shared.profiler)
  | switch {t : ThreadId} (enabled : Bool) (hStage : shared.stage t = .idle) :
      Does shared (.switch t enabled) (shared.goOn t .idle
        (if enabled then shared.profiler.enable else shared.profiler.disable))

theorem does_of_act? (hAct : shared.act? act = some next) : shared.Does act next := by
  unfold act? at hAct
  dsimp only at hAct
  split at hAct
  next stack event hStage =>
    cases hAct
    exact .record stack event hStage
  next stack event hStage =>
    obtain ⟨journal, hTally⟩ := Profiler.tallyAt_quiet ⟨shared.profiler, true⟩ stack event
    rw [hTally] at hAct
    cases hAct
    exact .tally hStage
  next hStage =>
    cases hAct
    exact .rotate hStage
  next hStage =>
    cases hAct
    exact .count hStage
  next includeZeroed hStage =>
    cases hAct
    exact .snapshot includeZeroed hStage
  next t includeZeroed buffer hStage =>
    have hExported : (shared.profiler.attemptMem buffer includeZeroed).2.1 =
        shared.profiler.flushed := rfl
    by_cases hRoom : (shared.profiler.memListed includeZeroed).length ≤ buffer.length
    · rw [Profiler.attemptMem_of_le hRoom, hExported] at hAct
      cases hAct
      exact .copies hStage hRoom
    · have hShort := Nat.lt_of_not_le hRoom
      rw [Profiler.attemptMem_of_lt hShort, hExported] at hAct
      cases hAct
      exact .regrows hStage hShort
  next hStage =>
    cases hAct
    exact .read hStage
  next enabled hStage =>
    cases hAct
    exact .switch enabled hStage
  next => cases hAct

theorem Does.act? (does : shared.Does act next) : shared.act? act = some next := by
  cases does with
  | @tally t stack event hStage =>
    obtain ⟨journal, hTally⟩ := Profiler.tallyAt_quiet ⟨shared.profiler, true⟩ stack event
    simp only [SharedProfiler.act?, Act.thread, hStage, hTally]
  | copies hStage hRoom =>
    simp only [SharedProfiler.act?, Act.thread, hStage, Profiler.attemptMem_of_le hRoom]
    rfl
  | regrows hStage hShort =>
    simp only [SharedProfiler.act?, Act.thread, hStage, Profiler.attemptMem_of_lt hShort]
    rfl
  | record _ _ hStage | rotate hStage | count hStage | snapshot _ hStage | read hStage
  | switch _ hStage => simp only [SharedProfiler.act?, Act.thread, hStage]

/-- An act leaves the other threads where they are. -/
theorem Does.stage_of_ne (does : shared.Does act next) (hOther : act.thread ≠ t) :
    next.stage t = shared.stage t := by
  cases does <;> exact if_neg (Ne.symm hOther)

/-! ## Runs -/

theorem run?_cons (hAct : shared.act? act = some next) (acts : List Act) :
    shared.run? (act :: acts) = next.run? acts := steps_cons hAct acts

/-- What holds at the start and is kept by every act holds wherever a run leads. -/
theorem run_induction {first : SharedProfiler} {motive : List Act → SharedProfiler → Prop}
    (hFirst : motive [] first)
    (hAct : ∀ acts shared act next, first.run? acts = some shared → motive acts shared →
      shared.act? act = some next → motive (acts ++ [act]) next) :
    ∀ acts shared, first.run? acts = some shared → motive acts shared :=
  steps_induction hFirst hAct

/-! ## The past of the table -/

/-- The past of the table after one more act. -/
def mark (shared : SharedProfiler) (past : List Mark) : Act → List Mark
  | .tally t =>
    match shared.stage t with
    | .accepted stack event => past ++ [.accepted stack event]
    | _ => past
  | .rotate _ => past ++ [.rotation]
  | .attempt _ => Mark.flushed past
  | .record .. | .count _ | .snapshot .. | .read _ | .switch .. => past

/-- The past of the table after acts. -/
def pastAfter (shared : SharedProfiler) (past : List Mark) : List Act → List Mark
  | [] => past
  | act :: rest =>
    match shared.act? act with
    | some next => next.pastAfter (shared.mark past act) rest
    | none => past

theorem pastAfter_cons (hAct : shared.act? act = some next) (past : List Mark) (rest : List Act) :
    shared.pastAfter past (act :: rest) = next.pastAfter (shared.mark past act) rest := by
  rw [pastAfter, hAct]

theorem pastAfter_concat {first : SharedProfiler} (hRun : first.run? acts = some shared)
    (hAct : shared.act? act = some next) (past : List Mark) :
    first.pastAfter past (acts ++ [act]) = shared.mark (first.pastAfter past acts) act := by
  induction acts generalizing first past with
  | nil =>
    cases hRun
    exact pastAfter_cons hAct past []
  | cons head rest ih =>
    rw [run?, List.foldlM_cons] at hRun
    obtain ⟨second, hHead, hRest⟩ := Option.bind_eq_some_iff.1 hRun
    rw [List.cons_append, pastAfter_cons hHead, pastAfter_cons hHead]
    exact ih hRest _

theorem Does.reflects {past : List Mark} (does : shared.Does act next)
    (reflects : shared.profiler.table.Reflects past) :
    next.profiler.table.Reflects (shared.mark past act) := by
  cases does with
  | record | count | snapshot | read => exact reflects
  | tally hStage =>
    rw [mark, hStage]
    exact reflects.record _ _
  | rotate => exact reflects.rotate
  | copies | regrows => exact reflects.flush
  | switch enabled => cases enabled <;> exact reflects

/-- The table always reflects the events that were tallied, the cycles that rotated it and what
the attempts at snapshots forced. -/
theorem reflects_of_run? (hRun : (ofSettings settings).run? acts = some shared) :
    shared.profiler.table.Reflects ((ofSettings settings).pastAfter [] acts) := by
  have hStart : (ofSettings settings).profiler.table.Reflects [] :=
    SiteTable.reflects_withCapacity settings.hashChains settings.bucketCapacity
  refine run_induction (motive := fun acts shared =>
    shared.profiler.table.Reflects ((ofSettings settings).pastAfter [] acts)) hStart ?_ acts
    shared hRun
  intro acts shared act next hReached reflects hAct
  rw [pastAfter_concat hReached hAct]
  exact (does_of_act? hAct).reflects reflects

/-! ## Calls that no other thread disturbs -/

theorem run?_does (does : shared.Does act next) (acts : List Act) :
    shared.run? (act :: acts) = next.run? acts := run?_cons does.act? acts

theorem record_alone (hIdle : shared.stage t = .idle) (stack : CallStack) (event : Event) :
    ∃ next, shared.run? (if shared.profiler.enabled then [.record t stack event, .tally t]
        else [.record t stack event]) = some next ∧
      next.profiler = shared.profiler.after (.record stack event) := by
  have hRecord := Does.record stack event hIdle
  rw [Profiler.after_record]
  by_cases hEnabled : shared.profiler.enabled
  · rw [if_pos hEnabled] at hRecord
    rw [if_pos hEnabled, if_pos hEnabled, run?_does hRecord,
      run?_does (.tally (goOn_stage_self _ _ _ _))]
    exact ⟨_, rfl, rfl⟩
  · rw [if_neg hEnabled, if_neg hEnabled, run?_does hRecord]
    exact ⟨_, rfl, rfl⟩

theorem cycle_alone (hIdle : shared.stage t = .idle) :
    ∃ next, shared.run? [.rotate t, .count t] = some next ∧
      next.profiler = shared.profiler.after .cycle := by
  rw [run?_does (.rotate hIdle), run?_does (.count (goOn_stage_self _ _ _ _))]
  exact ⟨_, rfl, rfl⟩

/-- The last attempt at a snapshot, and the read. -/
theorem copy_alone {buffer : List MemRecord}
    (hStage : shared.stage t = .trying includeZeroed buffer)
    (hRoom : (shared.profiler.memListed includeZeroed).length ≤ buffer.length) :
    ∃ next, shared.run? [.attempt t, .read t] = some next ∧
      next.profiler = shared.profiler.flushed ∧
      next.returned = shared.returned ++ [(t, includeZeroed,
        ⟨shared.profiler.memListed includeZeroed, shared.profiler.collectionCycles⟩)] := by
  rw [run?_does (.copies hStage hRoom), run?_does (.read (goOn_stage_self _ _ _ _))]
  exact ⟨_, rfl, rfl, rfl⟩

theorem snapshot_alone (hRun : (ofSettings settings).run? acts = some shared)
    (hIdle : shared.stage t = .idle) (includeZeroed : Bool) :
    ∃ attempts next, attempts ≤ 2 ∧
      shared.run? (.snapshot t includeZeroed ::
        (List.replicate attempts (.attempt t) ++ [.read t])) = some next ∧
      next.profiler = (shared.profiler.memSnapshot includeZeroed).2.1 ∧
      next.returned = shared.returned ++
        [(t, includeZeroed, (shared.profiler.memSnapshot includeZeroed).1)] := by
  have hFlushed : shared.profiler.memListed includeZeroed ≠ [] →
      shared.profiler.flushed.flushed = shared.profiler.flushed :=
    (reflects_of_run? hRun).flushed_flushed
  obtain ⟨hSnapshot, hAfter⟩ := Profiler.memSnapshot_eq includeZeroed hFlushed
  rw [hSnapshot, hAfter]
  let begun := shared.goOn t (.trying includeZeroed []) shared.profiler
  have hBegun : shared.Does (.snapshot t includeZeroed) begun := .snapshot includeZeroed hIdle
  have hTrying : begun.stage t = .trying includeZeroed [] := goOn_stage_self _ _ _ _
  by_cases hNone : shared.profiler.memListed includeZeroed = []
  · obtain ⟨next, hNext, hLeft⟩ := copy_alone hTrying (Nat.le_of_eq (congrArg List.length hNone))
    exact ⟨1, next, by decide, (run?_does hBegun _).trans hNext, hLeft⟩
  · let longer := regrow MemRecord.zero (shared.profiler.memListed includeZeroed).length []
    let again := begun.goOn t (.trying includeZeroed longer) shared.profiler.flushed
    have hAgain : begun.Does (.attempt t) again := .regrows hTrying (List.length_pos_iff.2 hNone)
    have hListed : again.profiler.memListed includeZeroed =
        shared.profiler.memListed includeZeroed := by
      show shared.profiler.flushed.memListed includeZeroed = _
      rw [Profiler.memListed, Profiler.memListed, hFlushed hNone]
    have hRoom : (again.profiler.memListed includeZeroed).length ≤ longer.length := by
      rw [hListed, length_regrow]
      exact Nat.le_add_right _ _
    obtain ⟨next, hNext, hProfiler, hReturned⟩ := copy_alone (goOn_stage_self _ _ _ _) hRoom
    rw [hListed] at hReturned
    exact ⟨2, next, Nat.le_refl 2, ((run?_does hBegun _).trans (run?_does hAgain _)).trans hNext,
      hProfiler.trans (hFlushed hNone), hReturned⟩

/-! ## Cycles -/

def Act.rotates : Act → Bool
  | rotate _ => true
  | _ => false

def Act.counts : Act → Bool
  | count _ => true
  | _ => false

/-- The cycles that have rotated the table. -/
def rotations (acts : List Act) : Nat := acts.countP Act.rotates

/-- The cycles that have been counted. -/
def counted (acts : List Act) : Nat := acts.countP Act.counts

theorem Does.collectionCycles (does : shared.Does act next) :
    next.profiler.collectionCycles = shared.profiler.collectionCycles + counted [act] := by
  cases does with
  | switch enabled => cases enabled <;> rfl
  | record | tally | rotate | count | snapshot | copies | regrows | read => rfl

theorem counted_append (first second : List Act) :
    counted (first ++ second) = counted first + counted second := List.countP_append

theorem rotations_append (first second : List Act) :
    rotations (first ++ second) = rotations first + rotations second := List.countP_append

theorem collectionCycles_of_run? (hRun : (ofSettings settings).run? acts = some shared) :
    shared.profiler.collectionCycles = counted acts := by
  refine run_induction (motive := fun acts shared =>
    shared.profiler.collectionCycles = counted acts) rfl ?_ acts shared hRun
  intro acts shared act next _ ih hAct
  rw [(does_of_act? hAct).collectionCycles, ih, counted_append]

/-- The threads whose cycle has rotated the table but is not counted yet. -/
def Uncounted (shared : SharedProfiler) (threads : List ThreadId) : Prop :=
  threads.Nodup ∧ ∀ u, u ∈ threads ↔ shared.stage u = .rotated

theorem Uncounted.goOn {threads : List ThreadId} (uncounted : shared.Uncounted threads)
    {stage : Stage} (hBefore : shared.stage t ≠ .rotated) (hAfter : stage ≠ .rotated)
    (profiler : Profiler) : (shared.goOn t stage profiler).Uncounted threads := by
  refine ⟨uncounted.1, fun u => ?_⟩
  rw [uncounted.2]
  by_cases hSame : u = t
  · subst hSame
    rw [goOn_stage_self]
    exact ⟨fun hStage => absurd hStage hBefore, fun hStage => absurd hStage hAfter⟩
  · rw [goOn_stage_of_ne hSame]

theorem Does.uncounted (does : shared.Does act next) {threads : List ThreadId}
    (uncounted : shared.Uncounted threads) :
    ∃ others, next.Uncounted others ∧
      rotations [act] + threads.length = counted [act] + others.length := by
  cases does with
  | @rotate t hStage =>
    have hNew : t ∉ threads := by
      rw [uncounted.2, hStage]
      exact Stage.noConfusion
    refine ⟨t :: threads, ⟨List.nodup_cons.2 ⟨hNew, uncounted.1⟩, fun u => ?_⟩, ?_⟩
    · rw [List.mem_cons]
      by_cases hSame : u = t
      · subst hSame
        rw [goOn_stage_self]
        exact iff_of_true (.inl rfl) rfl
      · rw [goOn_stage_of_ne hSame, ← uncounted.2]
        exact or_iff_right hSame
    · exact (Nat.add_comm 1 _).trans (Nat.zero_add _).symm
  | @count t hStage =>
    have hMem : t ∈ threads := (uncounted.2 t).2 hStage
    refine ⟨threads.erase t, ⟨uncounted.1.erase t, fun u => ?_⟩, ?_⟩
    · rw [uncounted.1.mem_erase_iff, uncounted.2]
      by_cases hSame : u = t
      · subst hSame
        rw [goOn_stage_self]
        exact iff_of_false (fun hBoth => hBoth.1 rfl) Stage.noConfusion
      · rw [goOn_stage_of_ne hSame]
        exact and_iff_right hSame
    · have hLength := List.length_erase_add_one hMem
      simp only [rotations, counted, List.countP_singleton, Act.rotates, Act.counts]
      simp
      omega
  | record stack event hStage =>
    refine ⟨threads, uncounted.goOn (by rw [hStage]; exact Stage.noConfusion) ?_ _, rfl⟩
    split <;> exact Stage.noConfusion
  | @read t includeZeroed records hStage =>
    have given : (shared.give t includeZeroed
        ⟨records, shared.profiler.collectionCycles⟩).Uncounted threads := uncounted
    exact ⟨threads, given.goOn (fun hRotated => Stage.noConfusion (hStage.symm.trans hRotated))
      Stage.noConfusion _, rfl⟩
  | tally hStage | snapshot _ hStage | copies hStage | regrows hStage | switch _ hStage =>
    exact ⟨threads, uncounted.goOn (by rw [hStage]; exact Stage.noConfusion) Stage.noConfusion _,
      rfl⟩

/-- Every cycle that has rotated the table has been counted or is about to be. -/
theorem exists_uncounted (hRun : (ofSettings settings).run? acts = some shared) :
    ∃ threads, shared.Uncounted threads ∧ rotations acts = counted acts + threads.length := by
  have hStart : (ofSettings settings).Uncounted [] :=
    ⟨List.nodup_nil, fun u => iff_of_false List.not_mem_nil Stage.noConfusion⟩
  refine run_induction (motive := fun acts shared => ∃ threads, shared.Uncounted threads ∧
    rotations acts = counted acts + threads.length) ⟨[], hStart, rfl⟩ ?_ acts shared hRun
  intro acts shared act next _ ih hAct
  obtain ⟨threads, uncounted, hLength⟩ := ih
  obtain ⟨others, hOthers, hAfter⟩ := (does_of_act? hAct).uncounted uncounted
  refine ⟨others, hOthers, ?_⟩
  rw [rotations_append, counted_append, hLength]
  omega

/-! ## Snapshots -/

/-- The thread has copied the records of the profile at the attempt that was its last act, in the
state `before`. -/
def Copied (settings : Settings) (acts : List Act) (t : ThreadId) (includeZeroed : Bool)
    (records : List MemRecord) (earlier later : List Act) (before : SharedProfiler) : Prop :=
  acts = earlier ++ .attempt t :: later ∧ (∀ act ∈ later, act.thread ≠ t) ∧
    (ofSettings settings).run? earlier = some before ∧
    (∃ buffer, before.stage t = .trying includeZeroed buffer) ∧
    records = before.profiler.memListed includeZeroed

theorem exists_copied (hRun : (ofSettings settings).run? acts = some shared)
    (hStage : shared.stage t = .copied includeZeroed records) :
    ∃ earlier later before, Copied settings acts t includeZeroed records earlier later before := by
  suffices hAll : ∀ t includeZeroed records, shared.stage t = .copied includeZeroed records →
      ∃ earlier later before,
        Copied settings acts t includeZeroed records earlier later before from
    hAll t includeZeroed records hStage
  refine run_induction (motive := fun acts shared => ∀ t includeZeroed records,
    shared.stage t = .copied includeZeroed records → ∃ earlier later before,
      Copied settings acts t includeZeroed records earlier later before)
    (fun _ _ _ hStage => Stage.noConfusion hStage) ?_ acts shared hRun
  intro acts shared act next hReached ih hAct t includeZeroed records hStage
  have does := does_of_act? hAct
  by_cases hOther : act.thread = t
  · subst hOther
    cases does with
    | copies hBefore hRoom =>
      cases (goOn_stage_self _ _ _ _).symm.trans hStage
      exact ⟨acts, [], shared, rfl, fun _ hMem => (List.not_mem_nil hMem).elim, hReached,
        ⟨_, hBefore⟩, rfl⟩
    | record stack event hBefore =>
      have hNext := (goOn_stage_self _ _ _ _).symm.trans hStage
      split at hNext <;> cases hNext
    | tally | rotate | count | snapshot | regrows | read | switch =>
      cases (goOn_stage_self _ _ _ _).symm.trans hStage
  · rw [does.stage_of_ne hOther] at hStage
    obtain ⟨earlier, later, before, rfl, hLater, hCopied⟩ := ih t includeZeroed records hStage
    refine ⟨earlier, later ++ [act], before, ?_, ?_, hCopied⟩
    · rw [List.append_assoc, List.cons_append]
    · exact fun other hMem => (List.mem_append.1 hMem).elim (hLater other)
        fun hLast => List.mem_singleton.1 hLast ▸ hOther

/-- The snapshot shows the table as it was when so many cycles had rotated it. -/
def OfOneMoment (settings : Settings) (acts : List Act) (includeZeroed : Bool)
    (snapshot : MemSnapshot) : Prop :=
  ∃ earlier before, earlier <+: acts ∧ (ofSettings settings).run? earlier = some before ∧
    rotations earlier = snapshot.collectionCycles ∧
    before.profiler.memListed includeZeroed = snapshot.records

/-- How the parts of a snapshot belong together that a thread returns after acts.  Its last
attempt was made after the earlier ones of them, when the cycles of some threads had rotated the
table but were not counted. -/
structure Pairing (settings : Settings) (acts : List Act) (t : ThreadId) (includeZeroed : Bool)
    (snapshot : MemSnapshot) (earlier later : List Act) (before : SharedProfiler)
    (threads : List ThreadId) : Prop where
  copied : Copied settings acts t includeZeroed snapshot.records earlier later before
  uncounted : before.Uncounted threads
  /-- The records are the profile of the past at the attempt. -/
  records :
    let past := Mark.flushed ((ofSettings settings).pastAfter [] earlier)
    snapshot.records = (Mark.profiled past includeZeroed).map (Mark.record past)
  /-- The cycles are those that had been counted at the attempt and those counted since. -/
  cycles : snapshot.collectionCycles + threads.length = rotations earlier + counted later
  /-- They are those that had rotated the table just if no more and no fewer were counted since
  than were missing. -/
  agrees : snapshot.collectionCycles = rotations earlier ↔ counted later = threads.length
  one_moment : counted later = threads.length → OfOneMoment settings acts includeZeroed snapshot

/-- The cycles of a snapshot agree with its records exactly if as many cycles were counted between
its last attempt and the read as had rotated the table before the attempt without being counted. -/
theorem snapshot_pairing (hRun : (ofSettings settings).run? acts = some shared)
    (hRead : shared.act? (.read t) = some next) :
    ∃ includeZeroed snapshot earlier later before threads,
      next.returned = shared.returned ++ [(t, includeZeroed, snapshot)] ∧
      Pairing settings acts t includeZeroed snapshot earlier later before threads := by
  have does := does_of_act? hRead
  cases does with
  | @read t includeZeroed records hStage =>
    obtain ⟨earlier, later, before, copied⟩ := exists_copied hRun hStage
    have ⟨hActs, _, hEarlier, _, hRecords⟩ := copied
    obtain ⟨threads, uncounted, hRotations⟩ := exists_uncounted hEarlier
    have hCycles : shared.profiler.collectionCycles = counted earlier + counted later := by
      rw [collectionCycles_of_run? hRun, hActs, counted_append, counted, counted, counted,
        List.countP_cons_of_neg Bool.false_ne_true]
    have hAgrees : shared.profiler.collectionCycles = rotations earlier ↔
        counted later = threads.length := by
      omega
    refine ⟨includeZeroed, ⟨records, shared.profiler.collectionCycles⟩, earlier, later, before,
      threads, rfl, ⟨copied, uncounted, ?_, ?_, hAgrees, fun hCounted => ?_⟩⟩
    · exact hRecords.trans ((reflects_of_run? hEarlier).memListed_eq includeZeroed)
    · show shared.profiler.collectionCycles + threads.length = _
      omega
    · exact ⟨earlier, before, ⟨_, hActs.symm⟩, hEarlier, (hAgrees.2 hCounted).symm,
        hRecords.symm⟩

/-- Three cycles end before a snapshot is begun, and a fourth one between its last attempt and
the read.  The site has ten bytes up to the fourth rotation, and seventeen after it. -/
def tornRun : List Act :=
  [.record 0 .empty (.allocation 10), .tally 0, .rotate 1, .count 1, .rotate 1, .count 1,
    .record 0 .empty (.allocation 7), .tally 0, .rotate 1, .count 1, .snapshot 2 false,
    .attempt 2, .attempt 2, .rotate 1, .count 1]

theorem snapshot_pairing_torn :
    ∃ shared next, (ofSettings { hashChains := 1 }).run? tornRun = some shared ∧
      shared.act? (.read 2) = some next ∧
      ∃ includeZeroed snapshot earlier later before threads,
        next.returned = shared.returned ++ [(2, includeZeroed, snapshot)] ∧
        Pairing { hashChains := 1 } tornRun 2 includeZeroed snapshot earlier later before
          threads :=
  ⟨_, _, rfl, rfl, snapshot_pairing rfl rfl⟩

/-- The snapshot has four cycles and the record of three: it shows the table at no moment. -/
theorem torn_snapshot :
    ∃ shared snapshot,
      (ofSettings { hashChains := 1 }).run? (tornRun ++ [.read 2]) = some shared ∧
      shared.returned = [(2, false, snapshot)] ∧ snapshot.collectionCycles = 4 ∧
      snapshot.records.map MemRecord.allocBytes = [10] ∧
      ¬ OfOneMoment { hashChains := 1 } (tornRun ++ [.read 2]) false snapshot := by
  let snapshot : MemSnapshot := ⟨[⟨10, 1, 0, 0, .zero⟩], 4⟩
  have hReturned : ((ofSettings { hashChains := 1 }).run? (tornRun ++ [.read 2])).map returned =
      some [(2, false, snapshot)] := by
    decide +kernel
  obtain ⟨shared, hRun, hShared⟩ := Option.map_eq_some_iff.1 hReturned
  refine ⟨shared, snapshot, hRun, hShared, rfl, rfl, ?_⟩
  rintro ⟨earlier, before, hPrefix, hEarlier, hRotations, hRecords⟩
  -- After four rotations the later bytes are in the cumulative generation as well.
  have hOther : ∀ first ∈ (tornRun ++ [Act.read 2]).inits, rotations first = 4 →
      ((ofSettings { hashChains := 1 }).run? first).all
        (fun before => before.profiler.memListed false ≠ snapshot.records) = true := by
    decide +kernel
  have hNe := hOther earlier ((List.mem_inits _ _).2 hPrefix) hRotations
  rw [hEarlier] at hNe
  exact of_decide_eq_true hNe hRecords

end SiteProfiler.SharedProfiler
