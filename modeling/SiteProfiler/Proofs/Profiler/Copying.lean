import SiteProfiler.Profiler.Exports
import SiteProfiler.Proofs.Profile.Filling

/-!
# Copies of profiles

A copy either changes nothing or puts one filled record for each item at the front of the buffer.
What a record held before it was filled does not show, so the copy depends on the buffer only
through its length and its tail.  A snapshot therefore gets at its second attempt what a buffer of
sufficient length would have got at once.
-/

namespace SiteProfiler

section Copy

variable {α β : Type} {fill : α → β → α} {blank : α}

/-- Filling overwrites the whole of a record. -/
def Overwrites (fill : α → β → α) (blank : α) : Prop :=
  ∀ record item, fill record item = fill blank item

theorem zipWith_fill (hFill : Overwrites fill blank) :
    ∀ {buffer : List α} {items : List β}, items.length ≤ buffer.length →
      List.zipWith fill buffer items = items.map (fill blank)
  | _, [], _ => by simp
  | [], _ :: _, hRoom => absurd hRoom (Nat.not_succ_le_zero _)
  | record :: buffer, item :: items, hRoom => by
    rw [List.zipWith_cons_cons, List.map_cons, hFill record item,
      zipWith_fill hFill (Nat.le_of_succ_le_succ hRoom)]

theorem copyOut_of_le (hFill : Overwrites fill blank) {buffer : List α} {items : List β}
    (hRoom : items.length ≤ buffer.length) :
    copyOut fill buffer items = items.map (fill blank) ++ buffer.drop items.length := by
  rw [copyOut, if_pos hRoom, zipWith_fill hFill hRoom]

theorem copyOut_of_lt {buffer : List α} {items : List β} (hShort : buffer.length < items.length) :
    copyOut fill buffer items = buffer := by
  rw [copyOut, if_neg (Nat.not_le_of_lt hShort)]

theorem copyOut_nil (buffer : List α) : copyOut fill buffer [] = buffer := by
  simp [copyOut]

theorem copyOut_cons {buffer : List α} {items : List β} (hRoom : items.length ≤ buffer.length)
    (record : α) (item : β) :
    copyOut fill (record :: buffer) (item :: items) =
      fill record item :: copyOut fill buffer items := by
  have hMore : (item :: items).length ≤ (record :: buffer).length := Nat.succ_le_succ hRoom
  rw [copyOut, if_pos hMore, copyOut, if_pos hRoom]
  rfl

/-- Records that are copied as they are. -/
theorem copyOut_records {buffer records : List α} (hRoom : records.length ≤ buffer.length) :
    copyOut (fun _ record => record) buffer records =
      records ++ buffer.drop records.length := by
  have hZip : List.zipWith (fun _ record => record) buffer records = records := by
    rw [← List.map_uncurry_zip_eq_zipWith]
    exact List.map_snd_zip hRoom
  rw [copyOut, if_pos hRoom, hZip]

/-- Copying items is copying the records made of them. -/
theorem Export.of_map (hFill : Overwrites fill blank) (buffer : List α) (items : List β) :
    Export.of fill buffer items =
      Export.of (fun _ record => record) buffer (items.map (fill blank)) := by
  have hBuffer : copyOut fill buffer items =
      copyOut (fun _ record => record) buffer (items.map (fill blank)) := by
    by_cases hRoom : items.length ≤ buffer.length
    · have hLength : (items.map (fill blank)).length ≤ buffer.length := by
        rwa [List.length_map]
      rw [copyOut_of_le hFill hRoom, copyOut_records hLength, List.length_map]
    · have hShort := Nat.lt_of_not_le hRoom
      have hLength : buffer.length < (items.map (fill blank)).length := by
        rwa [List.length_map]
      rw [copyOut_of_lt hShort, copyOut_of_lt hLength]
  rw [Export.of, Export.of, hBuffer, List.length_map]

theorem length_regrow (needed : Nat) (buffer : List α) :
    (regrow blank needed buffer).length = needed + snapshotSlack := by
  simp [regrow]

theorem attempt_of_complete {result : Export α} (hComplete : result.complete = true) :
    result.attempt blank = .done (result.buffer.take result.needed) :=
  if_pos hComplete

theorem attempt_of_le (hFill : Overwrites fill blank) {buffer : List α} {items : List β}
    (hRoom : items.length ≤ buffer.length) :
    (Export.of fill buffer items).attempt blank = .done (items.map (fill blank)) := by
  have hTaken : (items.map (fill blank) ++ buffer.drop items.length).take items.length =
      items.map (fill blank) := by
    rw [List.take_left' (List.length_map _)]
  simp only [Export.attempt, Export.of, decide_eq_true hRoom, if_pos, copyOut_of_le hFill hRoom,
    hTaken]

theorem attempt_of_lt {buffer : List α} {items : List β} (hShort : buffer.length < items.length) :
    (Export.of fill buffer items).attempt blank = .short (regrow blank items.length buffer) := by
  rw [Export.attempt, Export.of, if_neg (by simpa using hShort), copyOut_of_lt hShort]

end Copy

theorem MemRecord.overwrites :
    Overwrites (fun record (site : MemGenerations × CallStack) =>
      MemRecord.fill record site.1 site.2) .zero :=
  fun record site => record.fill_eq site.1 site.2

theorem BlockRecord.overwrites :
    Overwrites (fun record (site : BlockTally × CallStack) =>
      BlockRecord.fill record site.1 site.2) .zero :=
  fun record site => record.fill_eq site.1 site.2

theorem StackRecord.overwrites :
    Overwrites (fun record (worker : Worker) => StackRecord.fill record worker.createStack) .zero :=
  fun record worker => record.fill_eq worker.createStack

namespace Profiler

/-- The profiler after a memory export. -/
def flushed (profiler : Profiler) : Profiler := { profiler with table := profiler.table.flush }

/-- The records of a complete memory profile. -/
def memListed (profiler : Profiler) (includeZeroed : Bool) : List MemRecord :=
  (profiler.flushed.table.memSites includeZeroed).map fun site =>
    MemRecord.zero.fill site.1 site.2

theorem attemptMem_of_le {profiler : Profiler} {includeZeroed : Bool} {buffer : List MemRecord}
    (hRoom : (profiler.memListed includeZeroed).length ≤ buffer.length) :
    (profiler.attemptMem buffer includeZeroed).1 = .done (profiler.memListed includeZeroed) :=
  attempt_of_le MemRecord.overwrites (Nat.le_trans (Nat.le_of_eq (List.length_map _).symm) hRoom)

theorem attemptMem_of_lt {profiler : Profiler} {includeZeroed : Bool} {buffer : List MemRecord}
    (hShort : buffer.length < (profiler.memListed includeZeroed).length) :
    (profiler.attemptMem buffer includeZeroed).1 =
      .short (regrow .zero (profiler.memListed includeZeroed).length buffer) := by
  have hLength : (profiler.memListed includeZeroed).length =
      (profiler.flushed.table.memSites includeZeroed).length := List.length_map _
  rw [hLength] at hShort ⊢
  exact attempt_of_lt hShort

theorem memRecords_of_le {profiler : Profiler} {includeZeroed : Bool} {buffer : List MemRecord}
    (hRoom : (profiler.memListed includeZeroed).length ≤ buffer.length) (retries : Nat) :
    (memRecords includeZeroed retries buffer profiler).1 = profiler.memListed includeZeroed ∧
      (memRecords includeZeroed retries buffer profiler).2.1 = profiler.flushed := by
  have hFirst := attemptMem_of_le hRoom
  unfold memRecords
  split
  next records exported journal hAttempt =>
    rw [hAttempt] at hFirst
    refine ⟨Attempt.done.inj hFirst, ?_⟩
    exact congrArg (·.2.1) hAttempt.symm
  next longer exported journal hAttempt =>
    rw [hAttempt] at hFirst
    cases hFirst

/-- A buffer that is too short is regrown for the next attempt. -/
theorem memRecords_of_lt {profiler : Profiler} {includeZeroed : Bool} {buffer : List MemRecord}
    (hShort : buffer.length < (profiler.memListed includeZeroed).length) (retries : Nat) :
    let longer := regrow .zero (profiler.memListed includeZeroed).length buffer
    (memRecords includeZeroed (retries + 1) buffer profiler).1 =
        (memRecords includeZeroed retries longer profiler.flushed).1 ∧
      (memRecords includeZeroed (retries + 1) buffer profiler).2.1 =
        (memRecords includeZeroed retries longer profiler.flushed).2.1 := by
  have hFirst := attemptMem_of_lt hShort
  rw [memRecords]
  split
  next records exported journal hAttempt =>
    rw [hAttempt] at hFirst
    cases hFirst
  next longer exported journal hAttempt =>
    rw [hAttempt] at hFirst
    have hExported : exported = profiler.flushed := congrArg (·.2.1) hAttempt.symm
    rw [← hExported, ← Attempt.short.inj hFirst]
    exact ⟨rfl, rfl⟩

/-- No records are returned if the last buffer is too short. -/
theorem memRecords_zero_of_lt {profiler : Profiler} {includeZeroed : Bool}
    {buffer : List MemRecord}
    (hShort : buffer.length < (profiler.memListed includeZeroed).length) :
    (memRecords includeZeroed 0 buffer profiler).1 = [] := by
  have hFirst := attemptMem_of_lt hShort
  rw [memRecords]
  split
  next records exported journal hAttempt =>
    rw [hAttempt] at hFirst
    cases hFirst
  next longer exported journal hAttempt => rfl

/-- A snapshot holds the records of a complete profile, if flushing again changes nothing. -/
theorem memSnapshot_eq {profiler : Profiler} (includeZeroed : Bool)
    (hFlushed : profiler.memListed includeZeroed ≠ [] →
      profiler.flushed.flushed = profiler.flushed) :
    (profiler.memSnapshot includeZeroed).1 =
        ⟨profiler.memListed includeZeroed, profiler.collectionCycles⟩ ∧
      (profiler.memSnapshot includeZeroed).2.1 = profiler.flushed := by
  suffices hRecords :
      (memRecords includeZeroed 1 [] profiler).1 = profiler.memListed includeZeroed ∧
        (memRecords includeZeroed 1 [] profiler).2.1 = profiler.flushed by
    simp only [memSnapshot, hRecords.1, hRecords.2]
    exact ⟨rfl, trivial⟩
  by_cases hNone : profiler.memListed includeZeroed = []
  · exact memRecords_of_le (by simp [hNone]) 1
  · have hAgain := hFlushed hNone
    have hListed : profiler.flushed.memListed includeZeroed = profiler.memListed includeZeroed := by
      rw [memListed, memListed, hAgain]
    have hShort : ([] : List MemRecord).length < (profiler.memListed includeZeroed).length :=
      List.length_pos_iff.mpr hNone
    obtain ⟨hRecords, hExported⟩ := memRecords_of_lt hShort 0
    have hRoom : (profiler.flushed.memListed includeZeroed).length ≤
        (regrow MemRecord.zero (profiler.memListed includeZeroed).length []).length := by
      rw [length_regrow, hListed]
      exact Nat.le_add_right _ _
    have hSecond := memRecords_of_le hRoom 0
    exact ⟨hRecords.trans (hSecond.1.trans hListed), hExported.trans (hSecond.2.trans hAgain)⟩

/-- The records of a complete blocking profile. -/
def blockListed (profiler : Profiler) : List BlockRecord :=
  profiler.table.blockSites.map fun site => BlockRecord.zero.fill site.1 site.2

theorem blockRecords_of_le {profiler : Profiler} {buffer : List BlockRecord}
    (hRoom : profiler.table.blockSites.length ≤ buffer.length) (retries : Nat) :
    (blockRecords retries buffer profiler).1 = profiler.blockListed := by
  have hFirst : (profiler.attemptBlock buffer).1 = .done profiler.blockListed :=
    attempt_of_le BlockRecord.overwrites hRoom
  unfold blockRecords
  split
  next records journal hAttempt =>
    rw [hAttempt] at hFirst
    exact Attempt.done.inj hFirst
  next longer journal hAttempt =>
    rw [hAttempt] at hFirst
    cases hFirst

/-- Nothing changes between the attempts at a blocking snapshot, so the second has room. -/
theorem blockSnapshot_eq (profiler : Profiler) :
    profiler.blockSnapshot.1 = ⟨profiler.blockListed⟩ := by
  suffices hRecords : (blockRecords 1 [] profiler).1 = profiler.blockListed by
    simp only [blockSnapshot, hRecords]
  by_cases hNone : profiler.table.blockSites.length ≤ ([] : List BlockRecord).length
  · exact blockRecords_of_le hNone 1
  · have hFirst : (profiler.attemptBlock []).1 =
        .short (regrow BlockRecord.zero profiler.table.blockSites.length []) :=
      attempt_of_lt (Nat.lt_of_not_le hNone)
    rw [blockRecords]
    split
    next records journal hAttempt =>
      rw [hAttempt] at hFirst
      cases hFirst
    next longer journal hAttempt =>
      rw [hAttempt] at hFirst
      obtain rfl := Attempt.short.inj hFirst
      refine blockRecords_of_le ?_ 0
      rw [length_regrow]
      exact Nat.le_add_right _ _

end Profiler

end SiteProfiler
