import Mathlib.Data.List.Chain
import SiteProfiler.Proofs.Profiler.Flushing

/-!
# Snapshots that try again

A snapshot exports into a buffer of its own and, if that was too short, makes the buffer longer and
exports again.  Between two attempts other threads may do anything at all with the profiler.  Each
attempt asks for some records more than it would have needed, so the next one fails only if the
profile has grown by more than these; as long as there is a bound on the sites, there is one on the
attempts.
-/

namespace SiteProfiler

/-- An export that a snapshot is made with. -/
structure Exporter (α : Type) where
  kind : EventKind
  blank : α
  /-- One export into a buffer, and the profiler after it. -/
  call : Profiler → List α → Export α × Profiler
  /-- The records of the profile. -/
  listing : Profiler → List α
  needed_call : ∀ profiler buffer,
    (call profiler buffer).1.needed = (listing profiler).length
  attempt_of_le : ∀ profiler buffer, (listing profiler).length ≤ buffer.length →
    (call profiler buffer).1.attempt blank = .done (listing profiler)
  attempt_of_lt : ∀ profiler buffer, buffer.length < (listing profiler).length →
    (call profiler buffer).1.attempt blank =
      .short (regrow blank (listing profiler).length buffer)
  threaded_call : ∀ profiler buffer, profiler.table.Threaded →
    (call profiler buffer).2.table.Threaded
  /-- An export does not change what is listed. -/
  listing_call : ∀ profiler buffer, profiler.table.Threaded →
    listing (call profiler buffer).2 = listing profiler
  /-- No more is listed than there are sites of the kind. -/
  length_listing : ∀ profiler : Profiler, profiler.table.Threaded →
    (listing profiler).length ≤ profiler.table.len kind

/-- An attempt of a snapshot. -/
structure Trial where
  /-- The profiler as the attempt finds it. -/
  found : Profiler
  capacity : Nat
  needed : Nat

namespace Trial

def fails (trial : Trial) : Prop := trial.capacity < trial.needed

/-- An attempt and the one after it. -/
def Leads (earlier later : Trial) : Prop :=
  earlier.fails ∧ later.capacity = earlier.needed + snapshotSlack

variable {earlier later : Trial} {trials : List Trial} {bound : Nat}

theorem Leads.capacity_lt (hLeads : earlier.Leads later) : earlier.capacity < later.capacity := by
  obtain ⟨hFails, hCapacity⟩ := hLeads
  unfold fails at hFails
  omega

/-- After a failed attempt another fails only if more is needed by more than the slack. -/
theorem Leads.needed_le (hLeads : earlier.Leads later) (hFails : later.fails) :
    earlier.needed + 51 ≤ later.needed := by
  obtain ⟨-, hCapacity⟩ := hLeads
  unfold fails at hFails
  unfold snapshotSlack at hCapacity
  omega

theorem fails_of_mem_dropLast (hChain : List.IsChain Leads trials) :
    ∀ trial ∈ trials.dropLast, trial.fails := by
  induction trials with
  | nil => exact fun _ hMem => absurd hMem List.not_mem_nil
  | cons first rest ih =>
    cases rest with
    | nil => exact fun _ hMem => absurd hMem List.not_mem_nil
    | cons second more =>
      obtain ⟨hLeads, hRest⟩ := List.isChain_cons_cons.mp hChain
      intro trial hMem
      rw [List.dropLast_cons_cons] at hMem
      rcases List.mem_cons.mp hMem with rfl | hLater
      · exact hLeads.1
      · exact ih hRest trial hLater

/-- Each failed attempt needed that much more than the one before it. -/
theorem needed_add_le {first : Trial} {rest : List Trial}
    (hChain : List.IsChain Leads (first :: rest)) (hFails : ∀ trial ∈ rest, trial.fails)
    (hBound : ∀ trial ∈ first :: rest, trial.needed ≤ bound) :
    first.needed + 51 * rest.length ≤ bound := by
  induction rest generalizing first with
  | nil => exact hBound first List.mem_cons_self
  | cons second more ih =>
    obtain ⟨hLeads, hMore⟩ := List.isChain_cons_cons.mp hChain
    have hGrown := hLeads.needed_le (hFails second List.mem_cons_self)
    have hLater := ih hMore (fun trial hMem => hFails trial (List.mem_cons_of_mem _ hMem))
      fun trial hMem => hBound trial (List.mem_cons_of_mem _ hMem)
    rw [List.length_cons]
    omega

/-- A bound on what is needed is one on the attempts that fail. -/
theorem length_le_of_fails (hChain : List.IsChain Leads trials)
    (hFails : ∀ trial ∈ trials, trial.fails) (hBound : ∀ trial ∈ trials, trial.needed ≤ bound) :
    trials.length ≤ 1 + bound / 51 := by
  cases trials with
  | nil => exact Nat.zero_le _
  | cons first rest =>
    have hSum := needed_add_le hChain
      (fun trial hMem => hFails trial (List.mem_cons_of_mem _ hMem)) hBound
    rw [List.length_cons]
    omega

/-- All attempts but the last fail. -/
theorem length_le (hChain : List.IsChain Leads trials)
    (hBound : ∀ trial ∈ trials, trial.needed ≤ bound) : trials.length ≤ 2 + bound / 51 := by
  have hFailed := length_le_of_fails hChain.dropLast (fails_of_mem_dropLast hChain)
    fun trial hMem => hBound trial (List.dropLast_subset _ hMem)
  rw [List.length_dropLast] at hFailed
  omega

end Trial

namespace Exporter

variable {α : Type} (exporter : Exporter α)

/-- Attempts with ever longer buffers, until one is complete or the given batches are used up.
Before each attempt other threads carry out the requests of a batch. -/
def retry : List (List (ThreadId × Request)) → List α → Session → List Trial × Option (List α)
  | [], _, _ => ([], none)
  | batch :: later, buffer, session =>
    let reached := session.afterAll batch
    let (result, exported) := exporter.call reached.profiler buffer
    let trial : Trial := ⟨reached.profiler, buffer.length, result.needed⟩
    match result.attempt exporter.blank with
    | .done records => ([trial], some records)
    | .short longer =>
      let (trials, records) := retry later longer { reached with profiler := exported }
      (trial :: trials, records)

/-- The first attempt, made after a batch. -/
def tried (batch : List (ThreadId × Request)) (buffer : List α) (session : Session) : Trial where
  found := (session.afterAll batch).profiler
  capacity := buffer.length
  needed := (exporter.listing (session.afterAll batch).profiler).length

section Attempts

variable (batch : List (ThreadId × Request)) (later : List (List (ThreadId × Request)))
  {buffer : List α} {session : Session}

theorem retry_of_le (hRoom : ¬ (exporter.tried batch buffer session).fails) :
    exporter.retry (batch :: later) buffer session =
      ([exporter.tried batch buffer session],
        some (exporter.listing (session.afterAll batch).profiler)) := by
  have hDone := exporter.attempt_of_le _ buffer (Nat.le_of_not_lt hRoom)
  simp only [retry, tried, hDone, exporter.needed_call]

theorem retry_of_lt (hFails : (exporter.tried batch buffer session).fails) :
    let longer := regrow exporter.blank
      (exporter.listing (session.afterAll batch).profiler).length buffer
    let exported := (exporter.call (session.afterAll batch).profiler buffer).2
    let rest := exporter.retry later longer { session.afterAll batch with profiler := exported }
    exporter.retry (batch :: later) buffer session =
      (exporter.tried batch buffer session :: rest.1, rest.2) := by
  have hShort := exporter.attempt_of_lt _ buffer hFails
  simp only [retry, tried, hShort, exporter.needed_call]

end Attempts

/-- What attempts that begin with a buffer of some length come to. -/
structure Course (capacity batches : Nat) (outcome : List Trial × Option (List α)) : Prop where
  chain : List.IsChain Trial.Leads outcome.1
  begins : ∀ trial ∈ outcome.1.head?, trial.capacity = capacity
  found : ∀ trial ∈ outcome.1, trial.found.table.Threaded ∧
    trial.needed = (exporter.listing trial.found).length
  unfinished : outcome.2 = none → outcome.1.length = batches ∧ ∀ trial ∈ outcome.1, trial.fails
  finished : ∀ records, outcome.2 = some records →
    ∃ last, outcome.1.getLast? = some last ∧ records = exporter.listing last.found

namespace Course

variable {exporter} {batches : Nat}

/-- An attempt with room is the only one. -/
theorem single (trial : Trial) (hThreaded : trial.found.table.Threaded)
    (hNeeded : trial.needed = (exporter.listing trial.found).length) :
    exporter.Course trial.capacity (batches + 1)
      ([trial], some (exporter.listing trial.found)) where
  chain := List.isChain_singleton trial
  begins := by
    intro other hHead
    cases hHead
    rfl
  found := by
    intro other hMem
    rw [List.mem_singleton.mp hMem]
    exact ⟨hThreaded, hNeeded⟩
  unfinished := fun hNone => by cases hNone
  finished := fun _ hSome => ⟨trial, rfl, (Option.some.inj hSome).symm⟩

/-- A failed attempt, and those with the buffer made longer for what it needed. -/
theorem retried {trial : Trial} {trials : List Trial} {records? : Option (List α)}
    (hFails : trial.fails) (hThreaded : trial.found.table.Threaded)
    (hNeeded : trial.needed = (exporter.listing trial.found).length)
    (course : exporter.Course (trial.needed + snapshotSlack) batches (trials, records?)) :
    exporter.Course trial.capacity (batches + 1) (trial :: trials, records?) where
  chain := by
    cases trials with
    | nil => exact List.isChain_singleton trial
    | cons second more =>
      exact List.isChain_cons_cons.mpr ⟨⟨hFails, course.begins second rfl⟩, course.chain⟩
  begins := by
    intro other hHead
    cases hHead
    rfl
  found := by
    intro other hMem
    rcases List.mem_cons.mp hMem with rfl | hLater
    · exact ⟨hThreaded, hNeeded⟩
    · exact course.found other hLater
  unfinished := by
    intro hNone
    obtain ⟨hLength, hAll⟩ := course.unfinished hNone
    refine ⟨congrArg Nat.succ hLength, fun other hMem => ?_⟩
    rcases List.mem_cons.mp hMem with rfl | hLater
    · exact hFails
    · exact hAll other hLater
  finished := by
    intro records hSome
    obtain ⟨last, hLast, hListing⟩ := course.finished records hSome
    refine ⟨last, ?_, hListing⟩
    rw [List.getLast?_cons, hLast, Option.getD_some]

end Course

theorem course_retry {session : Session} (threaded : session.profiler.table.Threaded)
    (batches : List (List (ThreadId × Request))) (buffer : List α) :
    exporter.Course buffer.length batches.length (exporter.retry batches buffer session) := by
  induction batches generalizing buffer session with
  | nil =>
    refine ⟨List.isChain_nil, ?_, ?_, ?_, ?_⟩ <;> simp [retry]
  | cons batch later ih =>
    have hReached := Session.threaded_afterAll_of threaded batch
    by_cases hFails : (exporter.tried batch buffer session).fails
    · rw [exporter.retry_of_lt batch later hFails]
      apply Course.retried hFails hReached rfl
      have hExported : ({ session.afterAll batch with
          profiler := (exporter.call (session.afterAll batch).profiler buffer).2 }
            : Session).profiler.table.Threaded := exporter.threaded_call _ buffer hReached
      have hRest := ih hExported
        (regrow exporter.blank (exporter.listing (session.afterAll batch).profiler).length buffer)
      rwa [length_regrow] at hRest
    · rw [exporter.retry_of_le batch later hFails]
      exact Course.single (exporter.tried batch buffer session) hReached rfl

/-- Without other threads the second attempt has room for what the first lacked. -/
theorem retry_quiet {session : Session} (threaded : session.profiler.table.Threaded)
    (later : List (List (ThreadId × Request))) :
    (exporter.retry ([] :: [] :: later) [] session).1.length ≤ 2 ∧
      (exporter.retry ([] :: [] :: later) [] session).2 =
        some (exporter.listing session.profiler) := by
  by_cases hFails : (exporter.tried [] [] session).fails
  · have hListing := exporter.listing_call session.profiler [] threaded
    rw [exporter.retry_of_lt [] ([] :: later) hFails]
    rw [exporter.retry_of_le [] later]
    · exact ⟨Nat.le_refl 2, congrArg some hListing⟩
    · intro hAgain
      have hRoom : (regrow exporter.blank (exporter.listing session.profiler).length []).length =
          (exporter.listing session.profiler).length + snapshotSlack := length_regrow _ []
      change (regrow exporter.blank (exporter.listing session.profiler).length []).length <
        (exporter.listing (exporter.call session.profiler []).2).length at hAgain
      rw [hListing, hRoom] at hAgain
      omega
  · rw [exporter.retry_of_le [] ([] :: later) hFails]
    exact ⟨Nat.le_succ 1, rfl⟩

/-- The leading records of a complete export are the listing. -/
theorem take_call {profiler : Profiler} {buffer : List α}
    (hComplete : (exporter.call profiler buffer).1.complete = true) :
    (exporter.call profiler buffer).1.buffer.take (exporter.call profiler buffer).1.needed =
      exporter.listing profiler := by
  have hDone : (exporter.call profiler buffer).1.attempt exporter.blank =
      .done ((exporter.call profiler buffer).1.buffer.take
        (exporter.call profiler buffer).1.needed) := attempt_of_complete hComplete
  by_cases hRoom : (exporter.listing profiler).length ≤ buffer.length
  · rw [exporter.attempt_of_le _ _ hRoom] at hDone
    exact (Attempt.done.inj hDone).symm
  · rw [exporter.attempt_of_lt _ _ (Nat.lt_of_not_le hRoom)] at hDone
    cases hDone

end Exporter

/-! ## The snapshots -/

theorem SiteTable.Threaded.len_rotate {table : SiteTable} (threaded : table.Threaded)
    (kind : EventKind) : table.rotate.len kind = table.len kind := by
  rw [threaded.rotate_eq]
  cases kind <;> rfl

theorem SiteTable.Threaded.len_flush {table : SiteTable} (threaded : table.Threaded)
    (kind : EventKind) : table.flush.len kind = table.len kind := by
  unfold SiteTable.flush
  split
  · rw [threaded.rotate.len_rotate, threaded.len_rotate]
  · rfl

/-- Attempts at a memory snapshot. -/
def memExporter (includeZeroed : Bool) : Exporter MemRecord where
  kind := .memory
  blank := .zero
  call profiler buffer :=
    ((profiler.memProfile buffer includeZeroed).1, (profiler.memProfile buffer includeZeroed).2.1)
  listing profiler := profiler.memListed includeZeroed
  needed_call := fun profiler buffer => profiler.needed_memProfile buffer includeZeroed
  attempt_of_le := by
    intro profiler buffer hRoom
    rw [← Profiler.attemptMem_of_le hRoom]
    simp only [Profiler.attemptMem]
  attempt_of_lt := by
    intro profiler buffer hShort
    rw [← Profiler.attemptMem_of_lt hShort]
    simp only [Profiler.attemptMem]
  threaded_call := by
    intro profiler buffer threaded
    rw [Profiler.exported_memProfile]
    exact Profiler.threaded_flushed threaded
  listing_call := by
    intro profiler buffer threaded
    have hFlush : profiler.flushed.table.flush = profiler.table.flush := threaded.flush_flush
    rw [Profiler.exported_memProfile]
    exact Profiler.memListed_congr hFlush includeZeroed
  length_listing := by
    intro profiler threaded
    rw [Profiler.memListed, List.length_map, ← threaded.len_flush,
      threaded.flush.len_eq_length_iter]
    exact List.length_filterMap_le _ _

/-- Attempts at a blocking snapshot. -/
def blockExporter : Exporter BlockRecord where
  kind := .blocking
  blank := .zero
  call profiler buffer := ((profiler.blockProfile buffer).1, profiler)
  listing profiler := profiler.blockListed
  needed_call := fun _ _ => (List.length_map _).symm
  attempt_of_le := fun _ _ hRoom => attempt_of_le BlockRecord.overwrites
    (Nat.le_trans (Nat.le_of_eq (List.length_map _).symm) hRoom)
  attempt_of_lt := by
    intro profiler buffer hShort
    rw [Profiler.blockListed, List.length_map] at hShort ⊢
    exact attempt_of_lt hShort
  threaded_call := fun _ _ threaded => threaded
  listing_call := fun _ _ _ => rfl
  length_listing := by
    intro profiler threaded
    rw [Profiler.blockListed, List.length_map, threaded.len_eq_length_iter]
    exact List.length_filterMap_le _ _

/-- A snapshot ends and holds the profile. -/
structure Exporter.Snaps {α : Type} (exporter : Exporter α) (session : Session)
    (snapshot : List α) : Prop where
  /-- It holds what a complete export into any buffer writes, no record more and none less. -/
  exact : ∀ buffer, (exporter.call session.profiler buffer).1.complete = true →
    snapshot = (exporter.call session.profiler buffer).1.buffer.take
        (exporter.call session.profiler buffer).1.needed ∧
      snapshot.length = (exporter.call session.profiler buffer).1.needed
  /-- If no other thread does anything, it is made in two attempts at most. -/
  quiet : ∀ later, (exporter.retry ([] :: [] :: later) [] session).1.length ≤ 2 ∧
    (exporter.retry ([] :: [] :: later) [] session).2 = some snapshot
  /-- Whatever other threads do, the buffer grows at every retry, and one that fails needs at least
  51 records more than the attempt before it. -/
  grows : ∀ batches, List.IsChain (fun earlier later : Trial =>
    earlier.capacity < later.capacity ∧ (later.fails → earlier.needed + 51 ≤ later.needed))
      (exporter.retry batches [] session).1
  /-- What is returned is what the last attempt found. -/
  returned : ∀ batches records, (exporter.retry batches [] session).2 = some records →
    ∃ last, (exporter.retry batches [] session).1.getLast? = some last ∧
      ∀ buffer, (exporter.call last.found buffer).1.complete = true →
        records = (exporter.call last.found buffer).1.buffer.take
          (exporter.call last.found buffer).1.needed
  /-- A bound on the sites is one on the attempts. -/
  ends : ∀ batches bound, (∀ trial ∈ (exporter.retry batches [] session).1,
      trial.found.table.len exporter.kind ≤ bound) →
    (exporter.retry batches [] session).1.length ≤ 2 + bound / 51 ∧
      (2 + bound / 51 ≤ batches.length → (exporter.retry batches [] session).2.isSome = true)

theorem Exporter.snaps {α : Type} (exporter : Exporter α) {session : Session}
    (threaded : session.profiler.table.Threaded) :
    exporter.Snaps session (exporter.listing session.profiler) where
  exact := by
    intro buffer hComplete
    rw [exporter.take_call hComplete, exporter.needed_call]
    exact ⟨rfl, rfl⟩
  quiet := exporter.retry_quiet threaded
  grows := by
    intro batches
    have course := exporter.course_retry threaded batches []
    exact course.chain.imp fun _ _ hLeads => ⟨hLeads.capacity_lt, hLeads.needed_le⟩
  returned := by
    intro batches records hSome
    have course := exporter.course_retry threaded batches []
    obtain ⟨last, hLast, rfl⟩ := course.finished records hSome
    exact ⟨last, hLast, fun buffer hComplete => (exporter.take_call hComplete).symm⟩
  ends := by
    intro batches bound hSites
    have course := exporter.course_retry threaded batches []
    have hBound : ∀ trial ∈ (exporter.retry batches [] session).1, trial.needed ≤ bound := by
      intro trial hMem
      obtain ⟨hThreaded, hNeeded⟩ := course.found trial hMem
      rw [hNeeded]
      exact Nat.le_trans (exporter.length_listing trial.found hThreaded) (hSites trial hMem)
    refine ⟨Trial.length_le course.chain hBound, fun hEnough => ?_⟩
    by_contra hNone
    obtain ⟨hLength, hFails⟩ := course.unfinished (Option.not_isSome_iff_eq_none.mp hNone)
    have hFew := Trial.length_le_of_fails course.chain hFails hBound
    omega

/-- Whatever threads have done with a profiler before, a memory snapshot of either flag and a
blocking snapshot end after few attempts and hold exactly the profile. -/
theorem snapshots_end_exactly (settings : Settings) (inside : ThreadId → Bool)
    (requests : List (ThreadId × Request)) :
    let session := (Session.ofSettings settings inside).afterAll requests
    (∀ includeZeroed, (memExporter includeZeroed).Snaps session
      (session.profiler.memSnapshot includeZeroed).1.records) ∧
    blockExporter.Snaps session session.profiler.blockSnapshot.1.records := by
  intro session
  have threaded := Session.threaded_afterAll settings inside requests
  constructor
  · intro includeZeroed
    rw [(Profiler.memSnapshot_of_threaded threaded includeZeroed).1]
    exact (memExporter includeZeroed).snaps threaded
  · rw [Profiler.blockSnapshot_eq]
    exact blockExporter.snaps threaded

end SiteProfiler
