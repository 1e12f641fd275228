import SiteProfiler.Proofs.Profiler.Retrying
import SiteProfiler.Proofs.Site.SlotStacks

/-!
# The identity of stacks

A call stack is what is left of the addresses of an event, and it is all that tells the sites of a
profile apart.  Nothing of it is lost on the way to a record: what is read back from the record is
the frames, and makes the same call stack again.  As the table keeps one bucket for each stack of a
kind, no two records of a profile have the same stack.
-/

namespace SiteProfiler

/-- Items picked from a list with their names are named in the order of the list. -/
theorem map_filterMap_sublist {α β γ : Type} {pick : α → Option β} {name : α → γ} {named : β → γ}
    (hName : ∀ source item, pick source = some item → named item = name source) :
    ∀ sources : List α, ((sources.filterMap pick).map named).Sublist (sources.map name)
  | [] => List.Sublist.refl _
  | source :: rest => by
    have ih := map_filterMap_sublist hName rest
    cases hPick : pick source with
    | none =>
      rw [List.filterMap_cons_none hPick]
      exact ih.cons (name source)
    | some item =>
      rw [List.filterMap_cons_some hPick, List.map_cons, hName source item hPick]
      exact ih.cons_cons (name source)

theorem CallStack.frames_injective : Function.Injective CallStack.frames :=
  fun _ _ hFrames => CallStack.ext hFrames

theorem CallStack.ofAddresses_frames (stack : CallStack) : ofAddresses stack.frames = stack := by
  apply CallStack.ext
  have hNonzero : ∀ pc ∈ stack.frames, decide (pc ≠ 0) = true :=
    fun pc hMem => decide_eq_true (stack.nonzero pc hMem)
  exact (congrArg _ (List.filter_eq_self.mpr hNonzero)).trans
    (List.take_of_length_le stack.length_le)

namespace SiteTable

variable {table : SiteTable}

/-- The buckets of a kind are told apart by their stacks alone. -/
theorem Threaded.nodup_stacks (threaded : table.Threaded) (kind : EventKind) :
    ((table.iter kind).map Bucket.stack).Nodup := by
  have hKeys : ((table.iter kind).map Bucket.key).Nodup := by
    rw [threaded.iter_eq]
    exact threaded.distinct.sublist (List.filter_sublist.map Bucket.key)
  have hKind : (table.iter kind).map Bucket.key =
      ((table.iter kind).map Bucket.stack).map (Prod.mk kind) := by
    rw [List.map_map]
    apply List.map_congr_left
    intro bucket hMem
    rw [threaded.iter_eq] at hMem
    exact congrArg (Prod.mk · bucket.stack) (of_decide_eq_true (List.mem_filter.mp hMem).2)
  rw [hKind] at hKeys
  exact hKeys.of_map _

theorem Threaded.nodup_memSites (threaded : table.Threaded) (includeZeroed : Bool) :
    ((table.memSites includeZeroed).map Prod.snd).Nodup := by
  refine (threaded.nodup_stacks .memory).sublist (map_filterMap_sublist ?_ _)
  intro bucket site hPick
  split at hPick
  · split at hPick
    · cases hPick
      rfl
    · cases hPick
  · cases hPick

theorem Threaded.nodup_blockSites (threaded : table.Threaded) :
    (table.blockSites.map Prod.snd).Nodup := by
  refine (threaded.nodup_stacks .blocking).sublist (map_filterMap_sublist ?_ _)
  intro bucket site hPick
  obtain ⟨tally, -, rfl⟩ := Option.map_eq_some_iff.mp hPick
  rfl

end SiteTable

namespace Profiler

variable {profiler : Profiler}

theorem nodup_memListed (threaded : profiler.table.Threaded) (includeZeroed : Bool) :
    ((profiler.memListed includeZeroed).map MemRecord.stack).Nodup := by
  have hSites := threaded.flush.nodup_memSites includeZeroed
  have hStacks : (profiler.memListed includeZeroed).map MemRecord.stack =
      ((profiler.flushed.table.memSites includeZeroed).map Prod.snd).map CallStack.frames := by
    rw [memListed, List.map_map, List.map_map]
    exact List.map_congr_left fun site _ => MemRecord.stack_fill .zero site.1 site.2
  rw [hStacks]
  exact hSites.map CallStack.frames_injective

theorem nodup_blockListed (threaded : profiler.table.Threaded) :
    (profiler.blockListed.map BlockRecord.stack).Nodup := by
  have hStacks : profiler.blockListed.map BlockRecord.stack =
      (profiler.table.blockSites.map Prod.snd).map CallStack.frames := by
    rw [blockListed, List.map_map, List.map_map]
    exact List.map_congr_left fun site _ => BlockRecord.stack_fill .zero site.1 site.2
  rw [hStacks]
  exact threaded.nodup_blockSites.map CallStack.frames_injective

/-- No two records of a complete profile, or of a snapshot, have the same stack. -/
structure TellsApart (profiler : Profiler) : Prop where
  memProfile : ∀ buffer includeZeroed,
    let result := (profiler.memProfile buffer includeZeroed).1
    result.complete = true → ((result.buffer.take result.needed).map MemRecord.stack).Nodup
  blockProfile : ∀ buffer,
    let result := (profiler.blockProfile buffer).1
    result.complete = true → ((result.buffer.take result.needed).map BlockRecord.stack).Nodup
  memSnapshot : ∀ includeZeroed,
    ((profiler.memSnapshot includeZeroed).1.records.map MemRecord.stack).Nodup
  blockSnapshot : (profiler.blockSnapshot.1.records.map BlockRecord.stack).Nodup

theorem tellsApart (threaded : profiler.table.Threaded) : profiler.TellsApart where
  memProfile := by
    intro buffer includeZeroed result hComplete
    have hRecords : result.buffer.take result.needed = profiler.memListed includeZeroed :=
      take_memProfile hComplete
    rw [hRecords]
    exact nodup_memListed threaded includeZeroed
  blockProfile := by
    intro buffer result hComplete
    have hRecords : result.buffer.take result.needed = profiler.blockListed :=
      blockExporter.take_call hComplete
    rw [hRecords]
    exact nodup_blockListed threaded
  memSnapshot := by
    intro includeZeroed
    rw [(memSnapshot_of_threaded threaded includeZeroed).1]
    exact nodup_memListed threaded includeZeroed
  blockSnapshot := by
    rw [blockSnapshot_eq]
    exact nodup_blockListed threaded

end Profiler

namespace CallStack

/-- The leading nonzero addresses, as many as a call stack can hold. -/
def leading (addresses : List Address) : List Address :=
  (addresses.filter (· ≠ 0)).take maxFrames

/-- Nothing of a call stack is lost: whatever row of slots holds it, and whatever a record or a
field held before. -/
structure Survives (stack : CallStack) : Prop where
  /-- The hash is that of the frames, whatever is in the slots not in use. -/
  hash_eq : ∀ row : SlotStack, row.Holds stack → ∀ seed, row.hash seed = stack.mix seed
  /-- What is read back from a record is the frames, and makes the same call stack. -/
  memRecord : ∀ (record : MemRecord) (gens : MemGenerations),
    (record.fill gens stack).stack = stack.frames ∧
      ofAddresses (record.fill gens stack).stack = stack
  blockRecord : ∀ (record : BlockRecord) (tally : BlockTally),
    (record.fill tally stack).stack = stack.frames ∧
      ofAddresses (record.fill tally stack).stack = stack
  stackRecord : ∀ record : StackRecord,
    (record.fill stack).stack = stack.frames ∧ ofAddresses (record.fill stack).stack = stack
  /-- Copied to a field of some memory, slot by slot, a stack fills the field with its frames and
  then zeros, and every other place stays as it was. -/
  copyTo_eq : ∀ row : SlotStack, row.Holds stack → ∀ before field after,
    row.copyTo before.length field.length (before ++ field ++ after) =
      before ++ (stack.frames.take field.length ++
        List.replicate (field.length - stack.depth) 0) ++ after
  /-- So does a field that is copied to by itself. -/
  getElem?_copyInto : ∀ (field : List Address) place,
    (stack.copyInto field)[place]? = field[place]?.map fun _ => stack.frames.getD place 0
  /-- No frame past the width of the field is read. -/
  reads : ∀ (row other : SlotStack) (width : Nat), row.Holds stack →
    other.frames.take width = stack.frames.take width →
      ∀ start memory, other.copyTo start width memory = row.copyTo start width memory

theorem survives (stack : CallStack) : stack.Survives where
  hash_eq := fun row holds seed => holds.hash_eq seed
  memRecord := by
    intro record gens
    rw [record.stack_fill gens stack]
    exact ⟨rfl, stack.ofAddresses_frames⟩
  blockRecord := by
    intro record tally
    rw [record.stack_fill tally stack]
    exact ⟨rfl, stack.ofAddresses_frames⟩
  stackRecord := by
    intro record
    rw [record.stack_fill stack]
    exact ⟨rfl, stack.ofAddresses_frames⟩
  copyTo_eq := fun row holds => holds.copyTo_eq
  getElem?_copyInto := stack.getElem?_copyInto
  reads := by
    intro row other width holds hFrames start memory
    exact SlotStack.copyTo_congr (hFrames.trans (congrArg _ holds.symm)) start memory

end CallStack

/-- A call stack is the leading nonzero addresses of an event and nothing else, as gathered address
by address; it survives into every record; and whatever threads have done with a profiler, its
profiles tell their records apart by their stacks. -/
theorem stack_identity_survives :
    (∀ addresses, (SlotStack.gather addresses).frames = CallStack.leading addresses ∧
      (SlotStack.gather addresses).Holds (.ofAddresses addresses)) ∧
    (∀ addresses others,
      (CallStack.ofAddresses addresses = CallStack.ofAddresses others ↔
        CallStack.leading addresses = CallStack.leading others) ∧
      (CallStack.leading addresses = CallStack.leading others → ∀ seed,
        (SlotStack.gather addresses).hash seed = (SlotStack.gather others).hash seed)) ∧
    (∀ stack : CallStack, stack.Survives) ∧
    ∀ (settings : Settings) (inside : ThreadId → Bool) (requests : List (ThreadId × Request)),
      ((Session.ofSettings settings inside).afterAll requests).profiler.TellsApart := by
  refine ⟨fun addresses => ⟨SlotStack.holds_gather addresses, SlotStack.holds_gather addresses⟩,
    ?_, CallStack.survives, fun settings inside requests =>
      Profiler.tellsApart (Session.threaded_afterAll settings inside requests)⟩
  intro addresses others
  have hEq : CallStack.ofAddresses addresses = CallStack.ofAddresses others ↔
      CallStack.leading addresses = CallStack.leading others :=
    CallStack.ext_iff
  refine ⟨hEq, fun hLeading seed => ?_⟩
  rw [(SlotStack.holds_gather addresses).hash_eq, (SlotStack.holds_gather others).hash_eq,
    hEq.mpr hLeading]

end SiteProfiler
