import Mathlib.Algebra.Order.BigOperators.Group.List
import Mathlib.Algebra.Ring.Int.Defs
import SiteProfiler.Proofs.Profiler.Flushing
import SiteProfiler.Proofs.Profiler.History

/-!
# Totals of snapshots

A snapshot adds up what is left at its sites from the first record to the last and cuts after every
addition.  What a cut takes away is lost for the records that follow, so a total is the exact sum
cut to a range that may be narrower than that of the exported numbers: it reaches from what the same
additions make of the smallest number to what they make of the largest.  The order of the records
makes no difference exactly if sites of both signs cannot meet a cut: no site has freed more than it
has allocated, or none has allocated more than it has freed, or the sites of either kind by
themselves stay in range.  Then, and only then, the total is the exact sum cut once in every order.
-/

namespace SiteProfiler

/-! ## Adding up with cuts -/

/-- Adds up exact numbers from the left, cutting after every addition. -/
def cutTotal (start : Int) (values : List Int) : Int :=
  values.foldl (fun sum value => cutInt (sum + value)) start

theorem toInt_foldl_signedSum (start : Int64) (values : List Int64) :
    (values.foldl signedSum start).toInt = cutTotal start.toInt (values.map Int64.toInt) := by
  induction values generalizing start with
  | nil => rfl
  | cons value rest ih =>
    rw [List.foldl_cons, ih, signedSum, toInt_signedOfInt]
    rfl

theorem toInt_signedTotal (values : List Int64) :
    (signedTotal values).toInt = cutTotal 0 (values.map Int64.toInt) :=
  toInt_foldl_signedSum 0 values

theorem signedMin_le_cutInt (value : Int) : signedMin ≤ cutInt value := by
  unfold cutInt
  omega

theorem cutInt_le_signedMax (value : Int) : cutInt value ≤ signedMax := by
  unfold cutInt signedMin signedMax
  omega

theorem cutInt_of_mem {value : Int} (hLow : signedMin ≤ value) (hHigh : value ≤ signedMax) :
    cutInt value = value := by
  unfold cutInt
  omega

theorem cutInt_mono {low high : Int} (hLe : low ≤ high) : cutInt low ≤ cutInt high := by
  unfold cutInt
  omega

theorem cutTotal_append (start : Int) (values more : List Int) :
    cutTotal start (values ++ more) = cutTotal (cutTotal start values) more :=
  List.foldl_append

theorem cutTotal_concat (start : Int) (values : List Int) (value : Int) :
    cutTotal start (values ++ [value]) = cutInt (cutTotal start values + value) :=
  cutTotal_append start values [value]

theorem cutTotal_mono {start other : Int} (hLe : start ≤ other) (values : List Int) :
    cutTotal start values ≤ cutTotal other values := by
  induction values generalizing start other with
  | nil => exact hLe
  | cons value rest ih => exact ih (cutInt_mono (Int.add_le_add_right hLe value))

theorem cutTotal_mem {start : Int} (hLow : signedMin ≤ start) (hHigh : start ≤ signedMax)
    (values : List Int) :
    signedMin ≤ cutTotal start values ∧ cutTotal start values ≤ signedMax := by
  induction values generalizing start with
  | nil => exact ⟨hLow, hHigh⟩
  | cons value rest ih => exact ih (signedMin_le_cutInt _) (cutInt_le_signedMax _)

/-- From any start the cuts come to one: the exact sum is cut to the range between what the same
additions make of the ends of the whole range. -/
theorem cutTotal_eq {start : Int} (hLow : signedMin ≤ start) (hHigh : start ≤ signedMax)
    (values : List Int) :
    cutTotal start values =
      max (cutTotal signedMin values) (min (start + values.sum) (cutTotal signedMax values)) := by
  induction values using List.reverseRecOn with
  | nil =>
    simp only [cutTotal, List.foldl_nil, List.sum_nil]
    omega
  | append_singleton values value ih =>
    have hMono : Monotone fun sum => cutInt (sum + value) :=
      fun _ _ hLe => cutInt_mono (Int.add_le_add_right hLe value)
    have hStep : cutTotal start (values ++ [value]) =
        max (cutTotal signedMin (values ++ [value]))
          (min (cutInt (start + values.sum + value)) (cutTotal signedMax (values ++ [value]))) := by
      rw [cutTotal_concat, cutTotal_concat, cutTotal_concat, ih]
      exact hMono.map_max.trans (congrArg _ hMono.map_min)
    -- The cut of the exact sum is not seen: the two ends are in range themselves.
    have hLowEnd : signedMin ≤ cutTotal signedMin (values ++ [value]) :=
      (cutTotal_mem (by decide) (by decide) _).1
    have hHighEnd : cutTotal signedMax (values ++ [value]) ≤ signedMax :=
      (cutTotal_mem (by decide) (by decide) _).2
    rw [hStep, List.sum_append, List.sum_singleton, ← Int.add_assoc, cutInt]
    omega

theorem sum_nonpos {values : List Int} (hSign : ∀ value ∈ values, value ≤ 0) :
    values.sum ≤ 0 := by
  have hSum := List.sum_le_card_nsmul values 0 hSign
  rwa [nsmul_zero] at hSum

/-- How a number goes with exact values whose sum it should be. -/
structure CutSum (number : Int) (values : List Int) : Prop where
  /-- It is the exact sum, cut to what additions with cuts make of the ends of the range. -/
  cut : number =
    max (cutTotal signedMin values) (min values.sum (cutTotal signedMax values))
  /-- It is the exact sum cut to the whole range unless the sum lies beyond an end that moves. -/
  exact_iff : number = cutInt values.sum ↔
    (cutTotal signedMin values ≤ values.sum ∨ cutTotal signedMin values = signedMin) ∧
      (values.sum ≤ cutTotal signedMax values ∨ cutTotal signedMax values = signedMax)

theorem cutSum_cutTotal (values : List Int) : CutSum (cutTotal 0 values) values := by
  have hCut : cutTotal 0 values =
      max (cutTotal signedMin values) (min (0 + values.sum) (cutTotal signedMax values)) :=
    cutTotal_eq (by decide) (by decide) values
  have hLow : signedMin ≤ cutTotal signedMin values ∧ cutTotal signedMin values ≤ signedMax :=
    cutTotal_mem (by decide) (by decide) values
  have hHigh : signedMin ≤ cutTotal signedMax values ∧ cutTotal signedMax values ≤ signedMax :=
    cutTotal_mem (by decide) (by decide) values
  have hLe : cutTotal signedMin values ≤ cutTotal signedMax values :=
    cutTotal_mono (by decide) values
  rw [Int.zero_add] at hCut
  refine ⟨hCut, ?_⟩
  rw [hCut]
  unfold cutInt
  omega

/-- Values of one sign meet only one end of the range, and from there they do not come back. -/
theorem cutTotal_of_one_sign {start : Int} {values : List Int} (hLow : signedMin ≤ start)
    (hHigh : start ≤ signedMax)
    (hSign : (∀ value ∈ values, 0 ≤ value) ∨ ∀ value ∈ values, value ≤ 0) :
    cutTotal start values = cutInt (start + values.sum) := by
  induction values generalizing start with
  | nil =>
    rw [List.sum_nil, Int.add_zero, cutInt_of_mem hLow hHigh]
    rfl
  | cons value rest ih =>
    simp only [List.forall_mem_cons] at hSign
    have hTail := ih (signedMin_le_cutInt (start + value)) (cutInt_le_signedMax _)
      (hSign.imp And.right And.right)
    have hSides : 0 ≤ value ∧ 0 ≤ rest.sum ∨ value ≤ 0 ∧ rest.sum ≤ 0 :=
      hSign.imp (And.imp_right List.sum_nonneg) (And.imp_right sum_nonpos)
    change cutTotal (cutInt (start + value)) rest = _
    rw [hTail, List.sum_cons]
    unfold cutInt
    simp only [signedMin, signedMax] at *
    omega

/-- All values of one sign, and after them all of one sign. -/
theorem cutTotal_of_two_signs {first second : List Int}
    (hFirst : (∀ value ∈ first, 0 ≤ value) ∨ ∀ value ∈ first, value ≤ 0)
    (hSecond : (∀ value ∈ second, 0 ≤ value) ∨ ∀ value ∈ second, value ≤ 0) :
    cutTotal 0 (first ++ second) = cutInt (cutInt first.sum + second.sum) := by
  have hReached : cutTotal 0 first = cutInt (0 + first.sum) :=
    cutTotal_of_one_sign (by decide) (by decide) hFirst
  rw [cutTotal_append, hReached, Int.zero_add]
  exact cutTotal_of_one_sign (signedMin_le_cutInt _) (cutInt_le_signedMax _) hSecond

/-! ## The order of what is added up -/

/-- What the values that are not negative add up to. -/
def gains (values : List Int) : Int := (values.filter (0 ≤ ·)).sum

/-- What the negative values add up to. -/
def losses (values : List Int) : Int := (values.filter (· < 0)).sum

theorem gains_cons (value : Int) (rest : List Int) :
    gains (value :: rest) = max value 0 + gains rest := by
  by_cases hGain : 0 ≤ value
  · simp [gains, hGain]
  · simp [gains, hGain, Int.le_of_lt (Int.not_le.mp hGain)]

theorem losses_cons (value : Int) (rest : List Int) :
    losses (value :: rest) = min value 0 + losses rest := by
  by_cases hLoss : value < 0
  · simp [losses, hLoss, Int.le_of_lt hLoss]
  · simp [losses, hLoss, Int.not_lt.mp hLoss]

theorem nonneg_of_mem_filter (values : List Int) : ∀ value ∈ values.filter (0 ≤ ·), 0 ≤ value :=
  fun _ hMem => of_decide_eq_true (List.mem_filter.mp hMem).2

theorem nonpos_of_mem_filter (values : List Int) : ∀ value ∈ values.filter (· < 0), value ≤ 0 :=
  fun _ hMem => Int.le_of_lt (of_decide_eq_true (List.mem_filter.mp hMem).2)

theorem gains_nonneg (values : List Int) : 0 ≤ gains values :=
  List.sum_nonneg (nonneg_of_mem_filter values)

theorem losses_nonpos (values : List Int) : losses values ≤ 0 :=
  sum_nonpos (nonpos_of_mem_filter values)

/-- Whether adding up cannot lose by a cut what would count later: the values have one sign, or
those of either sign stay in range by themselves. -/
def Steady (values : List Int) : Prop :=
  (∀ value ∈ values, 0 ≤ value) ∨ (∀ value ∈ values, value ≤ 0) ∨
    gains values ≤ signedMax ∧ signedMin ≤ losses values

theorem Steady.perm {values others : List Int} (steady : Steady values)
    (hPerm : others.Perm values) : Steady others := by
  have hGains : gains others = gains values := (hPerm.filter _).sum_eq
  have hLosses : losses others = losses values := (hPerm.filter _).sum_eq
  unfold Steady
  rw [hGains, hLosses]
  exact steady.imp (fun hAll value hMem => hAll value (hPerm.mem_iff.mp hMem))
    (Or.imp_left fun hAll value hMem => hAll value (hPerm.mem_iff.mp hMem))

/-- Nothing is cut if the values of either sign stay in range. -/
theorem cutTotal_of_fits {start : Int} {values : List Int}
    (hGains : start + gains values ≤ signedMax) (hLosses : signedMin ≤ start + losses values) :
    cutTotal start values = start + values.sum := by
  induction values generalizing start with
  | nil => exact (Int.add_zero start).symm
  | cons value rest ih =>
    have hGain := gains_nonneg rest
    have hLoss := losses_nonpos rest
    rw [gains_cons] at hGains
    rw [losses_cons] at hLosses
    change cutTotal (cutInt (start + value)) rest = _
    rw [cutInt_of_mem (by omega) (by omega), ih (by omega) (by omega), List.sum_cons]
    omega

theorem Steady.cutTotal_eq {values : List Int} (steady : Steady values) :
    cutTotal 0 values = cutInt values.sum := by
  have hOne : (∀ value ∈ values, 0 ≤ value) ∨ (∀ value ∈ values, value ≤ 0) →
      cutTotal 0 values = cutInt values.sum := by
    intro hSign
    rw [cutTotal_of_one_sign (by decide) (by decide) hSign, Int.zero_add]
  rcases steady with hGain | hLoss | ⟨hGains, hLosses⟩
  · exact hOne (.inl hGain)
  · exact hOne (.inr hLoss)
  · have hFits : cutTotal 0 values = 0 + values.sum :=
      cutTotal_of_fits (by omega) (by omega)
    have hMem : signedMin ≤ cutTotal 0 values ∧ cutTotal 0 values ≤ signedMax :=
      cutTotal_mem (by decide) (by decide) values
    rw [hFits, Int.zero_add] at hMem ⊢
    exact (cutInt_of_mem hMem.1 hMem.2).symm

theorem le_gains {value : Int} {values : List Int} (hMem : value ∈ values) :
    value ≤ gains values := by
  induction values with
  | nil => cases hMem
  | cons first rest ih =>
    rw [gains_cons]
    have hRest := gains_nonneg rest
    rcases List.mem_cons.mp hMem with rfl | hLater
    · omega
    · have hLe := ih hLater
      omega

theorem losses_le {value : Int} {values : List Int} (hMem : value ∈ values) :
    losses values ≤ value := by
  induction values with
  | nil => cases hMem
  | cons first rest ih =>
    rw [losses_cons]
    have hRest := losses_nonpos rest
    rcases List.mem_cons.mp hMem with rfl | hLater
    · omega
    · have hLe := ih hLater
      omega

/-- Gains before losses and losses before gains already tell: unless the values are steady, one of
the two meets an end of the range that the other does not. -/
theorem steady_of_agree {values : List Int}
    (hAgree : cutTotal 0 (values.filter (0 ≤ ·) ++ values.filter fun value => !decide (0 ≤ value)) =
      cutTotal 0 (values.filter (· < 0) ++ values.filter fun value => !decide (value < 0))) :
    Steady values := by
  simp only [← decide_not, Int.not_le, Int.not_lt] at hAgree
  have hGain := nonneg_of_mem_filter values
  have hLoss := nonpos_of_mem_filter values
  rw [cutTotal_of_two_signs (.inl hGain) (.inr hLoss),
    cutTotal_of_two_signs (.inr hLoss) (.inl hGain)] at hAgree
  change cutInt (cutInt (gains values) + losses values) =
    cutInt (cutInt (losses values) + gains values) at hAgree
  have hGains := gains_nonneg values
  have hLosses := losses_nonpos values
  have hSides : losses values = 0 ∨ gains values = 0 ∨
      gains values ≤ signedMax ∧ signedMin ≤ losses values := by
    simp only [cutInt, signedMin, signedMax] at *
    omega
  refine hSides.imp ?_ (Or.imp_left ?_)
  · intro hNone value hMem
    have hLe := losses_le hMem
    omega
  · intro hNone value hMem
    have hLe := le_gains hMem
    omega

/-! ## Records -/

theorem toInt_signedDifference {a b : Int64} (hA : 0 ≤ a.toInt) (hB : 0 ≤ b.toInt) :
    (signedDifference a b).toInt = a.toInt - b.toInt := by
  have hALt := a.toInt_lt
  have hBLt := b.toInt_lt
  rw [signedDifference, toInt_signedOfInt]
  apply cutInt_of_mem <;> simp only [signedMin, signedMax] <;> omega

theorem toInt_signedOfCounter_nonneg (count : UInt64) : 0 ≤ (signedOfCounter count).toInt := by
  rw [signedOfCounter, toInt_signedOfInt]
  simp only [cutInt, signedMin, signedMax]
  omega

namespace MemRecord

/-- Bytes left at the site, not cut. -/
def bytesLeft (record : MemRecord) : Int := record.allocBytes.toInt - record.freeBytes.toInt

/-- Objects left at the site, not cut. -/
def objectsLeft (record : MemRecord) : Int := record.allocObjects.toInt - record.freeObjects.toInt

/-- No counter of the record is negative. -/
structure Counted (record : MemRecord) : Prop where
  allocBytes : 0 ≤ record.allocBytes.toInt
  allocObjects : 0 ≤ record.allocObjects.toInt
  freeBytes : 0 ≤ record.freeBytes.toInt
  freeObjects : 0 ≤ record.freeObjects.toInt

theorem counted_fill (record : MemRecord) (gens : MemGenerations) (stack : CallStack) :
    (record.fill gens stack).Counted :=
  ⟨toInt_signedOfCounter_nonneg _, toInt_signedOfCounter_nonneg _, toInt_signedOfCounter_nonneg _,
    toInt_signedOfCounter_nonneg _⟩

end MemRecord

/-- A profiler counts up only, and so do its records. -/
theorem Profiler.counted_memSnapshot {profiler : Profiler} (threaded : profiler.table.Threaded)
    (includeZeroed : Bool) :
    ∀ record ∈ (profiler.memSnapshot includeZeroed).1.records, record.Counted := by
  intro record hMem
  rw [(memSnapshot_of_threaded threaded includeZeroed).1] at hMem
  obtain ⟨site, -, rfl⟩ := List.mem_map.mp hMem
  exact MemRecord.counted_fill .zero site.1 site.2

/-! ## Snapshots -/

/-- The records with what is left of them passing a test, and the others after them. -/
def passingFirst (test : Int → Bool) (left : MemRecord → Int) (records : List MemRecord) :
    List MemRecord :=
  records.filter (fun record => test (left record)) ++
    records.filter fun record => !test (left record)

theorem passingFirst_perm (test : Int → Bool) (left : MemRecord → Int)
    (records : List MemRecord) : (passingFirst test left records).Perm records :=
  List.filter_append_perm _ records

theorem map_passingFirst (test : Int → Bool) (left : MemRecord → Int) (records : List MemRecord) :
    (passingFirst test left records).map left =
      (records.map left).filter test ++ (records.map left).filter fun value => !test value := by
  rw [passingFirst, List.map_append, List.filter_map, List.filter_map]
  rfl

namespace MemSnapshot

/-- How a total of a snapshot goes with the exact numbers that its records have left. -/
structure AddsUp (total : MemSnapshot → Int64) (left : MemRecord → Int) (snapshot : MemSnapshot) :
    Prop where
  sum : CutSum (total snapshot).toInt (snapshot.records.map left)
  exact_in_every_order_iff :
    (∀ other : MemSnapshot, other.records.Perm snapshot.records →
      (total other).toInt = cutInt (snapshot.records.map left).sum) ↔
        Steady (snapshot.records.map left)
  same_in_every_order_iff :
    (∀ other : MemSnapshot, other.records.Perm snapshot.records → total other = total snapshot) ↔
      Steady (snapshot.records.map left)

section Orders

variable {total : MemSnapshot → Int64} {left : MemRecord → Int} {snapshot : MemSnapshot}
  (hTotal : ∀ other : MemSnapshot, other.records.Perm snapshot.records →
    (total other).toInt = cutTotal 0 (other.records.map left))
include hTotal

theorem exact_of_steady (steady : Steady (snapshot.records.map left)) {other : MemSnapshot}
    (hPerm : other.records.Perm snapshot.records) :
    (total other).toInt = cutInt (snapshot.records.map left).sum := by
  have hLeft : (other.records.map left).Perm (snapshot.records.map left) := hPerm.map left
  rw [hTotal other hPerm, (steady.perm hLeft).cutTotal_eq, hLeft.sum_eq]

theorem steady_of_same {number : Int}
    (hSame : ∀ other : MemSnapshot, other.records.Perm snapshot.records →
      (total other).toInt = number) :
    Steady (snapshot.records.map left) := by
  have hOrder : ∀ test : Int → Bool,
      cutTotal 0 ((passingFirst test left snapshot.records).map left) = number := by
    intro test
    have hPerm := passingFirst_perm test left snapshot.records
    exact (hTotal ⟨_, 0⟩ hPerm).symm.trans (hSame ⟨_, 0⟩ hPerm)
  apply steady_of_agree
  rw [← map_passingFirst, ← map_passingFirst, hOrder, hOrder]

theorem addsUp_of_cutTotal : AddsUp total left snapshot where
  sum := hTotal snapshot (.refl _) ▸ cutSum_cutTotal _
  exact_in_every_order_iff := ⟨steady_of_same hTotal, fun steady _ => exact_of_steady hTotal steady⟩
  same_in_every_order_iff := by
    refine ⟨fun hSame => steady_of_same hTotal fun other hPerm => congrArg _ (hSame other hPerm),
      fun steady other hPerm => Int64.toInt_inj.mp ?_⟩
    rw [exact_of_steady hTotal steady hPerm, exact_of_steady hTotal steady (.refl _)]

end Orders

theorem toInt_inUseBytes {snapshot : MemSnapshot}
    (hCounted : ∀ record ∈ snapshot.records, record.Counted) :
    snapshot.inUseBytes.toInt = cutTotal 0 (snapshot.records.map MemRecord.bytesLeft) := by
  rw [inUseBytes, toInt_signedTotal, List.map_map]
  exact congrArg _ (List.map_congr_left fun record hMem =>
    toInt_signedDifference (hCounted record hMem).allocBytes (hCounted record hMem).freeBytes)

theorem toInt_inUseObjects {snapshot : MemSnapshot}
    (hCounted : ∀ record ∈ snapshot.records, record.Counted) :
    snapshot.inUseObjects.toInt = cutTotal 0 (snapshot.records.map MemRecord.objectsLeft) := by
  rw [inUseObjects, toInt_signedTotal, List.map_map]
  exact congrArg _ (List.map_congr_left fun record hMem =>
    toInt_signedDifference (hCounted record hMem).allocObjects (hCounted record hMem).freeObjects)

/-- The totals of a snapshot are the exact sums cut to what the additions leave of the range.  They
are the exact sums cut once, and the same, for every order of the records exactly if the sites are
steady: none has freed more than it has allocated, or none has allocated more than it has freed, or
those that have something left and those that lack something each stay in range. -/
theorem totals_add_up (snapshot : MemSnapshot)
    (hCounted : ∀ record ∈ snapshot.records, record.Counted) :
    AddsUp inUseBytes MemRecord.bytesLeft snapshot ∧
      AddsUp inUseObjects MemRecord.objectsLeft snapshot := by
  have hOther : ∀ other : MemSnapshot, other.records.Perm snapshot.records →
      ∀ record ∈ other.records, record.Counted :=
    fun other hPerm record hMem => hCounted record (hPerm.mem_iff.mp hMem)
  exact ⟨addsUp_of_cutTotal fun other hPerm => toInt_inUseBytes (hOther other hPerm),
    addsUp_of_cutTotal fun other hPerm => toInt_inUseObjects (hOther other hPerm)⟩

/-- Two sites that each hold as many bytes as a total can tell, and a third where as many were
freed and none allocated. -/
def overfull : MemSnapshot :=
  (((Profiler.ofSettings { hashChains := 1 }).afterAll [
    .record (.ofAddresses [1]) (.allocation 0x7fffffffffffffff),
    .record (.ofAddresses [2]) (.allocation 0x7fffffffffffffff),
    .record (.ofAddresses [3]) (.release 0x7fffffffffffffff)]).memSnapshot true).1

theorem counted_overfull : ∀ record ∈ overfull.records, record.Counted :=
  Profiler.counted_memSnapshot
    ((Profiler.remembers_ofSettings _).afterAll _).reflects.threaded true

theorem totals_add_up_overfull :
    (∀ record ∈ overfull.records, record.Counted) ∧
      AddsUp inUseBytes MemRecord.bytesLeft overfull ∧
      AddsUp inUseObjects MemRecord.objectsLeft overfull :=
  ⟨counted_overfull, totals_add_up overfull counted_overfull⟩

/-- The bytes of the second site are cut away before the third takes its own: nothing is left, where
the exact sum and the reverse order have all that a total can tell. -/
theorem overfull_depends_on_order :
    (∀ record ∈ overfull.records, record.Counted) ∧
      overfull.inUseBytes.toInt = 0 ∧
      cutInt (overfull.records.map MemRecord.bytesLeft).sum = signedMax ∧
      ∃ other : MemSnapshot, other.records.Perm overfull.records ∧
        other.inUseBytes.toInt = signedMax := by
  refine ⟨counted_overfull, by decide +kernel, by decide +kernel,
    ⟨overfull.records.reverse, 0⟩, List.reverse_perm _, by decide +kernel⟩

end MemSnapshot

end SiteProfiler
