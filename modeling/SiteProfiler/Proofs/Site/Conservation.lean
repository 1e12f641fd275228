import SiteProfiler.Proofs.Site.Generations

/-!
# What generations conserve

An event adds to the recent generation, and a rotation moves counts on towards the cumulative one.
Neither takes anything away: the cumulative counts never go down, and the three generations together
always have what they had at first and all that was tallied since, cut once at the largest counter.
Two more rotations make all of that cumulative, wherever the rotations before them stood.
-/

namespace SiteProfiler

/-! ## Rotations -/

theorem toNat_le_counterMax (count : UInt64) : count.toNat ≤ counterMax := by
  have hLt := count.toNat_lt
  rw [counterMax]
  omega

theorem le_cappedSum (a b : UInt64) : a ≤ cappedSum a b := by
  have hLe := toNat_le_counterMax a
  rw [UInt64.le_iff_toNat_le, toNat_cappedSum]
  omega

/-- The sum of three counters, cut once. -/
def cappedTotal (a b c : UInt64) : UInt64 := capped (a.toNat + b.toNat + c.toNat)

/-- Folding the second counter into the first does not change the total. -/
theorem cappedTotal_fold (a b c : UInt64) :
    cappedTotal (cappedSum a b) c 0 = cappedTotal a b c := by
  unfold cappedTotal
  apply UInt64.toNat_inj.mp
  rw [toNat_capped, toNat_capped, toNat_cappedSum, UInt64.toNat_zero]
  omega

theorem MemTally.merge_zero (tally : MemTally) : tally.merge .zero = tally := by
  unfold merge zero
  simp only [cappedSum_zero]

namespace MemGenerations

/-- What the three generations add up to. -/
def total (gens : MemGenerations) : MemTally where
  allocBytes :=
    cappedTotal gens.cumulative.allocBytes gens.previous.allocBytes gens.recent.allocBytes
  allocs := cappedTotal gens.cumulative.allocs gens.previous.allocs gens.recent.allocs
  freeBytes := cappedTotal gens.cumulative.freeBytes gens.previous.freeBytes gens.recent.freeBytes
  frees := cappedTotal gens.cumulative.frees gens.previous.frees gens.recent.frees

theorem total_rotate (gens : MemGenerations) : gens.rotate.total = gens.total := by
  unfold total rotate MemTally.merge MemTally.zero
  simp only [cappedTotal_fold]

/-- Generations of which everything is cumulative have nothing to fold. -/
theorem rotate_of_folded {gens : MemGenerations} (hPrevious : gens.previous = .zero)
    (hRecent : gens.recent = .zero) : gens.rotate = gens := by
  unfold rotate
  rw [hPrevious, MemTally.merge_zero]
  cases gens
  simp_all

theorem rotate_rotate_rotate (gens : MemGenerations) :
    gens.rotate.rotate.rotate = gens.rotate.rotate :=
  rotate_of_folded rfl rfl

end MemGenerations

/-! ## Steps -/

/-- A figure of a tally. -/
inductive MemFigure where
  | allocBytes
  | allocs
  | freeBytes
  | frees
deriving DecidableEq, Repr

/-- A change of the generations of a site. -/
inductive MemStep where
  | allocate (bytes : UInt64)
  | release (bytes : UInt64)
  | rotate
deriving DecidableEq, Repr

/-- What a step adds to a figure. -/
def MemStep.adds : MemFigure → MemStep → Nat
  | .allocBytes, allocate bytes => bytes.toNat
  | .allocs, allocate _ => 1
  | .freeBytes, release bytes => bytes.toNat
  | .frees, release _ => 1
  | _, _ => 0

theorem MemStep.adds_rotate (figure : MemFigure) : rotate.adds figure = 0 := by
  cases figure <;> rfl

namespace MemTally

def get (tally : MemTally) : MemFigure → UInt64
  | .allocBytes => tally.allocBytes
  | .allocs => tally.allocs
  | .freeBytes => tally.freeBytes
  | .frees => tally.frees

theorem get_merge (a b : MemTally) (figure : MemFigure) :
    (a.merge b).get figure = cappedSum (a.get figure) (b.get figure) := by
  cases figure <;> rfl

theorem get_zero (figure : MemFigure) : zero.get figure = 0 := by
  cases figure <;> rfl

theorem toNat_get_allocated (bytes : UInt64) (figure : MemFigure) :
    ((⟨bytes, 1, 0, 0⟩ : MemTally).get figure).toNat = (MemStep.allocate bytes).adds figure := by
  cases figure <;> rfl

theorem toNat_get_released (bytes : UInt64) (figure : MemFigure) :
    ((⟨0, 0, bytes, 1⟩ : MemTally).get figure).toNat = (MemStep.release bytes).adds figure := by
  cases figure <;> rfl

end MemTally

namespace MemGenerations

def step (gens : MemGenerations) : MemStep → MemGenerations
  | .allocate bytes => gens.allocate bytes
  | .release bytes => gens.release bytes
  | .rotate => gens.rotate

def stepAll (gens : MemGenerations) (steps : List MemStep) : MemGenerations :=
  steps.foldl step gens

/-- A figure of the three generations together, without the cut. -/
def uncapped (gens : MemGenerations) (figure : MemFigure) : Nat :=
  (gens.cumulative.get figure).toNat + (gens.previous.get figure).toNat +
    (gens.recent.get figure).toNat

theorem get_total (gens : MemGenerations) (figure : MemFigure) :
    gens.total.get figure = capped (gens.uncapped figure) := by
  cases figure <;> rfl

theorem uncapped_rotate (gens : MemGenerations) (figure : MemFigure) :
    min (gens.rotate.uncapped figure) counterMax = min (gens.uncapped figure) counterMax := by
  rw [← toNat_capped, ← toNat_capped, ← get_total, ← get_total, total_rotate]

/-- Merging a tally into the recent generation adds its figures to the whole. -/
theorem uncapped_merge (gens : MemGenerations) (tally : MemTally) (figure : MemFigure) :
    min (uncapped { gens with recent := gens.recent.merge tally } figure) counterMax =
      min (gens.uncapped figure + (tally.get figure).toNat) counterMax := by
  simp only [uncapped, MemTally.get_merge, toNat_cappedSum]
  omega

theorem uncapped_step (gens : MemGenerations) (step : MemStep) (figure : MemFigure) :
    min ((gens.step step).uncapped figure) counterMax =
      min (gens.uncapped figure + step.adds figure) counterMax := by
  cases step with
  | allocate bytes =>
    rw [← MemTally.toNat_get_allocated]
    exact gens.uncapped_merge _ figure
  | release bytes =>
    rw [← MemTally.toNat_get_released]
    exact gens.uncapped_merge _ figure
  | rotate =>
    rw [MemStep.adds_rotate]
    exact gens.uncapped_rotate figure

theorem uncapped_stepAll (gens : MemGenerations) (steps : List MemStep) (figure : MemFigure) :
    min ((gens.stepAll steps).uncapped figure) counterMax =
      min (gens.uncapped figure + (steps.map (MemStep.adds figure)).sum) counterMax := by
  induction steps generalizing gens with
  | nil => rfl
  | cons step rest ih =>
    have hRest := ih (gens.step step)
    have hStep := gens.uncapped_step step figure
    rw [List.map_cons, List.sum_cons]
    change min (((gens.step step).stepAll rest).uncapped figure) counterMax = _
    omega

theorem get_cumulative_le_step (gens : MemGenerations) (step : MemStep) (figure : MemFigure) :
    gens.cumulative.get figure ≤ (gens.step step).cumulative.get figure := by
  cases step with
  | allocate bytes => exact UInt64.le_refl _
  | release bytes => exact UInt64.le_refl _
  | rotate =>
    change _ ≤ (gens.cumulative.merge gens.previous).get figure
    rw [MemTally.get_merge]
    exact le_cappedSum _ _

theorem get_cumulative_le_stepAll (gens : MemGenerations) (steps : List MemStep)
    (figure : MemFigure) :
    gens.cumulative.get figure ≤ (gens.stepAll steps).cumulative.get figure := by
  induction steps generalizing gens with
  | nil => exact UInt64.le_refl _
  | cons step rest ih =>
    exact UInt64.le_trans (gens.get_cumulative_le_step step figure) (ih (gens.step step))

/-- Two rotations leave all that the generations had in the cumulative one. -/
theorem toNat_get_cumulative_rotate_rotate (gens : MemGenerations) (figure : MemFigure) :
    (gens.rotate.rotate.cumulative.get figure).toNat = min (gens.uncapped figure) counterMax := by
  have hRotated : gens.rotate.rotate.uncapped figure =
      (gens.rotate.rotate.cumulative.get figure).toNat := by
    change _ + (MemTally.zero.get figure).toNat + (MemTally.zero.get figure).toNat = _
    rw [MemTally.get_zero]
    rfl
  have hSame := (gens.rotate.uncapped_rotate figure).trans (gens.uncapped_rotate figure)
  have hLe := toNat_le_counterMax (gens.rotate.rotate.cumulative.get figure)
  rw [hRotated] at hSame
  omega

/-- From any generations on, in any run of events and rotations: the cumulative figures never go
down; the three generations together have, up to the one cut, what they had at first and all that
the steps added; and two more rotations make that the cumulative figures and leave nothing else. -/
theorem steps_conserve (gens : MemGenerations) (steps : List MemStep) (figure : MemFigure) :
    let reached := gens.stepAll steps
    let whole := min (gens.uncapped figure + (steps.map (MemStep.adds figure)).sum) counterMax
    (∀ more, reached.cumulative.get figure ≤ (reached.stepAll more).cumulative.get figure) ∧
      min (reached.uncapped figure) counterMax = whole ∧
      (reached.rotate.rotate.cumulative.get figure).toNat = whole ∧
      reached.rotate.rotate.previous = .zero ∧ reached.rotate.rotate.recent = .zero := by
  intro reached whole
  have hWhole : min (reached.uncapped figure) counterMax = whole :=
    gens.uncapped_stepAll steps figure
  refine ⟨fun more => reached.get_cumulative_le_stepAll more figure, hWhole, ?_, rfl, rfl⟩
  rw [toNat_get_cumulative_rotate_rotate, hWhole]

end MemGenerations

end SiteProfiler
