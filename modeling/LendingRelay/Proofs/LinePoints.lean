import LendingRelay.Proofs.Words
import Mathlib.Algebra.Order.Floor.Semifield
import Mathlib.Algebra.Order.Ring.Abs
import Mathlib.Data.Nat.Cast.Order.Field
import Mathlib.Data.Rat.Floor
import Mathlib.Order.Interval.Set.UnorderedInterval

/-!
# Points of a line

A segment stands for the straight line between its ends, whose points need not have fifteen
decimals. The step away from the start is cut, so the value lies between the start and the point of
the line and misses the point by less than one unit: below it on a segment that rises, and above it
on one that falls.

* `Segment.point`: the point of the line, exactly.
* `Segment.step_le_exact`, `Segment.exact_lt_step`: what the cut takes off the step.
* `Segment.onLine_value`: the value on a segment.
* `interpolate_on_line`: all of it, for every segment and every argument.
-/

namespace LendingRelay

open Number (capacity)

namespace Segment

/-! ## The line -/

/-- The point of the line at the argument, which is moved between the ends of the segment by
`along`. -/
def point (x x0 x1 y0 y1 : Number) : ℚ :=
  y0.raw + (along x x0 x1 : ℚ) * ((y1.raw : ℚ) - y0.raw) / ((x1.raw : ℚ) - x0.raw)

/-- The step away from the start, before `step` cuts it. -/
def exactStep (x x0 x1 y0 y1 : Number) : ℚ :=
  ((along x x0 x1 * height y0 y1 : Nat) : ℚ) / ((x1.raw - x0.raw : Nat) : ℚ)

/-- Cutting the step takes something off it, if anything. -/
theorem step_le_exact (x x0 x1 y0 y1 : Number) :
    (step x x0 x1 y0 y1 : ℚ) ≤ exactStep x x0 x1 y0 y1 :=
  Nat.cast_div_le

/-- Less than one unit is cut off. -/
theorem exact_lt_step (x x0 x1 y0 y1 : Number) :
    exactStep x x0 x1 y0 y1 < step x x0 x1 y0 y1 + 1 := by
  unfold step
  rw [← Nat.floor_div_eq_div (K := ℚ)]
  exact Nat.lt_floor_add_one _

/-- A line that rises is above its start by the `exactStep`. -/
theorem point_of_le {x0 x1 y0 y1 : Number} (x : Number) (hspan : x0.raw < x1.raw)
    (hrises : y0.raw ≤ y1.raw) :
    point x x0 x1 y0 y1 = y0.raw + exactStep x x0 x1 y0 y1 := by
  unfold point exactStep
  rw [height_of_le hrises, Nat.cast_mul, Nat.cast_sub hrises, Nat.cast_sub (Nat.le_of_lt hspan)]

/-- A line that falls is below its start by the `exactStep`. -/
theorem point_of_not_le {x0 x1 y0 y1 : Number} (x : Number) (hspan : x0.raw < x1.raw)
    (hfalls : ¬y0.raw ≤ y1.raw) :
    point x x0 x1 y0 y1 = y0.raw - exactStep x x0 x1 y0 y1 := by
  unfold point exactStep
  rw [height_of_not_le hfalls, Nat.cast_mul, Nat.cast_sub (Nat.le_of_not_le hfalls),
    Nat.cast_sub (Nat.le_of_lt hspan)]
  ring

/-! ## The value -/

/-- How a value lies on a segment: between the ends, at an end for every argument that does not lie
within the segment, and near the point of the line, on the side of the start. -/
structure OnLine (x x0 x1 y0 y1 y : Number) : Prop where
  lower : min y0.raw y1.raw ≤ y.raw
  upper : y.raw ≤ max y0.raw y1.raw
  start : x.raw ≤ x0.raw → y = y0
  finish : x1.raw ≤ x.raw → y = y1
  near : |(y.raw : ℚ) - point x x0 x1 y0 y1| < 1
  start_side : (y.raw : ℚ) ∈ Set.uIcc (y0.raw : ℚ) (point x x0 x1 y0 y1)

/-- **The value misses the point by less than one**, on the side of the start. `step_le_exact` and
`exact_lt_step` say this of the step, and the value is the start with the step added or
taken away. -/
theorem value_near {x0 x1 : Number} (x y0 y1 : Number) (hspan : x0.raw < x1.raw) :
    |(value x x0 x1 y0 y1 : ℚ) - point x x0 x1 y0 y1| < 1 ∧
      (value x x0 x1 y0 y1 : ℚ) ∈ Set.uIcc (y0.raw : ℚ) (point x x0 x1 y0 y1) := by
  have hcut := step_le_exact x x0 x1 y0 y1
  have hunit := exact_lt_step x x0 x1 y0 y1
  have hstep : (0 : ℚ) ≤ step x x0 x1 y0 y1 := Nat.cast_nonneg _
  by_cases hrises : y0.raw ≤ y1.raw
  · have hvalue : value x x0 x1 y0 y1 = y0.raw + step x x0 x1 y0 y1 := if_pos hrises
    rw [hvalue, point_of_le x hspan hrises, Nat.cast_add]
    refine ⟨?_, Set.mem_uIcc_of_le (by linarith) (by linarith)⟩
    rw [abs_lt]
    constructor <;> linarith
  · have hvalue : value x x0 x1 y0 y1 = y0.raw - step x x0 x1 y0 y1 := if_neg hrises
    -- The subtraction of the natural numbers is the true one, since the start is higher than the
    -- step.
    have hroom : step x x0 x1 y0 y1 ≤ y0.raw := by
      have hheight := step_le_height x y0 y1 hspan
      rw [height_of_not_le hrises] at hheight
      omega
    rw [hvalue, point_of_not_le x hspan hrises, Nat.cast_sub hroom]
    refine ⟨?_, Set.mem_uIcc_of_ge (by linarith) (by linarith)⟩
    rw [abs_lt]
    constructor <;> linarith

theorem onLine_value {x0 x1 : Number} (x y0 y1 : Number) (hspan : x0.raw < x1.raw) :
    OnLine x x0 x1 y0 y1 ⟨value x x0 x1 y0 y1, value_lt_capacity x y0 y1 hspan⟩ where
  lower := (value_between x y0 y1 hspan).1
  upper := (value_between x y0 y1 hspan).2
  start hle := Number.eq_of_raw (value_of_le_start x1 y0 y1 hle)
  finish hle := Number.eq_of_raw (value_of_end_le y0 y1 hspan hle)
  near := (value_near x y0 y1 hspan).1
  start_side := (value_near x y0 y1 hspan).2

end Segment

open Segment

/-! ## Interpolation -/

theorem interpolate_eq_error_iff {x0 x1 : Number} (x y0 y1 : Number) (hspan : x0.raw < x1.raw) :
    interpolate x x0 x1 y0 y1 = .error .mathOverflow ↔
      capacity ≤ along x x0 x1 * height y0 y1 := by
  rw [interpolate_eq x y0 y1 hspan, ← Nat.not_lt]
  split
  · next hfits => exact iff_of_false (fun herror => by cases herror) (not_not_intro hfits)
  · next hover => exact iff_of_true rfl hover

/-- **Interpolation.** A segment without width has its end value. On any other one the overflow is
reported exactly when the product for the step does not fit; everything else gives a value that lies
as it should, and further arguments get further from the start. Word by word nothing stops on the
way. How a value lies is `onLine_value`. -/
theorem interpolate_on_line (x x0 x1 y0 y1 : Number) :
    (x1.raw ≤ x0.raw → interpolate x x0 x1 y0 y1 = .ok y1) ∧
    (x0.raw < x1.raw →
      (interpolate x x0 x1 y0 y1 = .error .mathOverflow ↔
        capacity ≤ along x x0 x1 * height y0 y1) ∧
      (along x x0 x1 * height y0 y1 < capacity →
        ∃ y, interpolate x x0 x1 y0 y1 = .ok y ∧ OnLine x x0 x1 y0 y1 y) ∧
      (∀ x' y' : Number, x.raw ≤ x'.raw → interpolate x' x0 x1 y0 y1 = .ok y' →
        ∃ y, interpolate x x0 x1 y0 y1 = .ok y ∧
          (y0.raw ≤ y1.raw → y.raw ≤ y'.raw) ∧ (y1.raw < y0.raw → y'.raw ≤ y.raw))) ∧
    Word.interpolate x.raw x0.raw x1.raw y0.raw y1.raw =
      Word.outcome (interpolate x x0 x1 y0 y1) := by
  refine ⟨interpolate_of_no_span x y0 y1, fun hspan => ⟨?_, fun hfits => ?_, ?_⟩,
    Word.interpolate_eq x x0 x1 y0 y1⟩
  · exact interpolate_eq_error_iff x y0 y1 hspan
  · refine ⟨_, ?_, onLine_value x y0 y1 hspan⟩
    rw [interpolate_eq x y0 y1 hspan, if_pos hfits]
  · intro x' y' hle hy'
    exact interpolate_mono hspan hle hy'

/-- A segment falls from ten basis points to nothing over a span of three. A third of the way the
line is no whole number of units, and the value is the next one above it; further on the value is
lower. A span of nothing gives the end, and over the largest span and height the product for the
second unit of the way does not fit. -/
theorem interpolate_on_line_falling :
    (∃ y y' : Number,
      interpolate (.ofUInt64 1) .zero (.ofUInt64 3) (.ofBasisPoints 10) .zero = .ok y ∧
      y.raw = 666666666667 ∧ OnLine (.ofUInt64 1) .zero (.ofUInt64 3) (.ofBasisPoints 10) .zero y ∧
      interpolate (.ofUInt64 2) .zero (.ofUInt64 3) (.ofBasisPoints 10) .zero = .ok y' ∧
      y'.raw ≤ y.raw) ∧
    interpolate .one .zero .zero (.ofBasisPoints 10) .zero = .ok .zero ∧
    ∃ x largest : Number, x.raw = 2 ∧ largest.raw + 1 = capacity ∧
      interpolate x .zero largest largest .zero = .error .mathOverflow := by
  refine ⟨?_, ?_, ?_⟩
  · obtain ⟨-, hwide, -⟩ :=
      interpolate_on_line (.ofUInt64 1) .zero (.ofUInt64 3) (.ofBasisPoints 10) .zero
    obtain ⟨-, hvalue, hmono⟩ := hwide (by decide)
    obtain ⟨y, hy, honLine⟩ := hvalue (by decide)
    have hfirst : interpolate (.ofUInt64 1) .zero (.ofUInt64 3) (.ofBasisPoints 10) .zero =
        .ok ⟨666666666667, by simp [capacity]⟩ := by
      decide +kernel
    have hsecond : interpolate (.ofUInt64 2) .zero (.ofUInt64 3) (.ofBasisPoints 10) .zero =
        .ok ⟨333333333334, by simp [capacity]⟩ := by
      decide +kernel
    cases hy.symm.trans hfirst
    obtain ⟨z, hz, -, hfalls⟩ := hmono _ _ (by decide) hsecond
    cases hz.symm.trans hfirst
    exact ⟨_, _, hfirst, rfl, honLine, hsecond, hfalls (by decide)⟩
  · exact (interpolate_on_line .one .zero .zero (.ofBasisPoints 10) .zero).1 (Nat.le_refl _)
  · obtain ⟨-, hwide, -⟩ := interpolate_on_line ⟨2, by simp [capacity]⟩ .zero
      ⟨capacity - 1, by simp [capacity]⟩ ⟨capacity - 1, by simp [capacity]⟩ .zero
    exact ⟨_, _, rfl, by decide, (hwide (by decide)).1.mpr (by decide)⟩

end LendingRelay
