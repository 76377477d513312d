import LendingRelay.Proofs.Interpolation
import LendingRelay.Proofs.Utilization

/-!
# The same arithmetic, word by word

Numbers live in words of 192 bits. Where the relay foresees that a result may not fit, it checks and
refuses; everywhere else it just computes, and a result that is no word would bring the whole
program down. Here the computations behind a rate are written once more with that second ending: an
unchecked operation without a result *stops*. They come out the same, so no unchecked operation ever
stops, and the truncated subtractions and divisions of the natural numbers stand for exact ones.

* `Word.interpolate_eq`, `Word.div_eq`, `Word.utilizationRate_eq`, `Word.interestRate_eq`: each
  computation on words has the outcome of the computation on numbers.
* `Word.scaleDown_eq`: scaling down ends by itself, within the steps that are allowed for it.
-/

namespace LendingRelay

/-- Why a computation on words has no result: it was refused, or it stopped. -/
inductive Halt
  /-- A checked operation does not fit, and the relay refuses. -/
  | refused (error : RelayError)
  /-- An unchecked operation has no word for its result. -/
  | stopped
  deriving DecidableEq

namespace Word

open Number (capacity unit)

/-- The outcome of a computation on numbers, read as one on words. It is never `Halt.stopped`, which
is why an equation with it says that nothing stops. -/
def outcome : Except RelayError Number → Except Halt Nat
  | .ok n => .ok n.raw
  | .error error => .error (.refused error)

/-! ## Unchecked operations -/

def add (a b : Nat) : Except Halt Nat :=
  if a + b < capacity then .ok (a + b) else .error .stopped

def sub (a b : Nat) : Except Halt Nat :=
  if b ≤ a then .ok (a - b) else .error .stopped

def mul (a b : Nat) : Except Halt Nat :=
  if a * b < capacity then .ok (a * b) else .error .stopped

def div (a b : Nat) : Except Halt Nat :=
  if b = 0 then .error .stopped else .ok (a / b)

/-- The nearest word to `x` between two ends, which have to be in order. -/
def clamp (x low high : Nat) : Except Halt Nat :=
  if low ≤ high then .ok (max low (min x high)) else .error .stopped

/-! ## Checked operations -/

def checkedAdd (a b : Nat) : Except Halt Nat :=
  if a + b < capacity then .ok (a + b) else .error (.refused .mathOverflow)

def checkedMul (a b : Nat) : Except Halt Nat :=
  if a * b < capacity then .ok (a * b) else .error (.refused .mathOverflow)

def checkedDiv (a b : Nat) : Except Halt Nat :=
  if b = 0 then .error (.refused .mathOverflow) else .ok (a / b)

/-! ## Computations -/

def ofBasisPoints (n : UInt16) : Except Halt Nat :=
  mul n.toNat 100000000000

/-- Takes digits off both operands for as long as the dividend leaves no room for fifteen more.
There is no bound on the steps here, as there is in `Number.scaleDown`. -/
def scaleDown (dividend divisor : Nat) : Nat × Nat :=
  if dividend * unit < capacity then (dividend, divisor)
  else scaleDown (dividend / 10) (divisor / 10)
  termination_by dividend
  decreasing_by
    have hpos : dividend ≠ 0 := by
      rintro rfl
      simp_all [capacity]
    omega

/-- The quotient of two numbers: only the divisor is checked, and the product with `unit` is not. -/
def quotient (dividend divisor : Nat) : Except Halt Nat := do
  let scaled := scaleDown dividend divisor
  checkedDiv (← mul scaled.1 unit) scaled.2

def interpolate (x x0 x1 y0 y1 : Nat) : Except Halt Nat := do
  if x1 ≤ x0 then return y1
  let span ← sub x1 x0
  let along ← sub (← clamp x x0 x1) x0
  if y0 ≤ y1 then
    let product ← checkedMul along (← sub y1 y0)
    add y0 (← div product span)
  else
    let product ← checkedMul along (← sub y0 y1)
    sub y0 (← div product span)

def utilizationRate (outstandingDebt : Nat) (totalDeposits : UInt64) : Except Halt Nat := do
  let total ← checkedAdd outstandingDebt (← mul totalDeposits.toNat unit)
  if total = 0 then return 0
  quotient outstandingDebt total

def interestRate (curve : RateCurve) (outstandingDebt : Nat) (totalDeposits : UInt64) :
    Except Halt Nat := do
  let rate1 ← ofBasisPoints curve.borrowRate1
  if totalDeposits = 0 ∧ outstandingDebt = 0 then return rate1
  let utilization ← utilizationRate outstandingDebt totalDeposits
  let kink1 ← ofBasisPoints curve.utilizationRate1
  if utilization ≤ kink1 then
    let rate0 ← ofBasisPoints curve.borrowRate0
    return ← interpolate utilization 0 kink1 rate0 rate1
  let kink2 ← ofBasisPoints curve.utilizationRate2
  let rate2 ← ofBasisPoints curve.borrowRate2
  if utilization ≤ kink2 then
    return ← interpolate utilization kink1 kink2 rate1 rate2
  let rate3 ← ofBasisPoints curve.borrowRate3
  if utilization < unit then
    return ← interpolate utilization kink2 unit rate2 rate3
  return rate3

/-! ## Nothing stops -/

theorem ok_bind (a : α) (next : α → Except ε β) : (Except.ok a >>= next) = next a := rfl

/-- Computations in a row go the same way when each of them does. This carries the equations below
from one step to the next. -/
theorem outcome_bind {result : Except RelayError Number}
    {next : Number → Except RelayError Number} {wordNext : Nat → Except Halt Nat}
    (hnext : ∀ n, outcome (next n) = wordNext n.raw) :
    outcome (result >>= next) = outcome result >>= wordNext := by
  cases result with
  | ok n => exact hnext n
  | error error => rfl

theorem add_of_lt {a b : Nat} (hfits : a + b < capacity) : add a b = .ok (a + b) := if_pos hfits

theorem sub_of_le {a b : Nat} (hle : b ≤ a) : sub a b = .ok (a - b) := if_pos hle

theorem mul_of_lt {a b : Nat} (hfits : a * b < capacity) : mul a b = .ok (a * b) := if_pos hfits

theorem div_of_pos (a : Nat) {b : Nat} (hpos : 0 < b) : div a b = .ok (a / b) :=
  if_neg (Nat.ne_of_gt hpos)

open Segment in
/-- **An interpolation never stops.** The start is below the end, the argument is moved between
them, and the step is no higher than the segment, by `Segment.step_le_height`. -/
theorem interpolate_eq (x x0 x1 y0 y1 : Number) :
    interpolate x.raw x0.raw x1.raw y0.raw y1.raw =
      outcome (LendingRelay.interpolate x x0 x1 y0 y1) := by
  unfold interpolate
  by_cases hnone : x1.raw ≤ x0.raw
  · rw [if_pos hnone, interpolate_of_no_span x y0 y1 hnone]
    rfl
  · have hspan : x0.raw < x1.raw := Nat.lt_of_not_le hnone
    have hclamp : clamp x.raw x0.raw x1.raw = .ok (max x0.raw (min x.raw x1.raw)) :=
      if_pos (Nat.le_of_lt hspan)
    have halong : sub (max x0.raw (min x.raw x1.raw)) x0.raw = .ok (along x x0 x1) :=
      sub_of_le (Nat.le_max_left _ _)
    have hdiv : ∀ product, div product (x1.raw - x0.raw) = .ok (product / (x1.raw - x0.raw)) :=
      fun product => div_of_pos product (by omega)
    have hvalue := value_lt_capacity x y0 y1 hspan
    have hheight := step_le_height x y0 y1 hspan
    rw [if_neg hnone, sub_of_le (Nat.le_of_lt hspan), ok_bind, hclamp, ok_bind, halong, ok_bind,
      LendingRelay.interpolate_eq x y0 y1 hspan]
    -- The two directions differ in what is subtracted from what.
    by_cases hrises : y0.raw ≤ y1.raw
    · have hstep : step x x0 x1 y0 y1 =
          along x x0 x1 * (y1.raw - y0.raw) / (x1.raw - x0.raw) := by
        rw [step, height_of_le hrises]
      have hend : value x x0 x1 y0 y1 = y0.raw + step x x0 x1 y0 y1 := if_pos hrises
      rw [if_pos hrises, sub_of_le hrises, ok_bind, height_of_le hrises]
      by_cases hfits : along x x0 x1 * (y1.raw - y0.raw) < capacity
      · rw [hend] at hvalue
        rw [checkedMul, if_pos hfits, if_pos hfits, ok_bind, hdiv, ok_bind, ← hstep,
          add_of_lt hvalue]
        exact congrArg Except.ok hend.symm
      · rw [checkedMul, if_neg hfits, if_neg hfits]
        rfl
    · have hstep : step x x0 x1 y0 y1 =
          along x x0 x1 * (y0.raw - y1.raw) / (x1.raw - x0.raw) := by
        rw [step, height_of_not_le hrises]
      have hend : value x x0 x1 y0 y1 = y0.raw - step x x0 x1 y0 y1 := if_neg hrises
      have hroom : step x x0 x1 y0 y1 ≤ y0.raw := by
        rw [height_of_not_le hrises] at hheight
        exact Nat.le_trans hheight (Nat.sub_le _ _)
      rw [if_neg hrises, sub_of_le (Nat.le_of_not_le hrises), ok_bind, height_of_not_le hrises]
      by_cases hfits : along x x0 x1 * (y0.raw - y1.raw) < capacity
      · rw [checkedMul, if_pos hfits, if_pos hfits, ok_bind, hdiv, ok_bind, ← hstep,
          sub_of_le hroom]
        exact congrArg Except.ok hend.symm
      · rw [checkedMul, if_neg hfits, if_neg hfits]
        rfl

/-- **Scaling down ends by itself** within as many steps as the dividend has digits too many, by
`Number.digit_in_reach`. -/
theorem scaleDown_eq (steps divisor : Nat) {dividend : Nat}
    (hreach : dividend * unit < capacity * 10 ^ steps) :
    Number.scaleDown steps dividend divisor = scaleDown dividend divisor := by
  induction steps generalizing dividend divisor with
  | zero =>
    rw [pow_zero, Nat.mul_one] at hreach
    unfold scaleDown
    rw [if_pos hreach, Number.scaleDown_of_fits 0 divisor hreach]
  | succ steps ih =>
    unfold scaleDown
    by_cases hfits : dividend * unit < capacity
    · rw [if_pos hfits, Number.scaleDown_of_fits _ divisor hfits]
    · rw [if_neg hfits, Number.scaleDown_succ_of_not_fits _ divisor hfits]
      exact ih _ (Number.digit_in_reach hreach)

/-- **A division never stops.** The scaled dividend leaves room for fifteen digits more, by
`Number.scaleDown_fits`. -/
theorem quotient_eq (a b : Number) : quotient a.raw b.raw = outcome (a.div b) := by
  have hscaled := scaleDown_eq Number.precision b.raw a.mul_unit_lt
  have hfits := Number.scaleDown_fits Number.precision b.raw a.mul_unit_lt
  unfold quotient
  rw [Number.div_eq, ← hscaled]
  -- Of the scaled operands only the room that they leave matters from here on.
  generalize Number.scaleDown Number.precision a.raw b.raw = scaled at hfits ⊢
  dsimp only
  rw [mul_of_lt hfits, ok_bind, checkedDiv]
  by_cases hzero : scaled.2 = 0
  · rw [if_pos hzero, if_pos hzero]
    rfl
  · have hquotient := Nat.lt_of_le_of_lt (Nat.div_le_self (scaled.1 * unit) scaled.2) hfits
    rw [if_neg hzero, if_neg hzero, Number.ofRaw?_of_lt hquotient, outcome]

theorem utilizationRate_eq (debt : Number) (deposits : UInt64) :
    utilizationRate debt.raw deposits = outcome (LendingRelay.utilizationRate debt deposits) := by
  have hmul : mul deposits.toNat unit = .ok (deposits.toNat * unit) :=
    mul_of_lt (Number.ofUInt64 deposits).raw_lt
  unfold utilizationRate
  rw [hmul, ok_bind, checkedAdd]
  by_cases hfits : debt.raw + deposits.toNat * unit < capacity
  · obtain ⟨total, htotal⟩ : ∃ total : Number, total.raw = debt.raw + deposits.toNat * unit :=
      ⟨⟨_, hfits⟩, rfl⟩
    rw [if_pos hfits, ok_bind, LendingRelay.utilizationRate_eq htotal, ← htotal]
    -- Nothing lent out and nothing deposited is no division.
    by_cases hzero : total = .zero
    · rw [if_pos hzero, if_pos (by rw [hzero]; rfl)]
      rfl
    · rw [if_neg hzero, if_neg fun hraw => hzero (Number.eq_zero_of_raw hraw), quotient_eq]
  · rw [if_neg hfits, utilizationRate_of_not_fits hfits]
    rfl

theorem ofBasisPoints_eq (n : UInt16) : ofBasisPoints n = .ok (Number.ofBasisPoints n).raw := by
  have hunit : 100000000000 = unit / 10000 := by simp [unit]
  unfold ofBasisPoints
  rw [hunit]
  exact mul_of_lt (Number.ofBasisPoints n).raw_lt

/-- **The borrow rate never stops.** Each of its steps comes to the same as the one on numbers, by
the equations above. -/
theorem interestRate_eq (curve : RateCurve) (debt : Number) (deposits : UInt64) :
    interestRate curve debt.raw deposits = outcome (curve.interestRate debt deposits) := by
  unfold interestRate RateCurve.interestRate
  rw [ofBasisPoints_eq, ok_bind]
  have hempty : deposits = 0 ∧ debt.raw = 0 ↔ deposits = 0 ∧ debt = .zero :=
    and_congr_right fun _ => ⟨Number.eq_zero_of_raw, fun hzero => by rw [hzero]; rfl⟩
  by_cases hnone : deposits = 0 ∧ debt = .zero
  · rw [if_pos hnone, if_pos (hempty.mpr hnone)]
    rfl
  · rw [if_neg hnone, if_neg (mt hempty.mp hnone), utilizationRate_eq]
    symm
    apply outcome_bind
    intro utilization
    have hone : Number.one.raw = unit := rfl
    simp only [ofBasisPoints_eq, ok_bind]
    -- The regimes are told apart by the same three comparisons.
    by_cases hlow : utilization.raw ≤ (Number.ofBasisPoints curve.utilizationRate1).raw
    · rw [if_pos hlow, if_pos hlow, ← Number.raw_zero, interpolate_eq]
    rw [if_neg hlow, if_neg hlow]
    by_cases hmiddle : utilization.raw ≤ (Number.ofBasisPoints curve.utilizationRate2).raw
    · rw [if_pos hmiddle, if_pos hmiddle, interpolate_eq]
    rw [if_neg hmiddle, if_neg hmiddle, hone]
    by_cases hhigh : utilization.raw < unit
    · rw [if_pos hhigh, if_pos hhigh, ← hone, interpolate_eq]
    · rw [if_neg hhigh, if_neg hhigh]
      rfl

end Word

end LendingRelay
