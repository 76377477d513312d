import LendingRelay.Number

/-!
# Interest rates and conversions

The borrow rate of a reserve is a piecewise linear function of how much of it is lent out.
-/

namespace LendingRelay

/-- The value at `x` on the line from `(x0, y0)` to `(x1, y1)`, which ends at both points. A segment
without width has the value `y1`. The step away from `y0` is cut, and is never larger than the
height of the segment. -/
def interpolate (x x0 x1 y0 y1 : Number) : Except RelayError Number := do
  if x1.raw ≤ x0.raw then return y1
  let span := x1.raw - x0.raw
  -- At most the whole span, so the step below is at most the whole height.
  let along := max x0.raw (min x.raw x1.raw) - x0.raw
  if y0.raw ≤ y1.raw then
    let product ← Number.ofRaw? (along * (y1.raw - y0.raw))
    Number.ofRaw? (y0.raw + product.raw / span)
  else
    let product ← Number.ofRaw? (along * (y0.raw - y1.raw))
    Number.ofRaw? (y0.raw - product.raw / span)

/-- The borrowed share of a reserve, `debt / (debt + deposits)`; an empty reserve has none. -/
def utilizationRate (outstandingDebt : Number) (totalDeposits : UInt64) :
    Except RelayError Number := do
  let total ← outstandingDebt.add (.ofUInt64 totalDeposits)
  if total = .zero then return .zero
  outstandingDebt.div total

/-- The interest curve of a reserve in basis points: two utilizations at which the slope changes,
and the rates at no utilization, at the two, and at full utilization. -/
structure RateCurve where
  utilizationRate1 : UInt16
  utilizationRate2 : UInt16
  borrowRate0 : UInt16
  borrowRate1 : UInt16
  borrowRate2 : UInt16
  borrowRate3 : UInt16
  deriving DecidableEq, Repr

/-- The borrow rate at the utilization of a reserve. An empty reserve has the first kink's rate. -/
def RateCurve.interestRate (curve : RateCurve) (outstandingDebt : Number)
    (totalDeposits : UInt64) : Except RelayError Number := do
  let rate1 := Number.ofBasisPoints curve.borrowRate1
  if totalDeposits = 0 ∧ outstandingDebt = .zero then return rate1
  let utilization ← utilizationRate outstandingDebt totalDeposits
  let kink1 := Number.ofBasisPoints curve.utilizationRate1
  let kink2 := Number.ofBasisPoints curve.utilizationRate2
  let rate0 := Number.ofBasisPoints curve.borrowRate0
  let rate2 := Number.ofBasisPoints curve.borrowRate2
  let rate3 := Number.ofBasisPoints curve.borrowRate3
  if utilization.raw ≤ kink1.raw then interpolate utilization .zero kink1 rate0 rate1
  else if utilization.raw ≤ kink2.raw then interpolate utilization kink1 kink2 rate1 rate2
  else if utilization.raw < Number.one.raw then interpolate utilization kink2 .one rate2 rate3
  else return rate3

/-- A note amount in smallest token units, at a rate of tokens per note. -/
def notesToNative (notes rate : Number) (exponent : Int) : Except RelayError UInt64 := do
  let value ← notes.mul rate
  value.scaled exponent .nearest

end LendingRelay
