import LendingRelay.Proofs.Words

/-!
# The borrow rate

Utilizations and rates come in basis points, so all of them are below ten, and the products along
the curve have ample room. What is left to fail is the sum of debt and deposits: while it fits there
is a borrow rate, and that rate lies between the lowest and the highest one the curve names,
whatever the order of its kinks.

* `interpolate_of_lt_ten`: below ten there is a value on every segment.
* `RateCurve.interestRate_of_fits`, `RateCurve.interestRate_of_not_fits`: when there is a rate.
* `RateCurve.interestRate_total`: the rate, its failure and its bounds, and that nothing on the way
  to it stops.
-/

namespace LendingRelay

open Number (capacity unit)

/-- Sixteen bits of basis points are less than ten, in units of `unit`. -/
theorem Number.ofBasisPoints_lt (n : UInt16) : (Number.ofBasisPoints n).raw < 10 * unit := by
  have hlt : n.toNat < 65536 := n.toNat_lt
  show n.toNat * (unit / 10000) < 10 * unit
  simp only [unit]
  omega

/-- **Below ten there is a value on every segment.** Width and height are below ten as well, and a
product of two such numbers is far below `capacity`. -/
theorem interpolate_of_lt_ten {x1 y0 y1 : Number} (x x0 : Number) (hx1 : x1.raw < 10 * unit)
    (hy0 : y0.raw < 10 * unit) (hy1 : y1.raw < 10 * unit) :
    ∃ y, interpolate x x0 x1 y0 y1 = .ok y ∧
      min y0.raw y1.raw ≤ y.raw ∧ y.raw ≤ max y0.raw y1.raw := by
  suffices hvalue : ∃ y, interpolate x x0 x1 y0 y1 = .ok y by
    obtain ⟨y, hy⟩ := hvalue
    exact ⟨y, hy, interpolate_between hy⟩
  -- Only a value is left to find; that it lies between the ends holds on every segment.
  by_cases hspan : x0.raw < x1.raw
  · have halong : Segment.along x x0 x1 ≤ 10 * unit := by
      have hle := Segment.along_le_span x hspan
      omega
    have hheight : Segment.height y0 y1 ≤ 10 * unit := by
      unfold Segment.height
      omega
    have hproduct : Segment.along x x0 x1 * Segment.height y0 y1 < capacity :=
      calc Segment.along x x0 x1 * Segment.height y0 y1
          ≤ 10 * unit * (10 * unit) := Nat.mul_le_mul halong hheight
        _ < capacity := by simp [unit, capacity]
    exact ⟨_, by rw [interpolate_eq x y0 y1 hspan, if_pos hproduct]⟩
  · exact ⟨y1, interpolate_of_no_span x y0 y1 (Nat.le_of_not_lt hspan)⟩

namespace RateCurve

def lowest (curve : RateCurve) : Nat :=
  min
    (min (Number.ofBasisPoints curve.borrowRate0).raw (Number.ofBasisPoints curve.borrowRate1).raw)
    (min (Number.ofBasisPoints curve.borrowRate2).raw (Number.ofBasisPoints curve.borrowRate3).raw)

def highest (curve : RateCurve) : Nat :=
  max
    (max (Number.ofBasisPoints curve.borrowRate0).raw (Number.ofBasisPoints curve.borrowRate1).raw)
    (max (Number.ofBasisPoints curve.borrowRate2).raw (Number.ofBasisPoints curve.borrowRate3).raw)

/-- There is a rate, and it is on the curve: between `lowest` and `highest`. -/
def OnCurve (curve : RateCurve) (result : Except RelayError Number) : Prop :=
  ∃ rate, result = .ok rate ∧ curve.lowest ≤ rate.raw ∧ rate.raw ≤ curve.highest

/-- A segment between two of the rates of a curve stays on it, by `interpolate_of_lt_ten`. -/
theorem onCurve_of_segment {curve : RateCurve} {x1 : Number} {n0 n1 : UInt16} (x x0 : Number)
    (hx1 : x1.raw < 10 * unit)
    (hlow : curve.lowest ≤ min (Number.ofBasisPoints n0).raw (Number.ofBasisPoints n1).raw)
    (hhigh : max (Number.ofBasisPoints n0).raw (Number.ofBasisPoints n1).raw ≤ curve.highest) :
    curve.OnCurve (interpolate x x0 x1 (.ofBasisPoints n0) (.ofBasisPoints n1)) := by
  obtain ⟨rate, hrate, hlower, hupper⟩ :=
    interpolate_of_lt_ten x x0 hx1 (Number.ofBasisPoints_lt n0) (Number.ofBasisPoints_lt n1)
  exact ⟨rate, hrate, Nat.le_trans hlow hlower, Nat.le_trans hupper hhigh⟩

/-- The rate that the curve gives to a share, by its three regimes and the end of the curve.
`interestRate_of_share` shows that this is what `RateCurve.interestRate` does with the share of a
reserve. -/
def rateAt (curve : RateCurve) (share : Number) : Except RelayError Number :=
  if share.raw ≤ (Number.ofBasisPoints curve.utilizationRate1).raw then
    interpolate share .zero (.ofBasisPoints curve.utilizationRate1)
      (.ofBasisPoints curve.borrowRate0) (.ofBasisPoints curve.borrowRate1)
  else if share.raw ≤ (Number.ofBasisPoints curve.utilizationRate2).raw then
    interpolate share (.ofBasisPoints curve.utilizationRate1)
      (.ofBasisPoints curve.utilizationRate2)
      (.ofBasisPoints curve.borrowRate1) (.ofBasisPoints curve.borrowRate2)
  else if share.raw < Number.one.raw then
    interpolate share (.ofBasisPoints curve.utilizationRate2) .one
      (.ofBasisPoints curve.borrowRate2) (.ofBasisPoints curve.borrowRate3)
  else .ok (.ofBasisPoints curve.borrowRate3)

theorem interestRate_of_share {curve : RateCurve} {debt share : Number} {deposits : UInt64}
    (hsome : ¬(deposits = 0 ∧ debt = .zero)) (hshare : utilizationRate debt deposits = .ok share) :
    curve.interestRate debt deposits = curve.rateAt share := by
  unfold interestRate
  rw [if_neg hsome, hshare]
  rfl

/-- Every share has a rate, in whichever regime it falls. In each of them `onCurve_of_segment`
applies with the two rates of that segment. -/
theorem onCurve_of_share {curve : RateCurve} {debt share : Number} {deposits : UInt64}
    (hsome : ¬(deposits = 0 ∧ debt = .zero)) (hshare : utilizationRate debt deposits = .ok share) :
    curve.OnCurve (curve.interestRate debt deposits) := by
  rw [interestRate_of_share hsome hshare]
  unfold rateAt
  -- The regimes come in the order of `rateAt`, and behind them full utilization.
  by_cases hfirst : share.raw ≤ (Number.ofBasisPoints curve.utilizationRate1).raw
  · rw [if_pos hfirst]
    apply onCurve_of_segment share .zero (Number.ofBasisPoints_lt _)
    · exact Nat.min_le_left _ _
    · exact Nat.le_max_left _ _
  rw [if_neg hfirst]
  by_cases hsecond : share.raw ≤ (Number.ofBasisPoints curve.utilizationRate2).raw
  · rw [if_pos hsecond]
    apply onCurve_of_segment share _ (Number.ofBasisPoints_lt _)
    · unfold lowest
      omega
    · unfold highest
      omega
  rw [if_neg hsecond]
  by_cases hthird : share.raw < Number.one.raw
  · rw [if_pos hthird]
    apply onCurve_of_segment share _ (by simp [Number.one, unit])
    · exact Nat.min_le_right _ _
    · exact Nat.le_max_right _ _
  · rw [if_neg hthird]
    refine ⟨_, rfl, ?_, ?_⟩
    · unfold lowest
      omega
    · unfold highest
      omega

/-- **A reserve whose debt and deposits fit has a rate on the curve.** An empty one has
`borrowRate1`, any other one the rate of its share. -/
theorem interestRate_of_fits (curve : RateCurve) {debt : Number} {deposits : UInt64}
    (hfits : debt.raw + deposits.toNat * unit < capacity) :
    curve.OnCurve (curve.interestRate debt deposits) := by
  by_cases hempty : deposits = 0 ∧ debt = .zero
  · refine ⟨.ofBasisPoints curve.borrowRate1, ?_, ?_, ?_⟩
    · unfold interestRate
      exact if_pos hempty
    · unfold lowest
      omega
    · unfold highest
      omega
  · obtain ⟨share, hshare, -⟩ := utilizationRate_of_fits hfits
    exact onCurve_of_share hempty hshare

/-- **A reserve whose debt and deposits do not fit has none**, since it has no share. -/
theorem interestRate_of_not_fits (curve : RateCurve) {debt : Number} {deposits : UInt64}
    (hover : ¬debt.raw + deposits.toNat * unit < capacity) :
    curve.interestRate debt deposits = .error .mathOverflow := by
  -- An empty reserve fits, so this one is not empty.
  have hsome : ¬(deposits = 0 ∧ debt = .zero) := by
    rintro ⟨rfl, rfl⟩
    exact hover (by simp [Number.zero, capacity])
  unfold interestRate
  rw [if_neg hsome, utilizationRate_of_not_fits hover]
  rfl

/-- **The borrow rate is total and stays on its curve.** For every curve, debt and deposits there is
a rate exactly when debt and deposits together fit, and otherwise the overflow is reported; a rate
lies between the lowest and the highest of the curve's; and the computation on words comes to the
same by `Word.interestRate_eq`, so none of its unchecked operations stops. -/
theorem interestRate_total (curve : RateCurve) (debt : Number) (deposits : UInt64) :
    ((∃ rate, curve.interestRate debt deposits = .ok rate) ↔
      debt.raw + deposits.toNat * unit < capacity) ∧
    (curve.interestRate debt deposits = .error .mathOverflow ↔
      ¬debt.raw + deposits.toNat * unit < capacity) ∧
    (∀ rate, curve.interestRate debt deposits = .ok rate →
      curve.lowest ≤ rate.raw ∧ rate.raw ≤ curve.highest) ∧
    Word.interestRate curve debt.raw deposits =
      Word.outcome (curve.interestRate debt deposits) := by
  have hword := Word.interestRate_eq curve debt deposits
  by_cases hfits : debt.raw + deposits.toNat * unit < capacity
  · obtain ⟨rate, hrate, hlow, hhigh⟩ := curve.interestRate_of_fits hfits
    refine ⟨⟨fun _ => hfits, fun _ => ⟨rate, hrate⟩⟩, ⟨fun hover => ?_, (absurd hfits ·)⟩, ?_,
      hword⟩
    · rw [hrate] at hover
      cases hover
    · intro other hother
      rw [hrate] at hother
      cases hother
      exact ⟨hlow, hhigh⟩
  · have hover := curve.interestRate_of_not_fits hfits
    refine ⟨⟨fun ⟨rate, hrate⟩ => ?_, (absurd · hfits)⟩, ⟨fun _ => hfits, fun _ => hover⟩, ?_,
      hword⟩
    · rw [hover] at hrate
      cases hrate
    · intro rate hrate
      rw [hover] at hrate
      cases hrate

/-- Three quarters of a reserve are lent out, on a falling segment of a curve whose kinks are out of
order. -/
theorem interestRate_falling :
    RateCurve.interestRate ⟨9000, 4000, 300, 200, 700, 100⟩
        ⟨75 * unit, by simp [unit, capacity]⟩ 25 =
      .ok ⟨21666666666667, by simp [capacity]⟩ ∧
    RateCurve.lowest ⟨9000, 4000, 300, 200, 700, 100⟩ ≤ 21666666666667 ∧
      21666666666667 ≤ RateCurve.highest ⟨9000, 4000, 300, 200, 700, 100⟩ := by
  have hrate : RateCurve.interestRate ⟨9000, 4000, 300, 200, 700, 100⟩
      ⟨75 * unit, by simp [unit, capacity]⟩ 25 =
        .ok ⟨21666666666667, by simp [capacity]⟩ := by
    decide +kernel
  have htotal := interestRate_total ⟨9000, 4000, 300, 200, 700, 100⟩
    ⟨75 * unit, by simp [unit, capacity]⟩ 25
  exact ⟨hrate, htotal.2.2.1 _ hrate⟩

end RateCurve

end LendingRelay
