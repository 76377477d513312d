import LendingRelay.Proofs.InterestRate

/-!
# The order of borrow rates

A curve whose rates are in order never asks less of a busier reserve. The curve is put together at
its kinks, and the values on the two sides of a kink meet in the rate of that kink; so it is enough
that every segment rises by itself, and it does not matter where the kinks lie or in which order.
Shares are cut to fifteen decimals, and the cuts keep the order as well: more deposits lower the
share, and more debt raises it as long as no digits are lost.

* `Rises.seam`: two functions that rise and meet in a rate rise together.
* `RateCurve.rises_rateAt`: a curve with rates in order rises with the share.
* `utilizationRate_of_more_deposits`, `utilizationRate_of_more_debt`: the order of shares.
* `RateCurve.interestRate_mono`: the order of borrow rates.
-/

namespace LendingRelay

open Number (capacity unit)

/-! ## Rising functions -/

/-- The values of the function lie between two rates, and a larger argument has no smaller value. -/
structure Rises (f : Number → Except RelayError Number) (low high : Number) : Prop where
  order : low.raw ≤ high.raw
  low_le : ∀ {x y}, f x = .ok y → low.raw ≤ y.raw
  le_high : ∀ {x y}, f x = .ok y → y.raw ≤ high.raw
  mono : ∀ {x x' y y'}, x.raw ≤ x'.raw → f x = .ok y → f x' = .ok y' → y.raw ≤ y'.raw

theorem rises_const (rate : Number) : Rises (fun _ => .ok rate) rate rate where
  order := Nat.le_refl _
  low_le := by
    rintro x y ⟨⟩
    exact Nat.le_refl _
  le_high := by
    rintro x y ⟨⟩
    exact Nat.le_refl _
  mono := by
    rintro x x' y y' hle ⟨⟩ ⟨⟩
    exact Nat.le_refl _

/-- A segment between rates in order rises, by `interpolate_mono`, and so does one without width. -/
theorem rises_interpolate {y0 y1 : Number} (x0 x1 : Number) (hrises : y0.raw ≤ y1.raw) :
    Rises (fun x => interpolate x x0 x1 y0 y1) y0 y1 where
  order := hrises
  low_le := by
    intro x y hy
    have hbetween := interpolate_between hy
    omega
  le_high := by
    intro x y hy
    have hbetween := interpolate_between hy
    omega
  mono := by
    intro x x' y y' hle hy hy'
    by_cases hspan : x0.raw < x1.raw
    · obtain ⟨z, hz, hup, -⟩ := interpolate_mono hspan hle hy'
      cases hy.symm.trans hz
      exact hup hrises
    · -- Without a width there is only the value at the end.
      rw [interpolate_of_no_span _ y0 y1 (Nat.le_of_not_lt hspan)] at hy hy'
      cases hy
      cases hy'
      exact Nat.le_refl _

/-- **Rising functions meet in a rate.** Up to a seam the one function counts, behind it the other
one, which starts no lower than the first one ends. Nothing is asked of the place of the seam but
that whatever is below something on the near side is on the near side too. -/
theorem Rises.seam {f g : Number → Except RelayError Number} {low middle high : Number}
    (hf : Rises f low middle) (hg : Rises g middle high) (below : Number → Prop)
    [DecidablePred below] (hbelow : ∀ {x x'}, x.raw ≤ x'.raw → below x' → below x) :
    Rises (fun x => if below x then f x else g x) low high where
  order := Nat.le_trans hf.order hg.order
  low_le := by
    intro x y hy
    split at hy
    · exact hf.low_le hy
    · exact Nat.le_trans hf.order (hg.low_le hy)
  le_high := by
    intro x y hy
    split at hy
    · exact Nat.le_trans (hf.le_high hy) hg.order
    · exact hg.le_high hy
  mono := by
    intro x x' y y' hle hy hy'
    by_cases hx' : below x'
    · rw [if_pos (hbelow hle hx')] at hy
      rw [if_pos hx'] at hy'
      exact hf.mono hle hy hy'
    · rw [if_neg hx'] at hy'
      by_cases hx : below x
      · -- The two arguments lie on both sides of the seam, so the rate in the middle is between.
        rw [if_pos hx] at hy
        exact Nat.le_trans (hf.le_high hy) (hg.low_le hy')
      · rw [if_neg hx] at hy
        exact hg.mono hle hy hy'

/-! ## Curves with rates in order -/

theorem Number.ofBasisPoints_mono {n m : UInt16} (hle : n ≤ m) :
    (Number.ofBasisPoints n).raw ≤ (Number.ofBasisPoints m).raw :=
  Nat.mul_le_mul_right _ (UInt16.le_iff_toNat_le.mp hle)

namespace RateCurve

/-- The four borrow rates are in order. Nothing is said about the kinks, `utilizationRate1` and
`utilizationRate2`. -/
structure Rising (curve : RateCurve) : Prop where
  first : curve.borrowRate0 ≤ curve.borrowRate1
  second : curve.borrowRate1 ≤ curve.borrowRate2
  third : curve.borrowRate2 ≤ curve.borrowRate3

/-- **A curve with rates in order rises.** It has three seams: its kinks, and full utilization. They
are put together from the last one to the first, as `rateAt` asks for them. -/
theorem rises_rateAt {curve : RateCurve} (hrising : curve.Rising) :
    Rises curve.rateAt (.ofBasisPoints curve.borrowRate0) (.ofBasisPoints curve.borrowRate3) := by
  have hfirst := rises_interpolate .zero (.ofBasisPoints curve.utilizationRate1)
    (Number.ofBasisPoints_mono hrising.first)
  have hsecond := rises_interpolate (.ofBasisPoints curve.utilizationRate1)
    (.ofBasisPoints curve.utilizationRate2) (Number.ofBasisPoints_mono hrising.second)
  have hthird := rises_interpolate (.ofBasisPoints curve.utilizationRate2) .one
    (Number.ofBasisPoints_mono hrising.third)
  have hfull := rises_const (.ofBasisPoints curve.borrowRate3)
  have hupper := hthird.seam hfull (fun share => share.raw < Number.one.raw) Nat.lt_of_le_of_lt
  have hmiddle := hsecond.seam hupper
    (fun share => share.raw ≤ (Number.ofBasisPoints curve.utilizationRate2).raw) Nat.le_trans
  exact hfirst.seam hmiddle
    (fun share => share.raw ≤ (Number.ofBasisPoints curve.utilizationRate1).raw) Nat.le_trans

/-- The rates of two reserves are in the order of their shares, which is `rises_rateAt` for reserves
that are not empty. -/
theorem interestRate_le_of_share_le {curve : RateCurve} (hrising : curve.Rising)
    {debt debt' share share' rate rate' : Number} {deposits deposits' : UInt64}
    (hsome : ¬(deposits = 0 ∧ debt = .zero)) (hsome' : ¬(deposits' = 0 ∧ debt' = .zero))
    (hshare : utilizationRate debt deposits = .ok share)
    (hshare' : utilizationRate debt' deposits' = .ok share')
    (hrate : curve.interestRate debt deposits = .ok rate)
    (hrate' : curve.interestRate debt' deposits' = .ok rate') (hle : share.raw ≤ share'.raw) :
    rate.raw ≤ rate'.raw := by
  rw [interestRate_of_share hsome hshare] at hrate
  rw [interestRate_of_share hsome' hshare'] at hrate'
  exact (rises_rateAt hrising).mono hle hrate hrate'

end RateCurve

/-! ## The order of shares -/

namespace Number

/-- How many digits are lost depends on the dividend only, so a larger divisor stays larger.
Induction on the steps of `scaleDown`. -/
theorem scaleDown_of_divisor_le (steps dividend : Nat) {divisor divisor' : Nat}
    (hle : divisor ≤ divisor') :
    (scaleDown steps dividend divisor).1 = (scaleDown steps dividend divisor').1 ∧
      (scaleDown steps dividend divisor).2 ≤ (scaleDown steps dividend divisor').2 := by
  induction steps generalizing dividend divisor divisor' with
  | zero => exact ⟨rfl, hle⟩
  | succ steps ih =>
    by_cases hfits : dividend * unit < capacity
    · rw [scaleDown_of_fits _ _ hfits, scaleDown_of_fits _ _ hfits]
      exact ⟨rfl, hle⟩
    · rw [scaleDown_succ_of_not_fits _ _ hfits, scaleDown_succ_of_not_fits _ _ hfits]
      exact ih _ (Nat.div_le_div_right hle)

/-- A larger divisor gives no larger quotient, whatever digits are lost, by
`scaleDown_of_divisor_le`. -/
theorem div_anti {a b b' share share' : Number} (hle : b.raw ≤ b'.raw)
    (hshare : a.div b = .ok share) (hshare' : a.div b' = .ok share') : share'.raw ≤ share.raw := by
  obtain ⟨hdividend, hdivisor⟩ := scaleDown_of_divisor_le precision a.raw hle
  -- The dividend loses the same digits on both sides, so only the divisors differ.
  rw [div_eq] at hshare hshare'
  split at hshare
  · cases hshare
  next hnonzero =>
  split at hshare'
  · cases hshare'
  rw [raw_of_ofRaw? hshare, raw_of_ofRaw? hshare', hdividend]
  exact Nat.div_le_div_left hdivisor (Nat.pos_of_ne_zero hnonzero)

/-- A dividend that leaves room for its decimals keeps all its digits, by `scaleDown_of_fits`. -/
theorem raw_div_of_fits {a b share : Number} (hfits : a.raw * unit < capacity)
    (hshare : a.div b = .ok share) : share.raw = a.raw * unit / b.raw := by
  rw [div_eq, scaleDown_of_fits _ _ hfits] at hshare
  split at hshare
  · cases hshare
  · exact raw_of_ofRaw? hshare

end Number

theorem utilizationRate_eq_div {debt total : Number} {deposits : UInt64}
    (htotal : total.raw = debt.raw + deposits.toNat * unit) (hpos : 0 < total.raw) :
    utilizationRate debt deposits = debt.div total := by
  rw [utilizationRate_eq htotal, if_neg]
  rintro rfl
  exact Nat.lt_irrefl _ hpos

/-- **More deposits lower the share** of a debt, or leave it as it is. The dividend is the same
debt, so this is `Number.div_anti`. -/
theorem utilizationRate_of_more_deposits {debt share share' : Number} {deposits deposits' : UInt64}
    (hdebt : debt ≠ .zero) (hle : deposits ≤ deposits')
    (hshare : utilizationRate debt deposits = .ok share)
    (hshare' : utilizationRate debt deposits' = .ok share')
    (hfits : debt.raw + deposits'.toNat * unit < capacity) : share'.raw ≤ share.raw := by
  have hmore : deposits.toNat * unit ≤ deposits'.toNat * unit :=
    Nat.mul_le_mul_right _ (UInt64.le_iff_toNat_le.mp hle)
  have hpos : 0 < debt.raw := Nat.pos_of_ne_zero fun hraw => hdebt (Number.eq_zero_of_raw hraw)
  obtain ⟨total, htotal⟩ : ∃ total : Number, total.raw = debt.raw + deposits.toNat * unit :=
    ⟨⟨_, by omega⟩, rfl⟩
  obtain ⟨total', htotal'⟩ : ∃ total : Number, total.raw = debt.raw + deposits'.toNat * unit :=
    ⟨⟨_, hfits⟩, rfl⟩
  rw [utilizationRate_eq_div htotal (by omega)] at hshare
  rw [utilizationRate_eq_div htotal' (by omega)] at hshare'
  exact Number.div_anti (by omega) hshare hshare'

/-- A part that grows together with its whole makes up a larger share, also when shares are cut. -/
theorem share_le_share {part part' : Nat} (rest scale : Nat) (hle : part ≤ part')
    (hpos : 0 < part + rest) :
    part * scale / (part + rest) ≤ part' * scale / (part' + rest) := by
  obtain ⟨more, rfl⟩ := Nat.exists_eq_add_of_le hle
  have hshare : part * scale / (part + rest) ≤ scale :=
    Nat.div_le_of_le_mul (Nat.mul_le_mul_right _ (Nat.le_add_right _ _))
  rw [Nat.le_div_iff_mul_le (by omega)]
  -- The whole grows by as much as the part, of which a share takes no more than `scale`.
  calc
    part * scale / (part + rest) * (part + more + rest)
      = part * scale / (part + rest) * (part + rest) + part * scale / (part + rest) * more := by
        rw [Nat.add_right_comm, Nat.mul_add]
    _ ≤ part * scale + scale * more :=
        Nat.add_le_add (Nat.div_mul_le_self _ _) (Nat.mul_le_mul_right _ hshare)
    _ = (part + more) * scale := by rw [Nat.add_mul, Nat.mul_comm scale more]

/-- **More debt raises the share** of the debt, or leaves it as it is, while no digits are lost.
Both operands grow, so the exact quotients of `Number.raw_div_of_fits` are compared, by
`share_le_share`. -/
theorem utilizationRate_of_more_debt {debt debt' share share' : Number} {deposits : UInt64}
    (hsome : ¬(deposits = 0 ∧ debt = .zero)) (hle : debt.raw ≤ debt'.raw)
    (hshare : utilizationRate debt deposits = .ok share)
    (hshare' : utilizationRate debt' deposits = .ok share')
    (hexact : debt'.raw * unit < capacity)
    (hfits : debt'.raw + deposits.toNat * unit < capacity) : share.raw ≤ share'.raw := by
  -- The reserve is not empty, so there is something to divide by.
  have hpos : 0 < debt.raw + deposits.toNat * unit := by
    apply Nat.pos_of_ne_zero
    intro hnothing
    obtain ⟨hdebt, hdeposits⟩ := Nat.add_eq_zero_iff.mp hnothing
    have hnone := (Nat.mul_eq_zero.mp hdeposits).resolve_right (Nat.ne_of_gt Number.unit_pos)
    exact hsome ⟨UInt64.toNat_inj.mp hnone, Number.eq_zero_of_raw hdebt⟩
  obtain ⟨total, htotal⟩ : ∃ total : Number, total.raw = debt.raw + deposits.toNat * unit :=
    ⟨⟨_, by omega⟩, rfl⟩
  obtain ⟨total', htotal'⟩ : ∃ total : Number, total.raw = debt'.raw + deposits.toNat * unit :=
    ⟨⟨_, hfits⟩, rfl⟩
  have hexact' : debt.raw * unit < capacity :=
    Nat.lt_of_le_of_lt (Nat.mul_le_mul_right _ hle) hexact
  rw [utilizationRate_eq_div htotal (by omega)] at hshare
  rw [utilizationRate_eq_div htotal' (by omega)] at hshare'
  rw [Number.raw_div_of_fits hexact' hshare, Number.raw_div_of_fits hexact hshare', htotal, htotal']
  exact share_le_share _ _ hle hpos

namespace RateCurve

/-! ## The order of borrow rates -/

/-- Only a reserve whose debt and deposits fit together has a rate,
by `interestRate_of_not_fits`. -/
theorem fits_of_interestRate {curve : RateCurve} {debt rate : Number} {deposits : UInt64}
    (hrate : curve.interestRate debt deposits = .ok rate) :
    debt.raw + deposits.toNat * unit < capacity := by
  by_cases hfits : debt.raw + deposits.toNat * unit < capacity
  · exact hfits
  · rw [curve.interestRate_of_not_fits hfits] at hrate
    cases hrate

/-- A debt that leaves room for its decimals leaves room for any deposits. -/
theorem fits_of_exact {debt : Number} (deposits : UInt64) (hexact : debt.raw * unit < capacity) :
    debt.raw + deposits.toNat * unit < capacity := by
  have hdeposits := deposits.toNat_lt
  simp only [unit, capacity] at hexact ⊢
  omega

/-- **A busier reserve does not pay less.** Where the rates of a curve are in order, and wherever
its kinks lie, the rates of two reserves that are not empty are in the order of their shares. So
more deposits against a debt never raise the rate, and more debt never lowers it while no digits of
the debt are lost. The first statement is `interestRate_le_of_share_le`, and the other two give it
the order of the shares. -/
theorem interestRate_mono {curve : RateCurve} (hrising : curve.Rising) :
    (∀ (debt debt' rate rate' : Number) (deposits deposits' : UInt64),
      ¬(deposits = 0 ∧ debt = .zero) → ¬(deposits' = 0 ∧ debt' = .zero) →
      curve.interestRate debt deposits = .ok rate →
      curve.interestRate debt' deposits' = .ok rate' →
      ∃ share share', utilizationRate debt deposits = .ok share ∧
        utilizationRate debt' deposits' = .ok share' ∧
        (share.raw ≤ share'.raw → rate.raw ≤ rate'.raw)) ∧
    (∀ (debt rate' : Number) (deposits deposits' : UInt64),
      debt ≠ .zero → deposits ≤ deposits' → curve.interestRate debt deposits' = .ok rate' →
      ∃ rate, curve.interestRate debt deposits = .ok rate ∧ rate'.raw ≤ rate.raw) ∧
    (∀ (debt debt' : Number) (deposits : UInt64),
      ¬(deposits = 0 ∧ debt = .zero) → debt.raw ≤ debt'.raw → debt'.raw * unit < capacity →
      ∃ rate rate', curve.interestRate debt deposits = .ok rate ∧
        curve.interestRate debt' deposits = .ok rate' ∧ rate.raw ≤ rate'.raw) := by
  refine ⟨?_, ?_, ?_⟩
  · intro debt debt' rate rate' deposits deposits' hsome hsome' hrate hrate'
    obtain ⟨share, hshare, -⟩ := utilizationRate_of_fits (fits_of_interestRate hrate)
    obtain ⟨share', hshare', -⟩ := utilizationRate_of_fits (fits_of_interestRate hrate')
    exact ⟨share, share', hshare, hshare',
      interestRate_le_of_share_le hrising hsome hsome' hshare hshare' hrate hrate'⟩
  · intro debt rate' deposits deposits' hdebt hle hrate'
    -- A debt is there on both sides, whatever the deposits are.
    have hsome : ∀ {n : UInt64}, ¬(n = 0 ∧ debt = .zero) := fun hnothing => hdebt hnothing.2
    have hfits' := fits_of_interestRate hrate'
    have hfits : debt.raw + deposits.toNat * unit < capacity :=
      Nat.lt_of_le_of_lt (Nat.add_le_add_left
        (Nat.mul_le_mul_right _ (UInt64.le_iff_toNat_le.mp hle)) _) hfits'
    obtain ⟨rate, hrate, -⟩ := curve.interestRate_of_fits hfits
    obtain ⟨share, hshare, -⟩ := utilizationRate_of_fits hfits
    obtain ⟨share', hshare', -⟩ := utilizationRate_of_fits hfits'
    exact ⟨rate, hrate, interestRate_le_of_share_le hrising hsome hsome hshare' hshare hrate' hrate
      (utilizationRate_of_more_deposits hdebt hle hshare hshare' hfits')⟩
  · intro debt debt' deposits hsome hle hexact
    have hfits' := fits_of_exact deposits hexact
    have hfits : debt.raw + deposits.toNat * unit < capacity := by omega
    have hsome' : ¬(deposits = 0 ∧ debt' = .zero) := by
      rintro ⟨hdeposits, rfl⟩
      exact hsome ⟨hdeposits, Number.eq_zero_of_raw (Nat.le_zero.mp hle)⟩
    obtain ⟨rate, hrate, -⟩ := curve.interestRate_of_fits hfits
    obtain ⟨rate', hrate', -⟩ := curve.interestRate_of_fits hfits'
    obtain ⟨share, hshare, -⟩ := utilizationRate_of_fits hfits
    obtain ⟨share', hshare', -⟩ := utilizationRate_of_fits hfits'
    exact ⟨rate, rate', hrate, hrate', interestRate_le_of_share_le hrising hsome hsome' hshare
      hshare' hrate hrate' (utilizationRate_of_more_debt hsome hle hshare hshare' hexact hfits')⟩

/-- The kinks of this curve are out of order, so its middle segment is never reached. A reserve with
more of it lent out still pays no less. -/
theorem interestRate_mono_reversed_kinks :
    Rising ⟨9000, 4000, 100, 300, 300, 700⟩ ∧
      ∃ rate rate', interestRate ⟨9000, 4000, 100, 300, 300, 700⟩
          ⟨50 * unit, by simp [unit, capacity]⟩ 50 = .ok rate ∧
        interestRate ⟨9000, 4000, 100, 300, 300, 700⟩
          ⟨950 * unit, by simp [unit, capacity]⟩ 50 = .ok rate' ∧
        rate.raw ≤ rate'.raw := by
  have hrising : Rising ⟨9000, 4000, 100, 300, 300, 700⟩ := ⟨by decide, by decide, by decide⟩
  have hsome : ¬((50 : UInt64) = 0 ∧ (⟨50 * unit, by simp [unit, capacity]⟩ : Number) = .zero) :=
    fun hnothing => absurd hnothing.1 (by decide)
  exact ⟨hrising,
    (interestRate_mono hrising).2.2 _ _ 50 hsome (by decide) (by simp [unit, capacity])⟩

end RateCurve

end LendingRelay
