import LendingRelay.Rates
import LendingRelay.Proofs.Interpolation
import Mathlib.Algebra.Order.Ring.Nat

/-!
# The borrowed share

A share is a quotient of two numbers of which the first is the smaller one. Large operands lose
digits before they are divided, both of them equally many, so the divisor stays the larger one and
never becomes zero. That keeps every share between zero and one, and leaves the sum of debt and
deposits as the only thing that can fail.

* `Number.scaleDown_le`, `Number.scaleDown_pos`, `Number.scaleDown_fits`: what losing digits leaves
  of the operands.
* `Number.div_of_le`: a quotient of a smaller by a larger number is there, and at most one.
* `utilizationRate_of_fits`, `utilizationRate_of_not_fits`: when there is a share.
-/

namespace LendingRelay

namespace Number

/-! ## Losing digits -/

theorem scaleDown_of_fits {dividend : Nat} (steps divisor : Nat)
    (hfits : dividend * unit < capacity) :
    scaleDown steps dividend divisor = (dividend, divisor) := by
  cases steps with
  | zero => rfl
  | succ steps => exact if_pos hfits

theorem scaleDown_succ_of_not_fits {dividend : Nat} (steps divisor : Nat)
    (hover : ¬dividend * unit < capacity) :
    scaleDown (steps + 1) dividend divisor = scaleDown steps (dividend / 10) (divisor / 10) :=
  if_neg hover

/-- Only a dividend of many digits loses one, so a digit is left of it. -/
theorem ten_le_of_not_fits {dividend : Nat} (hover : ¬dividend * unit < capacity) :
    10 ≤ dividend := by
  simp only [unit, capacity] at hover
  omega

/-- The divisor stays the larger one. Induction on the steps of `scaleDown`, each of which divides
both operands by ten. -/
theorem scaleDown_le (steps : Nat) {dividend divisor : Nat} (hle : dividend ≤ divisor) :
    (scaleDown steps dividend divisor).1 ≤ (scaleDown steps dividend divisor).2 := by
  induction steps generalizing dividend divisor with
  | zero => exact hle
  | succ steps ih =>
    by_cases hfits : dividend * unit < capacity
    · rw [scaleDown_of_fits _ _ hfits]
      exact hle
    · rw [scaleDown_succ_of_not_fits _ _ hfits]
      exact ih (Nat.div_le_div_right hle)

/-- The dividend does not lose its last digit, by `ten_le_of_not_fits`. -/
theorem scaleDown_pos (steps divisor : Nat) {dividend : Nat} (hpos : 0 < dividend) :
    0 < (scaleDown steps dividend divisor).1 := by
  induction steps generalizing dividend divisor with
  | zero => exact hpos
  | succ steps ih =>
    by_cases hfits : dividend * unit < capacity
    · rw [scaleDown_of_fits _ _ hfits]
      exact hpos
    · rw [scaleDown_succ_of_not_fits _ _ hfits]
      -- The dividend has a second digit, which is left of it.
      have hten := ten_le_of_not_fits hfits
      exact ih _ (by omega)

theorem digit_in_reach {steps dividend : Nat}
    (hreach : dividend * unit < capacity * 10 ^ (steps + 1)) :
    dividend / 10 * unit < capacity * 10 ^ steps := by
  have hcut : dividend / 10 * 10 * unit ≤ dividend * unit :=
    Nat.mul_le_mul_right unit (Nat.div_mul_le_self dividend 10)
  -- Compared with ten times both sides, since a tenth is cut.
  have hdigit : dividend / 10 * unit * 10 < capacity * 10 ^ steps * 10 := by
    rw [Nat.mul_right_comm, Nat.mul_assoc capacity, ← pow_succ]
    exact Nat.lt_of_le_of_lt hcut hreach
  exact Nat.lt_of_mul_lt_mul_right hdigit

/-- With enough steps the scaled dividend leaves room for all its decimals. Every step brings it a
digit closer, by `digit_in_reach`. -/
theorem scaleDown_fits (steps divisor : Nat) {dividend : Nat}
    (hreach : dividend * unit < capacity * 10 ^ steps) :
    (scaleDown steps dividend divisor).1 * unit < capacity := by
  induction steps generalizing dividend divisor with
  | zero =>
    rw [pow_zero, Nat.mul_one] at hreach
    rw [scaleDown_of_fits 0 divisor hreach]
    exact hreach
  | succ steps ih =>
    by_cases hfits : dividend * unit < capacity
    · rw [scaleDown_of_fits _ _ hfits]
      exact hfits
    · rw [scaleDown_succ_of_not_fits _ _ hfits]
      exact ih _ (digit_in_reach hreach)

theorem unit_eq_pow : unit = 10 ^ precision := by simp [unit, precision]

theorem unit_pos : 0 < unit := by simp [unit]

theorem unit_lt_capacity : unit < capacity := by simp [unit, capacity]

/-- `precision` steps are in reach of every number. -/
theorem mul_unit_lt (n : Number) : n.raw * unit < capacity * 10 ^ precision := by
  rw [← unit_eq_pow]
  exact Nat.mul_lt_mul_of_pos_right n.raw_lt unit_pos

/-! ## Shares -/

theorem div_eq (a b : Number) :
    a.div b =
      if (scaleDown precision a.raw b.raw).2 = 0 then .error .mathOverflow
      else ofRaw? ((scaleDown precision a.raw b.raw).1 * unit /
        (scaleDown precision a.raw b.raw).2) :=
  rfl

/-- **A share is there and is at most one.** The divisor does not become zero, as it stays above a
dividend that does not. -/
theorem div_of_le {a b : Number} (hle : a.raw ≤ b.raw) (hpos : 0 < b.raw) :
    ∃ share, a.div b = .ok share ∧ share.raw ≤ unit := by
  have horder := scaleDown_le precision hle
  -- A dividend of zero leaves the divisor as it is; any other one keeps the divisor above zero.
  have hdivisor : 0 < (scaleDown precision a.raw b.raw).2 := by
    rcases Nat.eq_zero_or_pos a.raw with hzero | hdividend
    · rw [hzero, scaleDown_of_fits _ _ (by simp [capacity])]
      exact hpos
    · exact Nat.lt_of_lt_of_le (scaleDown_pos precision b.raw hdividend) horder
  have hshare : (scaleDown precision a.raw b.raw).1 * unit / (scaleDown precision a.raw b.raw).2 ≤
      unit :=
    Nat.div_le_of_le_mul (Nat.mul_le_mul_right _ horder)
  have hfits := Nat.lt_of_le_of_lt hshare unit_lt_capacity
  refine ⟨⟨_, hfits⟩, ?_, hshare⟩
  rw [div_eq, if_neg (Nat.ne_of_gt hdivisor), ofRaw?_of_lt hfits]

theorem raw_ofUInt64 (n : UInt64) : (ofUInt64 n).raw = n.toNat * unit := rfl

theorem raw_zero : zero.raw = 0 := rfl

theorem eq_zero_of_raw {n : Number} (hraw : n.raw = 0) : n = zero :=
  eq_of_raw hraw

theorem add_of_raw {a b total : Number} (hraw : total.raw = a.raw + b.raw) :
    a.add b = .ok total := by
  unfold add
  rw [← hraw, ofRaw?_raw]

end Number

/-! ## Shares of a reserve -/

theorem utilizationRate_of_not_fits {debt : Number} {deposits : UInt64}
    (hover : ¬debt.raw + deposits.toNat * Number.unit < Number.capacity) :
    utilizationRate debt deposits = .error .mathOverflow := by
  unfold utilizationRate Number.add
  rw [Number.raw_ofUInt64, Number.ofRaw?_of_not_lt hover]
  rfl

/-- The debt is shared among debt and deposits by `Number.div`; nothing at all has no share. -/
theorem utilizationRate_eq {debt total : Number} {deposits : UInt64}
    (htotal : total.raw = debt.raw + deposits.toNat * Number.unit) :
    utilizationRate debt deposits = if total = .zero then .ok .zero else debt.div total := by
  unfold utilizationRate
  rw [Number.add_of_raw htotal]
  rfl

/-- **A share of a total that fits** is there, and is at most one, by `Number.div_of_le`. -/
theorem utilizationRate_of_fits {debt : Number} {deposits : UInt64}
    (hfits : debt.raw + deposits.toNat * Number.unit < Number.capacity) :
    ∃ share, utilizationRate debt deposits = .ok share ∧ share.raw ≤ Number.unit := by
  obtain ⟨total, htotal⟩ : ∃ total : Number,
      total.raw = debt.raw + deposits.toNat * Number.unit := ⟨⟨_, hfits⟩, rfl⟩
  rw [utilizationRate_eq htotal]
  -- Only a reserve that is not empty comes to the division.
  by_cases hzero : total = .zero
  · rw [if_pos hzero]
    exact ⟨.zero, rfl, Nat.zero_le _⟩
  · rw [if_neg hzero]
    apply Number.div_of_le
    · rw [htotal]
      exact Nat.le_add_right _ _
    · exact Nat.pos_of_ne_zero fun hraw => hzero (Number.eq_zero_of_raw hraw)

end LendingRelay
