import LendingRelay.Proofs.Utilization

/-!
# How exact a share is

A share has fifteen decimals, and a large debt loses digits before it is divided. The total loses
the same digits: deposits are whole units, so all that is cut off both of them comes from the debt.
What is cut is therefore the same remainder on both sides, and it is small against a divisor that
was large enough to lose digits. So a share never says too much, and too little by less than two
of its last decimals.

* `Number.scaleDown_eq_div_pow`: losing digits is one division by a power of ten.
* `cut_share_le`, `lt_cut_share`: what the cut digits do to a quotient.
* `utilizationRate_accurate`: when there is a share, and how exact it is.
-/

namespace LendingRelay

open Number (capacity unit)

namespace Number

/-! ## The digits that are lost -/

/-- A digit and then some more is one division, `Nat.div_div_eq_div_mul`. -/
theorem div_ten_div_pow (n k : Nat) : n / 10 / 10 ^ k = n / 10 ^ (k + 1) := by
  rw [Nat.div_div_eq_div_mul, pow_succ']

/-- **Losing digits is one division** by a power of ten, and no digit is lost that there was room
for. -/
theorem scaleDown_eq_div_pow (steps dividend divisor : Nat) :
    ∃ lost ≤ steps, scaleDown steps dividend divisor = (dividend / 10 ^ lost, divisor / 10 ^ lost) ∧
      ∀ earlier < lost, ¬dividend / 10 ^ earlier * unit < capacity := by
  induction steps generalizing dividend divisor with
  | zero => exact ⟨0, Nat.le_refl 0, by simp [scaleDown], by simp⟩
  | succ steps ih =>
    by_cases hfits : dividend * unit < capacity
    · refine ⟨0, Nat.zero_le _, ?_, by simp⟩
      rw [scaleDown_of_fits _ _ hfits]
      simp
    · obtain ⟨lost, hle, hscaled, hearlier⟩ := ih (dividend / 10) (divisor / 10)
      -- One digit more than the rest of the loop loses, and for that one there was no room either.
      refine ⟨lost + 1, by omega, ?_, ?_⟩
      · rw [scaleDown_succ_of_not_fits _ _ hfits, hscaled, div_ten_div_pow, div_ten_div_pow]
      · intro earlier hlt
        cases earlier with
        | zero => simpa using hfits
        | succ earlier =>
          rw [← div_ten_div_pow]
          exact hearlier earlier (by omega)

/-- A dividend that had to lose its last digit still has more than fifteen of them, as `capacity` is
far above the square of `unit`. -/
theorem unit_le_of_lost {dividend lost : Nat}
    (hover : ¬dividend / 10 ^ lost * unit < capacity) : unit ≤ dividend / 10 ^ (lost + 1) := by
  have hdigit : dividend / 10 ^ (lost + 1) = dividend / 10 ^ lost / 10 := by
    rw [Nat.div_div_eq_div_mul, ← pow_succ]
  rw [hdigit]
  generalize dividend / 10 ^ lost = kept at hover
  simp only [unit, capacity] at hover ⊢
  omega

end Number

/-! ## Quotients of cut operands

A part and a whole lose their last digits. Where these are worth the same on both sides, they move
the exact quotient up. Those of the part never move it far, as long as they are small against the
whole, and those of the whole can only move it down. -/

/-- Of cut operands the quotient never says too much about the operands before the cut. -/
theorem cut_share_le {part whole : Nat} (power cut scale : Nat) (hle : part ≤ whole) :
    part * scale / whole * (whole * power + cut) ≤ (part * power + cut) * scale := by
  have hshare := Nat.div_mul_le_self (part * scale) whole
  have hunit : part * scale / whole ≤ scale := Nat.div_le_of_le_mul (Nat.mul_le_mul_right _ hle)
  generalize part * scale / whole = share at *
  calc share * (whole * power + cut)
      = share * whole * power + share * cut := by rw [Nat.mul_add, Nat.mul_assoc]
    _ ≤ part * scale * power + scale * cut :=
        Nat.add_le_add (Nat.mul_le_mul_right _ hshare) (Nat.mul_le_mul_right _ hunit)
    _ = (part * power + cut) * scale := by grind

/-- It says too little by less than two, when the remainder is small against the whole, and so
whatever was cut off the whole. -/
theorem lt_cut_share (part : Nat) {whole power cut scale : Nat} (hwhole : 0 < whole)
    (hpower : 0 < power) (hsmall : cut * scale ≤ whole * power) :
    (part * power + cut) * scale < (part * scale / whole + 2) * (whole * power) := by
  have hshare : part * scale < (part * scale / whole + 1) * whole := by
    rw [Nat.mul_comm _ whole]
    exact Nat.lt_mul_div_succ _ hwhole
  generalize part * scale / whole = share at *
  have hpart : part * scale * power < (share + 1) * whole * power :=
    Nat.mul_lt_mul_of_pos_right hshare hpower
  -- One for the cut of the quotient, and one for what was cut off the part.
  calc (part * power + cut) * scale
      = part * scale * power + cut * scale := by grind
    _ < (share + 1) * whole * power + whole * power := by omega
    _ = (share + 2) * (whole * power) := by grind

theorem share_eq_scale_iff {part whole scale : Nat} (hle : part ≤ whole) (hwhole : 0 < whole)
    (hscale : 0 < scale) : part * scale / whole = scale ↔ part = whole := by
  refine ⟨fun hfull => ?_, fun heq => ?_⟩
  · have hback := Nat.div_mul_le_self (part * scale) whole
    rw [hfull, Nat.mul_comm part] at hback
    exact Nat.le_antisymm hle (Nat.le_of_mul_le_mul_left hback hscale)
  · rw [heq]
    exact Nat.mul_div_cancel_left scale hwhole

/-- Either nothing is cut off, or what is left of the dividend is as large as one at least. So what
is cut off any number is small against all that is no smaller than the rest of the dividend. -/
theorem cut_small_of_lost (n : Nat) {dividend whole lost : Nat}
    (hearlier : ∀ earlier < lost, ¬dividend / 10 ^ earlier * unit < capacity)
    (hle : dividend / 10 ^ lost ≤ whole) : n % 10 ^ lost * unit ≤ whole * 10 ^ lost := by
  cases lost with
  | zero => simp [Nat.mod_one]
  | succ lost =>
    have hkept := Number.unit_le_of_lost (hearlier lost (Nat.lt_succ_self lost))
    have hcut : n % 10 ^ (lost + 1) < 10 ^ (lost + 1) := Nat.mod_lt n (Nat.pow_pos (by decide))
    rw [Nat.mul_comm]
    exact Nat.mul_le_mul (by omega) (Nat.le_of_lt hcut)

/-! ## Shares of a reserve -/

/-- How exact the share of a debt is in a reserve that is not empty: it never says too much, too
little by less than two, and nothing too little while the debt leaves room for its decimals. The
exact share is never formed; all bounds are products of whole numbers. -/
structure AccurateShare (debt deposits share : Nat) : Prop where
  le_unit : share ≤ unit
  not_over : share * (debt + deposits * unit) ≤ debt * unit
  nearly : debt * unit < (share + 2) * (debt + deposits * unit)
  exact : debt * unit < capacity → share = debt * unit / (debt + deposits * unit)
  full_iff : share = unit ↔ deposits = 0 ∧ 0 < debt

/-- Deposits are whole units, so they keep all that they are worth when no more than
`Number.precision` digits are lost. -/
theorem deposits_of_lost (deposits : Nat) {lost : Nat} (hlost : lost ≤ Number.precision) :
    ∃ rest, deposits * unit = rest * 10 ^ lost ∧ (rest = 0 ↔ deposits = 0) := by
  have hunit : unit = 10 ^ (Number.precision - lost) * 10 ^ lost := by
    rw [← pow_add, Nat.sub_add_cancel hlost, Number.unit_eq_pow]
  refine ⟨deposits * 10 ^ (Number.precision - lost), ?_, ?_⟩
  · rw [Nat.mul_assoc, ← hunit]
  · have hpower : 10 ^ (Number.precision - lost) ≠ 0 := Nat.ne_of_gt (Nat.pow_pos (by decide))
    rw [Nat.mul_eq_zero, or_iff_left hpower]

/-- **The share of operands that lost the same digits is accurate**, provided that none of the
digits were lost for nothing. All that is cut off either of them is cut off the debt, so
`cut_share_le` and `lt_cut_share` apply with one and the same cut. -/
theorem accurateShare_of_lost {debt deposits lost : Nat} (hpos : 0 < debt + deposits * unit)
    (hlost : lost ≤ Number.precision)
    (hearlier : ∀ earlier < lost, ¬debt / 10 ^ earlier * unit < capacity) :
    AccurateShare debt deposits
      (debt / 10 ^ lost * unit / ((debt + deposits * unit) / 10 ^ lost)) := by
  have hpower : 0 < 10 ^ lost := Nat.pow_pos (by decide)
  have hunit := Number.unit_pos
  obtain ⟨rest, hrest, hnone⟩ := deposits_of_lost deposits hlost
  have hsmall := cut_small_of_lost debt hearlier (Nat.le_add_right _ rest)
  have hwhole : (debt + deposits * unit) / 10 ^ lost = debt / 10 ^ lost + rest := by
    rw [hrest, Nat.add_mul_div_right _ _ hpower]
  have hdebt : debt / 10 ^ lost * 10 ^ lost + debt % 10 ^ lost = debt := Nat.div_add_mod' ..
  have htotal : (debt / 10 ^ lost + rest) * 10 ^ lost + debt % 10 ^ lost =
      debt + deposits * unit := by
    rw [hrest, Nat.add_mul]
    omega
  -- Were nothing left of debt and deposits, then nothing would have been cut off either, and the
  -- reserve would be empty.
  have hsome : 0 < debt / 10 ^ lost + rest := by
    apply Nat.pos_of_ne_zero
    intro hzero
    have hcut : debt % 10 ^ lost * unit = 0 := by simpa [hzero] using hsmall
    have hremainder := (Nat.mul_eq_zero.mp hcut).resolve_right (Nat.ne_of_gt hunit)
    rw [← htotal, hzero, hremainder] at hpos
    omega
  have hle : debt / 10 ^ lost ≤ debt / 10 ^ lost + rest := Nat.le_add_right _ _
  have hover := cut_share_le (10 ^ lost) (debt % 10 ^ lost) unit hle
  have hshort := Nat.lt_of_lt_of_le (lt_cut_share (debt / 10 ^ lost) hsome hpower hsmall)
    (Nat.mul_le_mul_left _ (Nat.le_add_right _ (debt % 10 ^ lost)))
  rw [htotal, hdebt] at hover hshort
  rw [hwhole]
  refine ⟨Nat.div_le_of_le_mul (Nat.mul_le_mul_right _ hle), hover, hshort, ?_, ?_⟩
  · -- The first step that loses a digit is one for which there was no room.
    intro hfits
    have hnothing : lost = 0 := by
      by_contra hsomething
      exact hearlier 0 (Nat.pos_of_ne_zero hsomething) (by simpa using hfits)
    subst hnothing
    rw [← hwhole]
    simp
  · have hreserve : deposits = 0 → 0 < debt := by
      rintro rfl
      omega
    rw [share_eq_scale_iff hle hsome hunit, Nat.left_eq_add, hnone]
    exact ⟨fun hdeposits => ⟨hdeposits, hreserve hdeposits⟩, And.left⟩

/-- A quotient is one of operands that lost the same digits, by `scaleDown_eq_div_pow`. -/
theorem Number.raw_div {a b share : Number} (hshare : a.div b = .ok share) :
    ∃ lost ≤ precision, share.raw = a.raw / 10 ^ lost * unit / (b.raw / 10 ^ lost) ∧
      ∀ earlier < lost, ¬a.raw / 10 ^ earlier * unit < capacity := by
  obtain ⟨lost, hlost, hscaled, hearlier⟩ := scaleDown_eq_div_pow precision a.raw b.raw
  rw [div_eq, hscaled] at hshare
  split at hshare
  · cases hshare
  · exact ⟨lost, hlost, raw_of_ofRaw? hshare, hearlier⟩

/-- **Shares are accurate.** There is a share exactly when debt and deposits fit together, and
otherwise the overflow is reported. An empty reserve has no share of debt, and in any other one the
share is `AccurateShare`. Whether there is one is known from `utilizationRate_of_fits`; how exact it
is, from `accurateShare_of_lost`. -/
theorem utilizationRate_accurate (debt : Number) (deposits : UInt64) :
    ((∃ share, utilizationRate debt deposits = .ok share) ↔
      debt.raw + deposits.toNat * unit < capacity) ∧
    (utilizationRate debt deposits = .error .mathOverflow ↔
      ¬debt.raw + deposits.toNat * unit < capacity) ∧
    (∀ share, utilizationRate debt deposits = .ok share →
      (debt.raw + deposits.toNat * unit = 0 → share.raw = 0) ∧
      (0 < debt.raw + deposits.toNat * unit →
        AccurateShare debt.raw deposits.toNat share.raw)) := by
  by_cases hfits : debt.raw + deposits.toNat * unit < capacity
  · obtain ⟨share, hshare, -⟩ := utilizationRate_of_fits hfits
    refine ⟨⟨fun _ => hfits, fun _ => ⟨share, hshare⟩⟩, ⟨?_, (absurd hfits ·)⟩, ?_⟩
    · rw [hshare]
      nofun
    intro other hother
    obtain ⟨total, htotal⟩ : ∃ total : Number, total.raw = debt.raw + deposits.toNat * unit :=
      ⟨⟨_, hfits⟩, rfl⟩
    rw [utilizationRate_eq htotal] at hother
    rw [← htotal]
    -- An empty reserve is not divided at all.
    by_cases hempty : total = .zero
    · rw [if_pos hempty] at hother
      cases hother
      rw [hempty]
      exact ⟨fun _ => rfl, fun hpos => absurd hpos (Nat.lt_irrefl 0)⟩
    · rw [if_neg hempty] at hother
      refine ⟨fun hraw => absurd (Number.eq_zero_of_raw hraw) hempty, fun hpos => ?_⟩
      obtain ⟨lost, hlost, hraw, hearlier⟩ := Number.raw_div hother
      rw [htotal] at hpos
      rw [hraw, htotal]
      exact accurateShare_of_lost hpos hlost hearlier
  · have hover := utilizationRate_of_not_fits hfits
    refine ⟨⟨?_, (absurd · hfits)⟩, ⟨fun _ => hfits, fun _ => hover⟩, ?_⟩
    · rintro ⟨share, hshare⟩
      rw [hover] at hshare
      cases hshare
    · intro share hshare
      rw [hover] at hshare
      cases hshare

/-- A debt that loses one digit, in a reserve where the exact quotient is just above a decimal. The
share misses that decimal, so it is short by more than one, and still by less than two. -/
theorem utilizationRate_accurate_lost_digit :
    ∃ debt : Number, debt.raw = 10000000000000303333333333332333333333333339 ∧
      utilizationRate debt 30000000000001 = .ok ⟨999999999999996, by simp [capacity]⟩ ∧
      999999999999997 * (debt.raw + 30000000000001 * unit) ≤ debt.raw * unit ∧
      AccurateShare debt.raw 30000000000001 999999999999996 := by
  have hshare : utilizationRate
      ⟨10000000000000303333333333332333333333333339, by simp [capacity]⟩ 30000000000001 =
        .ok ⟨999999999999996, by simp [capacity]⟩ := by
    decide +kernel
  have haccurate := (utilizationRate_accurate _ _).2.2 _ hshare
  exact ⟨_, rfl, hshare, by simp [unit], haccurate.2 (by simp [unit])⟩

end LendingRelay
