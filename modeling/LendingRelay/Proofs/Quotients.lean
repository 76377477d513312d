import LendingRelay.Proofs.ShareAccuracy
import LendingRelay.Proofs.Words
import Mathlib.Order.Bounds.Defs

/-!
# Quotients

Before two numbers are divided, a loop takes digits off both of them until the dividend leaves room
for fifteen decimals. The loop ends by itself after the least number of digits that makes room, at
most fifteen of them, and what is left of the operands are their quotients by one power of ten. A
large divisor survives that, and a small one becomes zero and is refused. Both cuts are small
against a divisor that is not below the dividend, so such a quotient is off by one at most.

* `Word.Sheds`, `Word.sheds_iff`: the run of the loop, and its length.
* `Word.Sheds.stops`: the loop ends by itself.
* `Number.div_of_sheds`: a division by what the loop leaves.
* `cut_quotient_near`: what two separate cuts do to a quotient.
* `Number.div_scaled`: when there is a quotient, and which one.
-/

namespace LendingRelay

open Number (capacity unit)

namespace Word

/-! ## The loop -/

/-- The loop takes exactly `steps` digits off both operands: it goes on as long as the dividend
leaves no room for its decimals, and ends as soon as it does. -/
inductive Sheds : (steps : Nat) → (operands kept : Nat × Nat) → Prop
  | room {operands : Nat × Nat} (hfits : operands.1 * unit < capacity) : Sheds 0 operands operands
  | shed {steps : Nat} {operands kept : Nat × Nat} (hover : ¬operands.1 * unit < capacity)
      (hrest : Sheds steps (operands.1 / 10, operands.2 / 10) kept) :
      Sheds (steps + 1) operands kept

/-- `Word.scaleDown` comes to what the loop leaves. -/
theorem Sheds.scaleDown_eq {steps : Nat} {operands kept : Nat × Nat}
    (hsheds : Sheds steps operands kept) : scaleDown operands.1 operands.2 = kept := by
  induction hsheds with
  | room hfits =>
    unfold scaleDown
    rw [if_pos hfits]
  | shed hover _ ih =>
    unfold scaleDown
    rw [if_neg hover]
    exact ih

/-- **The loop stops by itself.** With fewer steps `Number.scaleDown` is cut short; with more
nothing changes. Induction on the run of the loop, and in each step on the number of steps that are
allowed. -/
theorem Sheds.stops {lost : Nat} {operands kept : Nat × Nat} (hsheds : Sheds lost operands kept)
    (steps : Nat) :
    Number.scaleDown steps operands.1 operands.2 =
      (operands.1 / 10 ^ min steps lost, operands.2 / 10 ^ min steps lost) := by
  induction hsheds generalizing steps with
  | room hfits =>
    rw [Number.scaleDown_of_fits steps _ hfits]
    simp
  | shed hover _ ih =>
    cases steps with
    | zero => simp [Number.scaleDown]
    | succ steps =>
      -- One digit and one step less on both sides.
      rw [Number.scaleDown_succ_of_not_fits steps _ hover, ih, Nat.succ_min_succ,
        Number.div_ten_div_pow, Number.div_ten_div_pow]

/-- The digits that are taken off one by one are one division by a power of ten, by
`Number.div_ten_div_pow`. -/
theorem Sheds.kept_eq {steps : Nat} {operands kept : Nat × Nat}
    (hsheds : Sheds steps operands kept) :
    kept = (operands.1 / 10 ^ steps, operands.2 / 10 ^ steps) := by
  induction hsheds with
  | room => simp
  | shed _ _ ih => rw [ih, Number.div_ten_div_pow, Number.div_ten_div_pow]

/-- The loop does not end later than it could: a number of digits that makes room is at least the
number of its steps. -/
theorem Sheds.isLeast {steps : Nat} {operands kept : Nat × Nat}
    (hsheds : Sheds steps operands kept) :
    IsLeast {digits | operands.1 / 10 ^ digits * unit < capacity} steps := by
  induction hsheds with
  | room hfits => exact ⟨by simpa using hfits, fun digits _ => Nat.zero_le digits⟩
  | @shed steps operands kept hover _ ih =>
    refine ⟨?_, fun digits hdigits => ?_⟩
    · show operands.1 / 10 ^ (steps + 1) * unit < capacity
      rw [← Number.div_ten_div_pow]
      exact ih.1
    · -- No digits make no room yet; more of them make room behind the first step.
      cases digits with
      | zero => exact absurd (by simpa using hdigits) hover
      | succ digits =>
        have hroom : operands.1 / 10 ^ (digits + 1) * unit < capacity := hdigits
        rw [← Number.div_ten_div_pow] at hroom
        exact Nat.succ_le_succ (ih.2 hroom)

/-- The loop ends once there is room. Induction on the digits that have to go. -/
theorem sheds_of_isLeast {steps : Nat} {operands : Nat × Nat}
    (hleast : IsLeast {digits | operands.1 / 10 ^ digits * unit < capacity} steps) :
    Sheds steps operands (operands.1 / 10 ^ steps, operands.2 / 10 ^ steps) := by
  induction steps generalizing operands with
  | zero =>
    have hfits : operands.1 * unit < capacity := by simpa using hleast.1
    simpa using Sheds.room hfits
  | succ steps ih =>
    have hover : ¬operands.1 * unit < capacity := by
      intro hfits
      have hzero := hleast.2 (show operands.1 / 10 ^ 0 * unit < capacity by simpa using hfits)
      omega
    -- After one digit it is one digit less that has to go.
    have hrest : IsLeast {digits | operands.1 / 10 / 10 ^ digits * unit < capacity} steps := by
      simp only [Number.div_ten_div_pow]
      exact ⟨hleast.1, fun digits hdigits => Nat.le_of_succ_le_succ (hleast.2 hdigits)⟩
    have hsheds : Sheds steps (operands.1 / 10, operands.2 / 10) _ := ih hrest
    rw [Number.div_ten_div_pow, Number.div_ten_div_pow] at hsheds
    exact .shed hover hsheds

/-- **The loop takes off the least number of digits** that makes room, and nothing else. One
direction is `Sheds.isLeast`, the other `sheds_of_isLeast`. -/
theorem sheds_iff (steps : Nat) (operands kept : Nat × Nat) :
    Sheds steps operands kept ↔
      IsLeast {digits | operands.1 / 10 ^ digits * unit < capacity} steps ∧
        kept = (operands.1 / 10 ^ steps, operands.2 / 10 ^ steps) := by
  refine ⟨fun hsheds => ⟨hsheds.isLeast, hsheds.kept_eq⟩, ?_⟩
  rintro ⟨hleast, rfl⟩
  exact sheds_of_isLeast hleast

end Word

/-! ## Two separate cuts -/

/-- **A quotient of cut operands is off by one at most**, when what was cut off each of them is
small against the rest of the divisor. `cut_share_le` and `lt_cut_share` bound it for the same cut
on both sides; here the divisor has a cut of its own. -/
theorem cut_quotient_near {part whole power cut cut' scale : Nat} (hle : part ≤ whole)
    (hwhole : 0 < whole) (hpower : 0 < power) (hsmall : cut * scale ≤ whole * power)
    (hsmall' : cut' * scale ≤ whole * power) :
    part * scale / whole ≤ (part * power + cut) * scale / (whole * power + cut') + 1 ∧
      (part * power + cut) * scale / (whole * power + cut') ≤ part * scale / whole + 1 := by
  have hdivisor : 0 < whole * power + cut' := Nat.add_pos_left (Nat.mul_pos hwhole hpower) cut'
  have hover := cut_share_le power cut' scale hle
  have hshort := lt_cut_share part hwhole hpower hsmall
  generalize part * scale / whole = share at *
  have hexact : (part * power + cut) * scale < (share + 2) * (whole * power + cut') :=
    Nat.lt_of_lt_of_le hshort (Nat.mul_le_mul_left _ (Nat.le_add_right _ cut'))
  refine ⟨?_, ?_⟩
  · -- What the cut of the divisor adds is less than the divisor itself.
    have hback : share * (whole * power + cut') ≤
        (part * power + cut) * scale + (whole * power + cut') := by
      rw [Nat.add_mul] at hover ⊢
      omega
    rw [← Nat.add_div_right _ hdivisor, Nat.le_div_iff_mul_le hdivisor]
    exact hback
  · have hless := (Nat.div_lt_iff_lt_mul hdivisor).mpr hexact
    omega

namespace Number

/-! ## Divisions -/

/-- The run of the loop on the operands of `Number.div`. -/
theorem sheds_raw {a : Number} (b : Number) {lost : Nat}
    (hleast : IsLeast {digits | a.raw / 10 ^ digits * unit < capacity} lost) :
    Word.Sheds lost (a.raw, b.raw) (a.raw / 10 ^ lost, b.raw / 10 ^ lost) :=
  (Word.sheds_iff ..).mpr ⟨hleast, rfl⟩

/-- A division is one of what the loop leaves, since fifteen steps are enough for every number. -/
theorem div_of_sheds {a b : Number} {lost : Nat} {kept : Nat × Nat}
    (hsheds : Word.Sheds lost (a.raw, b.raw) kept) :
    a.div b = if kept.2 = 0 then .error .mathOverflow else ofRaw? (kept.1 * unit / kept.2) := by
  rw [div_eq, Word.scaleDown_eq precision b.raw a.mul_unit_lt, hsheds.scaleDown_eq]

/-- No number has to lose more digits than there are decimals, by `scaleDown_fits`. -/
theorem exists_isLeast_digits (a : Number) :
    ∃ lost ≤ precision, IsLeast {digits | a.raw / 10 ^ digits * unit < capacity} lost := by
  obtain ⟨lost, hle, hscaled, hearlier⟩ := scaleDown_eq_div_pow precision a.raw 0
  have hfits := scaleDown_fits precision 0 a.mul_unit_lt
  rw [hscaled] at hfits
  refine ⟨lost, hle, hfits, fun digits hdigits => ?_⟩
  by_contra hless
  exact hearlier digits (Nat.lt_of_not_le hless) hdigits

/-- What `Number.div` comes to when its operands lose `lost` digits. -/
structure ScaledDivision (a b : Number) (lost : Nat) : Prop where
  /-- The loop takes off that many digits and then ends, whatever number of steps it is allowed. -/
  sheds : Word.Sheds lost (a.raw, b.raw) (a.raw / 10 ^ lost, b.raw / 10 ^ lost)
  stops : ∀ steps, scaleDown steps a.raw b.raw =
    (a.raw / 10 ^ min steps lost, b.raw / 10 ^ min steps lost)
  /-- Word by word nothing stops on the way. -/
  words : Word.quotient a.raw b.raw = Word.outcome (a.div b)
  refused : b.raw / 10 ^ lost = 0 → a.div b = .error .mathOverflow
  value : 0 < b.raw / 10 ^ lost → ∃ quotient, a.div b = .ok quotient ∧
    quotient.raw = a.raw / 10 ^ lost * unit / (b.raw / 10 ^ lost)
  /-- A dividend that has room for its decimals is divided exactly. -/
  exact : a.raw * unit < capacity → 0 < b.raw → ∃ quotient, a.div b = .ok quotient ∧
    quotient.raw = a.raw * unit / b.raw
  total : unit ≤ b.raw → ∃ quotient, a.div b = .ok quotient
  /-- A share of a whole is at most one, and nearly exact. -/
  share : 0 < a.raw → a.raw ≤ b.raw → ∃ quotient, a.div b = .ok quotient ∧ quotient.raw ≤ unit ∧
    quotient.raw ≤ a.raw * unit / b.raw + 1 ∧ a.raw * unit / b.raw ≤ quotient.raw + 1

/-- What is left of the dividend leaves room for its decimals, so every quotient fits and only a
zero divisor is left to refuse. -/
theorem div_of_kept_pos {a b : Number} {lost : Nat}
    (hleast : IsLeast {digits | a.raw / 10 ^ digits * unit < capacity} lost)
    (hpos : 0 < b.raw / 10 ^ lost) : ∃ quotient, a.div b = .ok quotient ∧
      quotient.raw = a.raw / 10 ^ lost * unit / (b.raw / 10 ^ lost) := by
  have hfits : a.raw / 10 ^ lost * unit / (b.raw / 10 ^ lost) < capacity :=
    Nat.lt_of_le_of_lt (Nat.div_le_self ..) hleast.1
  refine ⟨⟨_, hfits⟩, ?_, rfl⟩
  rw [div_of_sheds (sheds_raw b hleast), if_neg (Nat.ne_of_gt hpos), ofRaw?_of_lt hfits]

/-- **A share loses little with its digits.** What is left of the dividend, and so of the divisor,
is not below `unit`, which makes both cuts small for `cut_quotient_near`. -/
theorem share_near {part whole lost : Nat} (hpos : 0 < part) (hle : part ≤ whole)
    (hleast : IsLeast {digits | part / 10 ^ digits * unit < capacity} lost) :
    0 < whole / 10 ^ lost ∧
      part / 10 ^ lost * unit / (whole / 10 ^ lost) ≤ part * unit / whole + 1 ∧
      part * unit / whole ≤ part / 10 ^ lost * unit / (whole / 10 ^ lost) + 1 := by
  have hearlier : ∀ earlier < lost, ¬part / 10 ^ earlier * unit < capacity :=
    fun earlier hlt hfits => Nat.not_le_of_lt hlt (hleast.2 hfits)
  have hkept : part / 10 ^ lost ≤ whole / 10 ^ lost := Nat.div_le_div_right hle
  have hwhole : 0 < whole / 10 ^ lost := by
    -- Either nothing was lost, or the dividend kept more than fifteen digits.
    cases lost with
    | zero => simpa using Nat.lt_of_lt_of_le hpos hle
    | succ lost =>
      have hunit := unit_le_of_lost (hearlier lost (Nat.lt_succ_self lost))
      have hone := unit_pos
      omega
  have hnear := cut_quotient_near hkept hwhole (Nat.pow_pos (by decide))
    (cut_small_of_lost part hearlier hkept) (cut_small_of_lost whole hearlier hkept)
  rw [Nat.div_add_mod', Nat.div_add_mod'] at hnear
  exact ⟨hwhole, hnear⟩

theorem scaledDivision_of_isLeast {a : Number} (b : Number) {lost : Nat} (hlost : lost ≤ precision)
    (hleast : IsLeast {digits | a.raw / 10 ^ digits * unit < capacity} lost) :
    a.ScaledDivision b lost where
  sheds := sheds_raw b hleast
  stops := (sheds_raw b hleast).stops
  words := Word.quotient_eq a b
  refused hzero := by rw [div_of_sheds (sheds_raw b hleast), if_pos hzero]
  value hpos := div_of_kept_pos hleast hpos
  exact hfits hpos := by
    -- With room for the decimals no digit is lost.
    have hnothing : lost = 0 := by
      have hzero := hleast.2 (show a.raw / 10 ^ 0 * unit < capacity by simpa using hfits)
      omega
    subst hnothing
    simpa using div_of_kept_pos hleast (by simpa using hpos)
  total hunit := by
    -- A divisor of one at least outlasts the fifteen digits that can be lost.
    have hpower : 10 ^ lost ≤ b.raw := by
      rw [unit_eq_pow] at hunit
      exact Nat.le_trans (Nat.pow_le_pow_right (by decide) hlost) hunit
    obtain ⟨quotient, hquotient, -⟩ :=
      div_of_kept_pos hleast (Nat.div_pos hpower (Nat.pow_pos (by decide)))
    exact ⟨quotient, hquotient⟩
  share hpos hle := by
    obtain ⟨hwhole, hnear⟩ := share_near hpos hle hleast
    obtain ⟨quotient, hquotient, hraw⟩ := div_of_kept_pos hleast hwhole
    refine ⟨quotient, hquotient, ?_, by rw [hraw]; exact hnear⟩
    rw [hraw]
    exact Nat.div_le_of_le_mul (Nat.mul_le_mul_right _ (Nat.div_le_div_right hle))

/-- **Divisions.** The loop ends after the least number of digits that makes room for the decimals
of the dividend, which is at most fifteen. What is left of the operands is divided, and nothing but
a divisor of which nothing is left is refused. The number of digits is that of
`exists_isLeast_digits`. -/
theorem div_scaled (a b : Number) :
    ∃ lost ≤ 15, IsLeast {digits | a.raw / 10 ^ digits * unit < capacity} lost ∧
      a.ScaledDivision b lost := by
  obtain ⟨lost, hlost, hleast⟩ := a.exists_isLeast_digits
  exact ⟨lost, hlost, hleast, scaledDivision_of_isLeast b hlost hleast⟩

/-- A dividend that loses a digit, by a divisor that is a little larger. They lose what tells them
apart, so that the quotient is one, where the exact one is just below. -/
theorem div_scaled_lost_digit :
    ∃ a b : Number, a.raw = 10 ^ 43 ∧ b.raw = 10 ^ 43 + 4 ∧ a.ScaledDivision b 1 ∧
      a.div b = .ok .one ∧ a.raw * unit / b.raw + 1 = unit := by
  have hover : ¬10 ^ 43 / 10 ^ 0 * unit < capacity := by simp [unit, capacity]
  obtain ⟨lost, -, hleast, hdivision⟩ :=
    div_scaled ⟨10 ^ 43, by simp [capacity]⟩ ⟨10 ^ 43 + 4, by simp [capacity]⟩
  -- One digit makes room, and none does not.
  have hone : lost = 1 := by
    have hroom : 10 ^ 43 / 10 ^ 1 * unit < capacity := by simp [unit, capacity]
    have hle : lost ≤ 1 := hleast.2 hroom
    have hne : lost ≠ 0 := by
      rintro rfl
      exact hover hleast.1
    omega
  subst hone
  refine ⟨_, _, rfl, rfl, hdivision, ?_, by simp [unit]⟩
  obtain ⟨quotient, hquotient, hraw⟩ := hdivision.value (by simp)
  rw [hquotient]
  cases quotient
  congr

end Number

end LendingRelay
