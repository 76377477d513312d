import LendingRelay.Proofs.Scaling

/-!
# What notes are worth

An amount of notes is multiplied with a rate, which cuts the product to fifteen decimals, and the
product is then rounded to token units. Two roundings in a row may differ from one: the first cut
could turn what is just above a tie into something below it. Here it can not. The tie is at half of
an even factor, which is a whole number of the fifteenth decimals, and a cut never passes a whole
number. So notes are worth the nearest amount to their exact value, and only a product or an amount
that does not fit is refused.

* `cut_then_round`: cutting first does not change what is rounded.
* `Number.mul_eq`: the product of two numbers.
* `notesToNative_eq`: the conversion in one step.
* `notesToNative_rounds_once`: notes are worth the nearest amount.
-/

namespace LendingRelay

open Number (capacity unit)

/-- **Cutting first does not change what is rounded**, by an even factor. Half of such a factor is a
whole number, which can be added before or after the cut. -/
theorem cut_then_round (value : Nat) {cut factor : Nat} (hcut : 0 < cut) (heven : 2 ∣ factor) :
    (value / cut + factor / 2) / factor = (value + cut * factor / 2) / (cut * factor) := by
  calc (value / cut + factor / 2) / factor
      = (value + cut * (factor / 2)) / cut / factor := by
        rw [Nat.add_mul_div_left _ _ hcut]
    _ = (value + cut * (factor / 2)) / (cut * factor) := Nat.div_div_eq_div_mul ..
    _ = (value + cut * factor / 2) / (cut * factor) := by
        rw [Nat.mul_div_assoc cut heven]

namespace Number

/-- A product that fits still does when it is cut, so `Number.mul` fails in its first check or not
at all. -/
theorem mul_eq (a b : Number) :
    (∃ product : Number, a.mul b = .ok product ∧ a.raw * b.raw < capacity ∧
      product.raw = a.raw * b.raw / unit) ∨
    a.mul b = .error .mathOverflow ∧ ¬a.raw * b.raw < capacity := by
  unfold mul
  by_cases hfits : a.raw * b.raw < capacity
  · have hcut : a.raw * b.raw / unit < capacity :=
      Nat.lt_of_le_of_lt (Nat.div_le_self _ _) hfits
    refine .inl ⟨⟨_, hcut⟩, ?_, hfits, rfl⟩
    rw [ofRaw?_of_lt hfits]
    exact ofRaw?_of_lt hcut
  · refine .inr ⟨?_, hfits⟩
    rw [ofRaw?_of_not_lt hfits]
    rfl

/-- A cut product leaves room for the half of every power of ten that fits, so the sum in
`Number.scaled` does not overflow. -/
theorem half_in_reach {product count : Nat} (hfits : product < capacity) (hcount : count ≤ 57) :
    product / unit + 10 ^ count / 2 < capacity := by
  have hpower : 10 ^ count ≤ 10 ^ 57 := Nat.pow_le_pow_right (by decide) hcount
  simp only [unit, capacity] at hfits ⊢
  omega

end Number

/-- The conversion in one step: what is added is half of the factor that is divided by. The cut of
the product and the division of the scaling are one division, by `cut_then_round`. -/
theorem notesToNative_eq {exponent : Int} {count : Nat} (notes rate : Number)
    (hshift : Number.shift exponent = count) (hpos : 0 < count) (hcount : count ≤ 57) :
    notesToNative notes rate exponent =
      Number.checked (notes.raw * rate.raw) >>= fun product =>
        Number.tokens ((product + 10 ^ (15 + count) / 2) / 10 ^ (15 + count)) := by
  unfold notesToNative
  obtain ⟨product, hproduct, hfits, hraw⟩ | ⟨hover, hfits⟩ := Number.mul_eq notes rate
  · -- A product that fits is divided by the unit, which leaves room for the half.
    have hroom := Number.half_in_reach hfits hcount
    rw [← hraw] at hroom
    have hunit : unit * 10 ^ count = 10 ^ (15 + count) := by
      rw [Number.unit_eq_pow, ← pow_add]
      rfl
    rw [hproduct, Number.checked_of_lt hfits]
    show product.scaled exponent .nearest = Number.tokens _
    rw [Number.scaled_of_cut product .nearest hshift hcount, Number.half_nearest,
      Number.checked_of_lt hroom, Word.ok_bind, hraw,
      cut_then_round _ Number.unit_pos (Number.two_dvd_pow_ten hpos), hunit]
  · rw [hover, Number.checked_of_not_lt hfits]
    rfl

/-- What notes are worth in the smallest units of the token, before it is rounded. Both factors
carry fifteen decimals, hence the thirty. -/
def worth (notes rate : Number) (exponent : Int) : ℚ :=
  (notes.raw : ℚ) * rate.raw / 10 ^ (30 + exponent)

theorem round_worth {exponent : Int} {count : Nat} (notes rate : Number)
    (hshift : Number.shift exponent = count) :
    round (worth notes rate exponent) =
      (((notes.raw * rate.raw + 10 ^ (15 + count) / 2) / 10 ^ (15 + count) : Nat) : ℤ) := by
  -- The exponent of the worth is the number of digits that are cut off in all.
  have hexponent : 30 + exponent = ((15 + count : Nat) : ℤ) := by
    unfold Number.shift at hshift
    simp only [Number.precision] at hshift
    omega
  rw [Number.half_up_eq_round _ (Number.two_dvd_pow_ten (by omega)) (Nat.pow_pos (by decide)),
    worth, hexponent, zpow_natCast]
  push_cast
  rfl

/-! ## The conversion of notes -/

/-- Exponents for which `Number.shift` leaves a digit to cut off, and not too many of them. -/
theorem Number.shift_of_range {exponent : Int} (hlow : -14 ≤ exponent) (hhigh : exponent ≤ 42) :
    ∃ count : Nat, shift exponent = count ∧ 0 < count ∧ count ≤ 57 := by
  have hshift : shift exponent = 15 + exponent := rfl
  exact ⟨(shift exponent).toNat, by omega, by omega, by omega⟩

theorem notesToNative_eq_ok_iff {exponent : Int} (hlow : -14 ≤ exponent) (hhigh : exponent ≤ 42)
    (notes rate : Number) (v : UInt64) :
    notesToNative notes rate exponent = .ok v ↔
      notes.raw * rate.raw < capacity ∧ (v.toNat : ℤ) = round (worth notes rate exponent) := by
  obtain ⟨count, hshift, hpos, hcount⟩ := Number.shift_of_range hlow hhigh
  rw [notesToNative_eq notes rate hshift hpos hcount, round_worth notes rate hshift]
  by_cases hfits : notes.raw * rate.raw < capacity
  · rw [Number.checked_of_lt hfits, Word.ok_bind, Number.tokens_eq_ok_iff, Nat.cast_inj,
      and_iff_right hfits]
  · rw [Number.checked_of_not_lt hfits]
    exact ⟨nofun, fun h => absurd h.1 hfits⟩

theorem notesToNative_eq_error_iff {exponent : Int} (hlow : -14 ≤ exponent)
    (hhigh : exponent ≤ 42) (notes rate : Number) :
    notesToNative notes rate exponent = .error .mathOverflow ↔
      ¬(notes.raw * rate.raw < capacity ∧ round (worth notes rate exponent) < 2 ^ 64) := by
  obtain ⟨count, hshift, hpos, hcount⟩ := Number.shift_of_range hlow hhigh
  rw [notesToNative_eq notes rate hshift hpos hcount, round_worth notes rate hshift]
  by_cases hfits : notes.raw * rate.raw < capacity
  · rw [Number.checked_of_lt hfits, Word.ok_bind, and_iff_right hfits]
    generalize (notes.raw * rate.raw + 10 ^ (15 + count) / 2) / 10 ^ (15 + count) = value
    -- The bound is about the same whole number, seen as an integer.
    have hsize : (value : ℤ) < 2 ^ 64 ↔ value < UInt64.size := by
      simp only [UInt64.size]
      omega
    rw [hsize, Number.tokens]
    split
    · next hlt => exact iff_of_false (fun herror => by cases herror) fun hover => hover hlt
    · next hover => exact iff_of_true rfl hover
  · rw [Number.checked_of_not_lt hfits]
    exact iff_of_true rfl fun h => hfits h.1

/-- Worth grows with the notes and with the rate, and rounding keeps the order by
`Number.tokens_mono`. -/
theorem notesToNative_mono {exponent : Int} (hlow : -14 ≤ exponent) (hhigh : exponent ≤ 42)
    {notes notes' rate rate' : Number} {v' : UInt64} (hnotes : notes.raw ≤ notes'.raw)
    (hrate : rate.raw ≤ rate'.raw) (hv' : notesToNative notes' rate' exponent = .ok v') :
    ∃ v, notesToNative notes rate exponent = .ok v ∧ v.toNat ≤ v'.toNat := by
  obtain ⟨count, hshift, hpos, hcount⟩ := Number.shift_of_range hlow hhigh
  have hle : notes.raw * rate.raw ≤ notes'.raw * rate'.raw := Nat.mul_le_mul hnotes hrate
  rw [notesToNative_eq notes' rate' hshift hpos hcount] at hv'
  rw [notesToNative_eq notes rate hshift hpos hcount]
  -- If the larger product fits, so does the smaller one.
  by_cases hfits : notes'.raw * rate'.raw < capacity
  · rw [Number.checked_of_lt hfits] at hv'
    rw [Number.checked_of_lt (Nat.lt_of_le_of_lt hle hfits)]
    exact Number.tokens_mono (Nat.div_le_div_right (Nat.add_le_add_right hle _)) hv'
  · rw [Number.checked_of_not_lt hfits] at hv'
    cases hv'

/-- The product of a count of notes and a rate that is not too large stays below `capacity`. -/
theorem ofUInt64_mul_lt (count : UInt64) {rate : Number} (hrate : rate.raw * unit ≤ 2 ^ 128) :
    (Number.ofUInt64 count).raw * rate.raw < capacity := by
  have hcount : count.toNat ≤ 2 ^ 64 - 1 := Nat.le_sub_one_of_lt count.toNat_lt
  calc (Number.ofUInt64 count).raw * rate.raw
      = count.toNat * (rate.raw * unit) := by
        rw [Number.raw_ofUInt64, Nat.mul_assoc, Nat.mul_comm unit]
    _ ≤ (2 ^ 64 - 1) * 2 ^ 128 := Nat.mul_le_mul hcount hrate
    _ < capacity := by decide

/-- **Notes are worth the nearest amount.** For every exponent that leaves a digit to cut off, notes
are converted to the nearest whole number to their exact `worth`, where a tie goes up; and the
conversion is refused exactly when the product does not fit or the amount has more than 64 bits. A
count of notes at a rate that is not too large only fails by the amount. More notes or a higher rate
are never worth less. All of it is read off the one step of `notesToNative_eq`. -/
theorem notesToNative_rounds_once {exponent : Int} (hlow : -14 ≤ exponent)
    (hhigh : exponent ≤ 42) :
    (∀ (notes rate : Number) (v : UInt64), notesToNative notes rate exponent = .ok v ↔
      notes.raw * rate.raw < capacity ∧ (v.toNat : ℤ) = round (worth notes rate exponent)) ∧
    (∀ notes rate : Number, notesToNative notes rate exponent = .error .mathOverflow ↔
      ¬(notes.raw * rate.raw < capacity ∧ round (worth notes rate exponent) < 2 ^ 64)) ∧
    (∀ (count : UInt64) (rate : Number), rate.raw * unit ≤ 2 ^ 128 →
      (notesToNative (.ofUInt64 count) rate exponent = .error .mathOverflow ↔
        2 ^ 64 ≤ round (worth (.ofUInt64 count) rate exponent))) ∧
    (∀ (notes notes' rate rate' : Number) (v' : UInt64), notes.raw ≤ notes'.raw →
      rate.raw ≤ rate'.raw → notesToNative notes' rate' exponent = .ok v' →
        ∃ v, notesToNative notes rate exponent = .ok v ∧ v.toNat ≤ v'.toNat) := by
  refine ⟨notesToNative_eq_ok_iff hlow hhigh, notesToNative_eq_error_iff hlow hhigh, ?_, ?_⟩
  · intro count rate hrate
    have hfits := ofUInt64_mul_lt count hrate
    rw [notesToNative_eq_error_iff hlow hhigh, and_iff_right hfits, not_lt]
  · intro notes notes' rate rate' v' hnotes hrate hv'
    exact notesToNative_mono hlow hhigh hnotes hrate hv'

/-- The smallest rate makes a tie of one note amount, which goes up, and puts the amount before it
just below the tie, where it stays although its product is cut first. -/
theorem notesToNative_rounds_once_tie :
    (-14 ≤ (-14 : Int) ∧ (-14 : Int) ≤ 42) ∧
    ∃ tie below rate : Number, tie.raw = 5000000000000000 ∧ below.raw = 4999999999999999 ∧
      rate.raw = 1 ∧
      notesToNative tie rate (-14) = .ok 1 ∧ (1 : ℤ) = round (worth tie rate (-14)) ∧
      notesToNative below rate (-14) = .ok 0 ∧ (0 : ℤ) = round (worth below rate (-14)) := by
  have hlow : -14 ≤ (-14 : Int) := by decide
  have hhigh : (-14 : Int) ≤ 42 := by decide
  obtain ⟨hconverts, -, -, -⟩ := notesToNative_rounds_once hlow hhigh
  have htie : notesToNative ⟨5000000000000000, by simp [capacity]⟩ ⟨1, by simp [capacity]⟩ (-14) =
      .ok 1 := by
    decide +kernel
  have hbelow : notesToNative ⟨4999999999999999, by simp [capacity]⟩ ⟨1, by simp [capacity]⟩ (-14) =
      .ok 0 := by
    decide +kernel
  exact ⟨⟨hlow, hhigh⟩, _, _, _, rfl, rfl, rfl, htie, ((hconverts _ _ 1).mp htie).2, hbelow,
    ((hconverts _ _ 0).mp hbelow).2⟩

end LendingRelay
