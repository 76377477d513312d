import LendingRelay.Proofs.Words
import Mathlib.Algebra.Order.Round
import Mathlib.Data.Rat.Floor

/-!
# Scaling to token units

A number is moved to the smallest units of a token by a power of ten: digits are cut off behind it,
or zeros are put there. The power is made by squaring, and each check on the way to it is no
stricter than the check of the power itself, so the exponents that are refused are those whose power
of ten does not fit. After that one check is left in each direction, and the amount has to have 64
bits.

* `Number.power_eq`: a power is refused only when it does not fit itself.
* `Number.scaled_eq`, `Number.scaled_of_far`, `Number.scaled_of_cut`, `Number.scaled_of_put`: what
  scaling comes to.
* `Number.half_up_eq_round`: adding half of the factor and cutting off is rounding.
* `Number.scaled_mono`, `Number.scaled_down_of_nearest`: the order of amounts.
* `Word.scaled_eq`: word by word nothing stops.
* `Number.scaling_exact`: all of it, for every exponent.
-/

namespace LendingRelay

open Number (capacity)

namespace Number

/-! ## Powers by squaring -/

/-- A raw value that is refused when it does not fit, as `ofRaw?` refuses it. -/
def checked (raw : Nat) : Except RelayError Nat :=
  if raw < capacity then .ok raw else .error .mathOverflow

theorem checked_of_lt {raw : Nat} (hfits : raw < capacity) : checked raw = .ok raw :=
  if_pos hfits

theorem checked_of_not_lt {raw : Nat} (hover : ¬raw < capacity) :
    checked raw = .error .mathOverflow :=
  if_neg hover

theorem ofRaw?_bind (raw : Nat) (next : Nat → Except RelayError α) :
    (ofRaw? raw >>= fun n => next n.raw) = checked raw >>= next := by
  by_cases hfits : raw < capacity
  · rw [ofRaw?_of_lt hfits, checked_of_lt hfits]
    rfl
  · rw [ofRaw?_of_not_lt hfits, checked_of_not_lt hfits]
    rfl

/-- **A check before a check of something no smaller** is superfluous. This takes the checks on the
way out of `power`. -/
theorem checked_bind_checked {raw : Nat} (next : Nat → Nat) (hle : raw ≤ next raw) :
    (checked raw >>= fun n => checked (next n)) = checked (next raw) := by
  by_cases hfits : raw < capacity
  · rw [checked_of_lt hfits]
    rfl
  · rw [checked_of_not_lt hfits, checked_of_not_lt (by omega)]
    rfl

/-- The number with the given binary digits, least significant first. `digitsValue_binaryDigits`
shows that it undoes `binaryDigits`. -/
def digitsValue : (digits : List Bool) → Nat
  | [] => 0
  | digit :: rest => digit.toNat + 2 * digitsValue rest

theorem digitsValue_map_testBit (n count : Nat) :
    digitsValue ((List.range count).map n.testBit) = n % 2 ^ count := by
  induction count generalizing n with
  | zero => simp [digitsValue, Nat.mod_one]
  | succ count ih =>
    have hrest : n.testBit ∘ Nat.succ = (n / 2).testBit := by
      funext place
      exact Nat.testBit_succ n place
    -- The lowest digit is the remainder by two, and the others are those of the half.
    have hlowest : (n.testBit 0).toNat = n % 2 := by
      rw [Nat.testBit_zero]
      rcases Nat.mod_two_eq_zero_or_one n with heven | hodd
      · simp [heven]
      · simp [hodd]
    rw [List.range_succ_eq_map, List.map_cons, List.map_map, hrest, digitsValue, ih, hlowest,
      pow_succ', Nat.mod_mul]

theorem digitsValue_binaryDigits (n : Nat) : digitsValue (binaryDigits n) = n := by
  rw [binaryDigits, digitsValue_map_testBit, Nat.mod_eq_of_lt Nat.lt_log2_self]

theorem power_cons (base : Nat) (digit : Bool) (rest : List Bool) :
    power base (digit :: rest) = power base rest >>= fun root =>
      checked (root * root) >>= fun square =>
        if digit then checked (square * base) else .ok square := by
  rw [power]
  congr 1
  funext root
  rw [← ofRaw?_bind]
  congr 1
  funext square
  cases digit with
  | false => rfl
  | true =>
    show (ofRaw? (square.raw * base) >>= fun n => pure n.raw) = checked (square.raw * base)
    rw [ofRaw?_bind]
    exact bind_pure _

/-- **A power is refused only when it does not fit itself.** Squares and products on the way to it
are no larger than it is, so each of their checks goes by `checked_bind_checked`. -/
theorem power_eq {base : Nat} (hbase : 0 < base) (digits : List Bool) :
    power base digits = checked (base ^ digitsValue digits) := by
  -- The digits are listed from the lowest, so the rest of them make the root that is squared.
  induction digits with
  | nil => rfl
  | cons digit rest ih =>
    have hroot : 0 < base ^ digitsValue rest := Nat.pow_pos hbase
    have hsquare : base ^ digitsValue rest * base ^ digitsValue rest =
        base ^ (2 * digitsValue rest) := by
      rw [← pow_add, two_mul]
    rw [power_cons, ih, digitsValue]
    cases digit with
    | false =>
      have hlast : base ^ ((false).toNat + 2 * digitsValue rest) =
          base ^ digitsValue rest * base ^ digitsValue rest := by
        rw [Bool.toNat_false, Nat.zero_add, hsquare]
      rw [hlast, ← checked_bind_checked (fun root => root * root) (Nat.le_mul_of_pos_left _ hroot)]
      congr 1
      funext root
      exact bind_pure _
    | true =>
      have hlast : base ^ ((true).toNat + 2 * digitsValue rest) =
          base ^ digitsValue rest * base ^ digitsValue rest * base := by
        rw [Bool.toNat_true, Nat.add_comm, pow_succ, hsquare]
      have hgrows : base ^ digitsValue rest ≤
          base ^ digitsValue rest * base ^ digitsValue rest * base :=
        Nat.le_trans (Nat.le_mul_of_pos_left _ hroot) (Nat.le_mul_of_pos_right _ hbase)
      rw [hlast, ← checked_bind_checked (fun root => root * root * base) hgrows]
      congr 1
      funext root
      exact checked_bind_checked (fun square => square * base) (Nat.le_mul_of_pos_right _ hbase)

/-- The powers of ten below `capacity` end at the fifty-seventh. -/
theorem pow_ten_lt_capacity_iff (n : Nat) : 10 ^ n < capacity ↔ n ≤ 57 := by
  refine ⟨fun hfits => ?_, fun hle => ?_⟩
  · by_contra hover
    have hlarge : 10 ^ 58 ≤ 10 ^ n := Nat.pow_le_pow_right (by decide) (by omega)
    have hcapacity : capacity ≤ 10 ^ 58 := by decide
    omega
  · calc 10 ^ n ≤ 10 ^ 57 := Nat.pow_le_pow_right (by decide) hle
      _ < capacity := by decide

theorem power_ten (n : Nat) :
    power 10 (binaryDigits n) = if n ≤ 57 then .ok (10 ^ n) else .error .mathOverflow := by
  rw [power_eq (by decide), digitsValue_binaryDigits, checked]
  simp only [pow_ten_lt_capacity_iff]

/-! ## What scaling comes to -/

/-- What is added before digits are cut off. -/
def Rounding.half (rounding : Rounding) (factor : Nat) : Nat :=
  match rounding with
  | .down => 0
  | .nearest => factor / 2

/-- An amount of token units, which has 64 bits; a larger one is refused. -/
def tokens (value : Nat) : Except RelayError UInt64 :=
  if value < UInt64.size then .ok (.ofNat value) else .error .mathOverflow

theorem tokens_eq_ok_iff (value : Nat) (v : UInt64) : tokens value = .ok v ↔ v.toNat = value := by
  have hv := v.toNat_lt
  unfold tokens
  constructor
  · intro hok
    split at hok
    · next hlt =>
      cases hok
      rw [UInt64.toNat_ofNat']
      exact Nat.mod_eq_of_lt hlt
    · cases hok
  · rintro rfl
    rw [if_pos hv, UInt64.ofNat_toNat]

/-- The shift that an exponent asks for: the number of digits that are cut off, or put behind when
it is negative. -/
def shift (exponent : Int) : Int := precision + exponent

/-- **What scaling does**: a power of ten, which is divided by after the half is added, or
multiplied with. `scaled_of_far`, `scaled_of_cut` and `scaled_of_put` are the three ways that the
shift can go. -/
theorem scaled_eq (n : Number) (exponent : Int) (rounding : Rounding) :
    n.scaled exponent rounding =
      power 10 (binaryDigits (shift exponent).natAbs) >>= fun factor =>
        if 0 ≤ shift exponent then
          checked (n.raw + rounding.half factor) >>= fun sum => tokens (sum / factor)
        else checked (n.raw * factor) >>= tokens := by
  unfold scaled
  show (power 10 (binaryDigits (shift exponent).natAbs) >>= _) = _
  congr 1
  funext factor
  by_cases hcut : 0 ≤ shift exponent
  · rw [if_pos hcut]
    refine (if_pos hcut).trans ?_
    show (ofRaw? (n.raw + rounding.half factor) >>= fun sum => tokens (sum.raw / factor)) = _
    exact ofRaw?_bind _ fun sum => tokens (sum / factor)
  · rw [if_neg hcut]
    refine (if_neg hcut).trans ?_
    show (ofRaw? (n.raw * factor) >>= fun product => tokens product.raw) = _
    exact ofRaw?_bind _ tokens

theorem scaled_of_far {exponent : Int} (n : Number) (rounding : Rounding)
    (hfar : 57 < (shift exponent).natAbs) : n.scaled exponent rounding = .error .mathOverflow := by
  rw [scaled_eq, power_ten, if_neg (Nat.not_le_of_lt hfar)]
  rfl

/-- **Digits are cut off**, after `Rounding.half` is added. -/
theorem scaled_of_cut {exponent : Int} {count : Nat} (n : Number) (rounding : Rounding)
    (hshift : shift exponent = count) (hcount : count ≤ 57) :
    n.scaled exponent rounding =
      checked (n.raw + rounding.half (10 ^ count)) >>= fun sum => tokens (sum / 10 ^ count) := by
  rw [scaled_eq, hshift, Int.natAbs_natCast, power_ten, if_pos hcount, Word.ok_bind,
    if_pos (Int.natCast_nonneg _)]

/-- **Digits are put behind.** A product that does not fit is no amount of token units either. -/
theorem scaled_of_put {exponent : Int} {count : Nat} (n : Number) (rounding : Rounding)
    (hshift : shift exponent = -count) (hpos : 0 < count) (hcount : count ≤ 57) :
    n.scaled exponent rounding = tokens (n.raw * 10 ^ count) := by
  rw [scaled_eq, hshift, Int.natAbs_neg, Int.natAbs_natCast, power_ten, if_pos hcount, Word.ok_bind,
    if_neg (by omega)]
  -- A raw value has more than 64 bits, so the first check only refuses what the second one does.
  by_cases hfits : n.raw * 10 ^ count < capacity
  · rw [checked_of_lt hfits]
    rfl
  · have hover : ¬n.raw * 10 ^ count < UInt64.size := by
      simp only [capacity, UInt64.size] at hfits ⊢
      omega
    rw [checked_of_not_lt hfits, tokens, if_neg hover]
    rfl

theorem half_down (factor : Nat) : Rounding.half .down factor = 0 := rfl

theorem half_nearest (factor : Nat) : Rounding.half .nearest factor = factor / 2 := rfl

theorem scaled_down_eq_ok_iff {exponent : Int} {count : Nat} (n : Number) (v : UInt64)
    (hshift : shift exponent = count) (hcount : count ≤ 57) :
    n.scaled exponent .down = .ok v ↔ v.toNat = n.raw / 10 ^ count := by
  rw [scaled_of_cut n .down hshift hcount, half_down, Nat.add_zero, checked_of_lt n.raw_lt,
    Word.ok_bind, tokens_eq_ok_iff]

theorem scaled_nearest_eq_ok_iff {exponent : Int} {count : Nat} (n : Number) (v : UInt64)
    (hshift : shift exponent = count) (hcount : count ≤ 57) :
    n.scaled exponent .nearest = .ok v ↔
      n.raw + 10 ^ count / 2 < capacity ∧ v.toNat = (n.raw + 10 ^ count / 2) / 10 ^ count := by
  rw [scaled_of_cut n .nearest hshift hcount, half_nearest]
  by_cases hfits : n.raw + 10 ^ count / 2 < capacity
  · rw [checked_of_lt hfits, Word.ok_bind, tokens_eq_ok_iff, and_iff_right hfits]
  · rw [checked_of_not_lt hfits]
    exact ⟨nofun, fun h => absurd h.1 hfits⟩

theorem scaled_put_eq_ok_iff {exponent : Int} {count : Nat} (n : Number) (rounding : Rounding)
    (v : UInt64) (hshift : shift exponent = -count) (hpos : 0 < count) (hcount : count ≤ 57) :
    n.scaled exponent rounding = .ok v ↔ v.toNat = n.raw * 10 ^ count := by
  rw [scaled_of_put n rounding hshift hpos hcount, tokens_eq_ok_iff]

/-! ## Rounding -/

/-- Adding half of an even factor and cutting off is `round`, which takes a tie up. -/
theorem half_up_eq_round (value : Nat) {factor : Nat} (heven : 2 ∣ factor) (hpos : 0 < factor) :
    (((value + factor / 2) / factor : Nat) : ℤ) = round ((value : ℚ) / factor) := by
  obtain ⟨half, rfl⟩ := heven
  have hhalf : (half : ℚ) ≠ 0 := by
    intro hzero
    have := Nat.cast_eq_zero.mp hzero
    omega
  -- Over the rationals the half of the factor is the half that rounding adds.
  have hsum : (value : ℚ) / (2 * half : Nat) + 1 / 2 =
      ((value + half : Nat) : ℚ) / (2 * half : Nat) := by
    push_cast
    field_simp
  rw [round_eq, hsum, Rat.floor_natCast_div_natCast, Nat.mul_div_cancel_left half (by decide)]
  rfl

theorem two_dvd_pow_ten {count : Nat} (hpos : 0 < count) : 2 ∣ 10 ^ count :=
  dvd_pow (by decide) (Nat.ne_of_gt hpos)

/-- What an exponent asks for: too many digits, digits to cut off, or digits to put behind. Every
statement about all exponents is a split into these. -/
theorem shift_cases (exponent : Int) :
    57 < (shift exponent).natAbs ∨ (∃ count : Nat, shift exponent = count ∧ count ≤ 57) ∨
      ∃ count : Nat, shift exponent = -count ∧ 0 < count ∧ count ≤ 57 := by
  by_cases hfar : 57 < (shift exponent).natAbs
  · exact .inl hfar
  by_cases hcut : 0 ≤ shift exponent
  · exact .inr (.inl ⟨(shift exponent).natAbs, by omega, by omega⟩)
  · exact .inr (.inr ⟨(shift exponent).natAbs, by omega, by omega, by omega⟩)

/-! ## Order -/

theorem tokens_mono {value value' : Nat} {w : UInt64} (hle : value ≤ value')
    (hw : tokens value' = .ok w) : ∃ v, tokens value = .ok v ∧ v.toNat ≤ w.toNat := by
  have hvalue := (tokens_eq_ok_iff ..).mp hw
  have hlt : value < UInt64.size := Nat.lt_of_le_of_lt (hvalue ▸ hle) w.toNat_lt
  have htokens : tokens value = .ok (.ofNat value) := if_pos hlt
  refine ⟨_, htokens, ?_⟩
  rw [(tokens_eq_ok_iff ..).mp htokens, hvalue]
  exact hle

/-- **Whatever the larger number gives, the smaller one gives no more.** Each of the checks lets
smaller values pass, and `tokens_mono` is the last of them. -/
theorem scaled_mono {exponent : Int} {n m : Number} {rounding : Rounding} {w : UInt64}
    (hle : n.raw ≤ m.raw) (hw : m.scaled exponent rounding = .ok w) :
    ∃ v, n.scaled exponent rounding = .ok v ∧ v.toNat ≤ w.toNat := by
  obtain hfar | ⟨count, hshift, hcount⟩ | ⟨count, hshift, hpos, hcount⟩ := shift_cases exponent
  · rw [scaled_of_far m rounding hfar] at hw
    cases hw
  · rw [scaled_of_cut m rounding hshift hcount] at hw
    rw [scaled_of_cut n rounding hshift hcount]
    -- The larger number has the larger sum, so its check is the stricter one.
    by_cases hfits : m.raw + rounding.half (10 ^ count) < capacity
    · rw [checked_of_lt hfits] at hw
      rw [checked_of_lt (by omega)]
      exact tokens_mono (Nat.div_le_div_right (Nat.add_le_add_right hle _)) hw
    · rw [checked_of_not_lt hfits] at hw
      cases hw
  · rw [scaled_of_put m rounding hshift hpos hcount] at hw
    rw [scaled_of_put n rounding hshift hpos hcount]
    exact tokens_mono (Nat.mul_le_mul_right _ hle) hw

/-- Adding half of a factor moves a quotient by one at most, since a whole factor moves it
by one. -/
theorem half_up_le (value : Nat) {factor : Nat} (hpos : 0 < factor) :
    value / factor ≤ (value + factor / 2) / factor ∧
      (value + factor / 2) / factor ≤ value / factor + 1 := by
  refine ⟨Nat.div_le_div_right (Nat.le_add_right _ _), ?_⟩
  rw [← Nat.add_div_right value hpos]
  exact Nat.div_le_div_right (Nat.add_le_add_left (Nat.div_le_self factor 2) _)

/-- **Rounding gives the cut amount or one more**, by `half_up_le`. -/
theorem scaled_down_of_nearest {exponent : Int} {n : Number} {v : UInt64}
    (hv : n.scaled exponent .nearest = .ok v) :
    ∃ w, n.scaled exponent .down = .ok w ∧ (v.toNat = w.toNat ∨ v.toNat = w.toNat + 1) := by
  obtain hfar | ⟨count, hshift, hcount⟩ | ⟨count, hshift, hpos, hcount⟩ := shift_cases exponent
  · rw [scaled_of_far n .nearest hfar] at hv
    cases hv
  · obtain ⟨-, hvalue⟩ := (scaled_nearest_eq_ok_iff n v hshift hcount).mp hv
    have hfactor : 0 < 10 ^ count := Nat.pow_pos (by decide)
    have hhalf := half_up_le n.raw hfactor
    have hvw : tokens v.toNat = .ok v := (tokens_eq_ok_iff ..).mpr rfl
    -- The cut amount is no larger than the rounded one, so it has 64 bits as well.
    obtain ⟨w, hw, -⟩ := tokens_mono (hvalue ▸ hhalf.1) hvw
    have hcut := (tokens_eq_ok_iff ..).mp hw
    refine ⟨w, (scaled_down_eq_ok_iff n w hshift hcount).mpr hcut, ?_⟩
    omega
  · rw [scaled_of_put n .nearest hshift hpos hcount] at hv
    refine ⟨v, ?_, .inl rfl⟩
    rw [scaled_of_put n .down hshift hpos hcount, hv]

/-- There is an amount of token units, or the overflow is reported. No other error comes out of
`Number.scaled`. -/
theorem scaled_cases (n : Number) (exponent : Int) (rounding : Rounding) :
    (∃ v, n.scaled exponent rounding = .ok v) ∨
      n.scaled exponent rounding = .error .mathOverflow := by
  have htokens : ∀ value, (∃ v, tokens value = .ok v) ∨ tokens value = .error .mathOverflow := by
    intro value
    unfold tokens
    split
    · exact .inl ⟨_, rfl⟩
    · exact .inr rfl
  obtain hfar | ⟨count, hshift, hcount⟩ | ⟨count, hshift, hpos, hcount⟩ := shift_cases exponent
  · exact .inr (scaled_of_far n rounding hfar)
  · rw [scaled_of_cut n rounding hshift hcount]
    by_cases hfits : n.raw + rounding.half (10 ^ count) < capacity
    · rw [checked_of_lt hfits]
      exact htokens _
    · rw [checked_of_not_lt hfits]
      exact .inr rfl
  · rw [scaled_of_put n rounding hshift hpos hcount]
    exact htokens _

theorem scaled_ofUInt64 (v : UInt64) (rounding : Rounding) :
    (ofUInt64 v).scaled 0 rounding = .ok v := by
  have hv := v.toNat_lt
  have hshift : shift 0 = (15 : Nat) := rfl
  have hunit : unit = 10 ^ 15 := unit_eq_pow
  -- Fifteen zeros were put there, and are cut off again.
  cases rounding with
  | down =>
    rw [scaled_down_eq_ok_iff _ v hshift (by decide), raw_ofUInt64, hunit,
      Nat.mul_div_cancel _ (by decide)]
  | nearest =>
    rw [scaled_nearest_eq_ok_iff _ v hshift (by decide), raw_ofUInt64]
    simp only [unit, capacity]
    omega

/-- What scaling by an exponent does to every number, by the `shift` that the exponent asks for. -/
structure ScalesExactly (exponent : Int) : Prop where
  /-- Too many digits are refused. -/
  far : 57 < (shift exponent).natAbs →
    ∀ (n : Number) (rounding : Rounding), n.scaled exponent rounding = .error .mathOverflow
  cut_down : ∀ count : Nat, shift exponent = count → count ≤ 57 → ∀ (n : Number) (v : UInt64),
    n.scaled exponent .down = .ok v ↔ v.toNat = n.raw / 10 ^ count
  cut_nearest : ∀ count : Nat, shift exponent = count → count ≤ 57 → ∀ (n : Number) (v : UInt64),
    n.scaled exponent .nearest = .ok v ↔
      n.raw + 10 ^ count / 2 < capacity ∧ v.toNat = (n.raw + 10 ^ count / 2) / 10 ^ count
  /-- The nearest amount, where a tie goes up. -/
  nearest_eq_round : ∀ count : Nat, shift exponent = count → 0 < count → count ≤ 57 →
    ∀ (n : Number) (v : UInt64), n.scaled exponent .nearest = .ok v →
      (v.toNat : ℤ) = round ((n.raw : ℚ) / 10 ^ count)
  put : ∀ count : Nat, shift exponent = -count → 0 < count → count ≤ 57 →
    ∀ (n : Number) (rounding : Rounding) (v : UInt64),
      n.scaled exponent rounding = .ok v ↔ v.toNat = n.raw * 10 ^ count
  /-- Nothing but the overflow is ever reported. -/
  refused : ∀ (n : Number) (rounding : Rounding), (∃ v, n.scaled exponent rounding = .ok v) ∨
    n.scaled exponent rounding = .error .mathOverflow
  down_of_nearest : ∀ (n : Number) (v : UInt64), n.scaled exponent .nearest = .ok v →
    ∃ w, n.scaled exponent .down = .ok w ∧ (v.toNat = w.toNat ∨ v.toNat = w.toNat + 1)
  /-- Whatever the larger number gives, the smaller one gives no more. -/
  mono : ∀ (n m : Number) (rounding : Rounding) (w : UInt64), n.raw ≤ m.raw →
    m.scaled exponent rounding = .ok w →
      ∃ v, n.scaled exponent rounding = .ok v ∧ v.toNat ≤ w.toNat

theorem scalesExactly (exponent : Int) : ScalesExactly exponent where
  far hfar n rounding := scaled_of_far n rounding hfar
  cut_down count hshift hcount n v := scaled_down_eq_ok_iff n v hshift hcount
  cut_nearest count hshift hcount n v := scaled_nearest_eq_ok_iff n v hshift hcount
  nearest_eq_round count hshift hpos hcount n v hv := by
    obtain ⟨-, hvalue⟩ := (scaled_nearest_eq_ok_iff n v hshift hcount).mp hv
    have hround := half_up_eq_round n.raw (two_dvd_pow_ten hpos) (Nat.pow_pos (by decide))
    rw [hvalue, hround]
    push_cast
    rfl
  put count hshift hpos hcount n rounding v :=
    scaled_put_eq_ok_iff n rounding v hshift hpos hcount
  refused n rounding := scaled_cases n exponent rounding
  down_of_nearest n v hv := scaled_down_of_nearest hv
  mono n m rounding w hle hw := scaled_mono hle hw

end Number

namespace Word

/-! ## Word by word

The shift is a sum of 32 bits that nothing checks, and so are the quotients. -/

/-- The sum of two numbers of 32 bits with a sign, which stops when it has no place in them. -/
def addInt32 (a b : Int32) : Except Halt Int32 :=
  if -2147483648 ≤ a.toInt + b.toInt ∧ a.toInt + b.toInt ≤ 2147483647 then .ok (a + b)
  else .error .stopped

def checkedPow (base exponent : Nat) : Except Halt Nat :=
  if base ^ exponent < capacity then .ok (base ^ exponent) else .error (.refused .mathOverflow)

/-- What is added before digits are cut off, by an unchecked `div`. -/
def half (rounding : Number.Rounding) (factor : Nat) : Except Halt Nat :=
  match rounding with
  | .down => .ok 0
  | .nearest => div factor 2

def tokens (value : Nat) : Except Halt UInt64 :=
  if value < UInt64.size then .ok (.ofNat value) else .error (.refused .mathOverflow)

def scaled (n : Nat) (exponent : Int32) (rounding : Number.Rounding) : Except Halt UInt64 := do
  let shift ← addInt32 15 exponent
  let factor ← checkedPow 10 shift.toInt.natAbs
  if 0 ≤ shift then
    let sum ← checkedAdd n (← half rounding factor)
    tokens (← div sum factor)
  else
    tokens (← checkedMul n factor)

theorem addInt32_of_le {exponent : Int32} (hle : exponent.toInt ≤ 2147483632) :
    ∃ shift : Int32, addInt32 15 exponent = .ok shift ∧
      shift.toInt = Number.shift exponent.toInt := by
  have hlow := exponent.le_toInt
  have hfifteen : (15 : Int32).toInt = 15 := by decide
  refine ⟨15 + exponent, if_pos ?_, ?_⟩
  · omega
  · rw [Int32.toInt_add, hfifteen]
    -- Within the bounds the sum of the machine is the sum of the numbers.
    show (15 + exponent.toInt).bmod (2 ^ 32) = 15 + exponent.toInt
    apply Int.bmod_eq_of_le <;> omega

/-- A computation on numbers, read as one on words: only its refusals can end it. -/
def lifted (result : Except RelayError α) : Except Halt α :=
  result.mapError .refused

theorem lifted_bind (result : Except RelayError α) (next : α → Except RelayError β) :
    lifted (result >>= next) = lifted result >>= fun a => lifted (next a) := by
  cases result <;> rfl

theorem checkedPow_eq {base : Nat} (hbase : 0 < base) (exponent : Nat) :
    checkedPow base exponent = lifted (Number.power base (Number.binaryDigits exponent)) := by
  rw [Number.power_eq hbase, Number.digitsValue_binaryDigits]
  unfold checkedPow Number.checked
  split <;> rfl

theorem half_eq (rounding : Number.Rounding) (factor : Nat) :
    half rounding factor = .ok (rounding.half factor) := by
  cases rounding <;> rfl

theorem tokens_eq (value : Nat) : tokens value = lifted (Number.tokens value) := by
  unfold tokens Number.tokens
  split <;> rfl

theorem checkedAdd_eq (a b : Nat) : checkedAdd a b = lifted (Number.checked (a + b)) := by
  unfold checkedAdd Number.checked
  split <;> rfl

theorem checkedMul_eq (a b : Nat) : checkedMul a b = lifted (Number.checked (a * b)) := by
  unfold checkedMul Number.checked
  split <;> rfl

/-- **Scaling never stops** on an exponent that fifteen can be added to. The factor is a power of
ten and so not zero, and whatever could be too large is checked. -/
theorem scaled_eq (n : Number) {exponent : Int32} (rounding : Number.Rounding)
    (hle : exponent.toInt ≤ 2147483632) :
    scaled n.raw exponent rounding = lifted (n.scaled exponent.toInt rounding) := by
  obtain ⟨shift, hshift, hvalue⟩ := addInt32_of_le hle
  have hsign : 0 ≤ shift ↔ 0 ≤ Number.shift exponent.toInt := by
    rw [Int32.le_iff_toInt_le, hvalue]
    rfl
  unfold scaled
  rw [hshift, ok_bind, hvalue, checkedPow_eq (by decide), Number.scaled_eq, lifted_bind,
    Number.power_ten]
  split
  · have hfactor : 0 < 10 ^ (Number.shift exponent.toInt).natAbs := Nat.pow_pos (by decide)
    -- From here on the factor matters only as something that is not zero.
    generalize 10 ^ (Number.shift exponent.toInt).natAbs = factor at hfactor
    show (if 0 ≤ shift then _ else _) = lifted (if 0 ≤ Number.shift exponent.toInt then _ else _)
    by_cases hcut : 0 ≤ Number.shift exponent.toInt
    · rw [if_pos hcut, if_pos (hsign.mpr hcut), half_eq, ok_bind, checkedAdd_eq, lifted_bind]
      congr 1
      funext sum
      rw [div_of_pos sum hfactor, ok_bind, tokens_eq]
    · rw [if_neg hcut, if_neg (mt hsign.mp hcut), checkedMul_eq, lifted_bind]
      congr 1
      funext product
      exact tokens_eq product
  · rfl

end Word

namespace Number

/-- **Scaling is exact.** Every exponent does to every number what the shift says that it asks for.
Word by word nothing stops on the way there, for every exponent that fifteen can be added to. Whole
tokens are scaled back to their count. These are `scalesExactly`, `Word.scaled_eq` and
`scaled_ofUInt64`. -/
theorem scaling_exact :
    (∀ exponent : Int, ScalesExactly exponent) ∧
    (∀ (n : Number) (exponent : Int32) (rounding : Rounding), exponent.toInt ≤ 2147483632 →
      Word.scaled n.raw exponent rounding = Word.lifted (n.scaled exponent.toInt rounding)) ∧
    (∀ (v : UInt64) (rounding : Rounding), (ofUInt64 v).scaled 0 rounding = .ok v) :=
  ⟨scalesExactly, fun n _ rounding hle => Word.scaled_eq n rounding hle, scaled_ofUInt64⟩

/-- Two and a half tokens are a tie between two and three whole ones. -/
theorem scaling_exact_tie :
    ∃ n : Number, n.raw = 2500000000000000 ∧ n.scaled 0 .down = .ok 2 ∧
      n.scaled 0 .nearest = .ok 3 ∧ (3 : ℤ) = round ((n.raw : ℚ) / 10 ^ 15) ∧
      Word.scaled n.raw 0 .nearest = .ok 3 := by
  obtain ⟨hexact, hword, -⟩ := scaling_exact
  have hshift : shift 0 = (15 : Nat) := rfl
  have hnearest : scaled ⟨2500000000000000, by simp [capacity]⟩ 0 .nearest = .ok 3 :=
    ((hexact 0).cut_nearest 15 hshift (by decide) _ 3).mpr ⟨by simp [capacity], by decide⟩
  refine ⟨_, rfl, ?_, hnearest, ?_, ?_⟩
  · exact ((hexact 0).cut_down 15 hshift (by decide) _ 2).mpr (by decide)
  · exact (hexact 0).nearest_eq_round 15 hshift (by decide) (by decide) _ 3 hnearest
  · exact (hword _ 0 .nearest (by decide)).trans (congrArg Word.lifted hnearest)

end Number

end LendingRelay
