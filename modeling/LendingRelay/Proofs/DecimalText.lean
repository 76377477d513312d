import LendingRelay.Proofs.Utilization
import Mathlib.Data.List.Basic
import Mathlib.Data.List.Induction

/-!
# Numbers in decimal notation

A number is shown as a numeral, a point, and fifteen digits. The two sides of the point are made
separately: the whole part with as many digits as it needs, the rest with zeros in front of it. Both
are the only way to write what they stand for, so a text of this form is the text of one number,
namely of the one that it reads back as.

* `Decimal.Numeral`, `Decimal.FixedPoint`: the form of a text.
* `Decimal.digits_value`, `Decimal.lowest_value`: digits are made again from what they stand for.
* `Decimal.fixed_eq_iff`: the only text of that form with a given value.
* `Word.leftpad_digits`: padding with zeros.
* `Number.toText_lossless`: what numbers look like.
-/

namespace LendingRelay

namespace Decimal

/-! ## Digits -/

/-- The number that a row of digits stands for, in base ten. -/
def value (text : List Char) : Nat :=
  Nat.ofDigitChars 10 text 0

theorem exists_digitChar {c : Char} (hdigit : c.isDigit) : ∃ d < 10, Nat.digitChar d = c := by
  obtain ⟨hlow, hhigh⟩ : 48 ≤ c.toNat ∧ c.toNat ≤ 57 := Char.isDigit_iff_toNat.mp hdigit
  have hlt : c.toNat - 48 < 10 := by omega
  refine ⟨c.toNat - 48, hlt, Char.toNat_inj.mp ?_⟩
  rw [Nat.toNat_digitChar_of_lt_ten hlt]
  omega

theorem value_concat (text : List Char) {d : Nat} (hd : d < 10) :
    value (text ++ [Nat.digitChar d]) = 10 * value text + d := by
  unfold value
  rw [Nat.ofDigitChars_append, Nat.ofDigitChars_cons_digitChar_of_lt_ten hd, Nat.ofDigitChars_nil]

/-- **A row of digits is made again** by `Decimal.lowest` from its length and from what it stands
for. Induction from the back, since digits are made from the last one. -/
theorem lowest_value {text : List Char} (hdigits : ∀ c ∈ text, c.isDigit) :
    lowest text.length (value text) = text := by
  induction text using List.reverseRecOn with
  | nil => rfl
  | append_singleton text c ih =>
    obtain ⟨d, hd, rfl⟩ := exists_digitChar (hdigits c (by simp))
    have hrest : (10 * value text + d) / 10 = value text := by omega
    have hlast : (10 * value text + d) % 10 = d := by omega
    rw [List.length_append, List.length_singleton, value_concat text hd, lowest, hrest, hlast,
      ih fun c hc => hdigits c (List.mem_append_left _ hc)]

theorem isDigit_of_mem_lowest {width n : Nat} {c : Char} (hc : c ∈ lowest width n) : c.isDigit := by
  induction width generalizing n with
  | zero => cases hc
  | succ width ih =>
    rw [lowest, List.mem_append, List.mem_singleton] at hc
    obtain hrest | rfl := hc
    · exact ih hrest
    · simp [Nat.mod_lt]

theorem value_lowest (width n : Nat) : value (lowest width n) = n % 10 ^ width := by
  induction width generalizing n with
  | zero => simp [lowest, value, Nat.mod_one]
  | succ width ih =>
    rw [lowest, value_concat _ (Nat.mod_lt n (by decide)), ih, pow_succ', Nat.mod_mul, Nat.add_comm]

/-- So many digits stand for less than that power of ten, by `value_lowest`. -/
theorem value_lt {text : List Char} (hdigits : ∀ c ∈ text, c.isDigit) :
    value text < 10 ^ text.length := by
  have hback := value_lowest text.length (value text)
  rw [lowest_value hdigits] at hback
  rw [hback]
  exact Nat.mod_lt _ (Nat.pow_pos (by decide))

/-! ## Numerals -/

/-- A whole number in decimal notation: digits, with no zero in front of others. -/
structure Numeral (text : List Char) : Prop where
  nonempty : text ≠ []
  digits : ∀ c ∈ text, c.isDigit
  plain : text.head? = some '0' → text = ['0']

/-- Only zero begins with a zero. Strong induction, since `Decimal.digits` goes on with a tenth of
the number. -/
theorem eq_zero_of_head?_digits {n : Nat} (hhead : (digits n).head? = some '0') : n = 0 := by
  induction n using Nat.strong_induction_on with
  | _ n ih =>
    rw [digits, Nat.toDigits_eq_if (by decide)] at hhead
    by_cases hsmall : n < 10
    · rw [if_pos hsmall] at hhead
      simpa using hhead
    · -- The first digit is that of a tenth, which is not zero.
      rw [if_neg hsmall, List.head?_append_of_ne_nil _ Nat.toDigits_ne_nil] at hhead
      have htenth := ih (n / 10) (by omega) hhead
      omega

theorem numeral_digits (n : Nat) : Numeral (digits n) where
  nonempty := Nat.toDigits_ne_nil
  digits _ hc := Nat.isDigit_of_mem_toDigits (by decide) (by decide) hc
  plain hhead := by
    rw [eq_zero_of_head?_digits hhead]
    rfl

theorem value_digits (n : Nat) : value (digits n) = n :=
  Nat.ofDigitChars_ten_toDigits

/-- Digits behind a number that is not zero only make it longer. -/
theorem digits_append {n : Nat} {rest : List Char} (hpos : 0 < n) (hrest : ∀ c ∈ rest, c.isDigit) :
    digits n ++ rest = digits (Nat.ofDigitChars 10 rest n) := by
  induction rest generalizing n with
  | nil => simp
  | cons c rest ih =>
    obtain ⟨d, hd, rfl⟩ := exists_digitChar (hrest c (by simp))
    -- One digit behind is ten times as much and the digit.
    have hnext : digits n ++ [Nat.digitChar d] = digits (10 * n + d) := by
      rw [← Nat.toDigits_of_lt_base hd]
      exact Nat.toDigits_append_toDigits (by decide) hpos hd
    calc digits n ++ Nat.digitChar d :: rest
        = digits n ++ [Nat.digitChar d] ++ rest := by simp
      _ = digits (Nat.ofDigitChars 10 rest (10 * n + d)) := by
        rw [hnext]
        exact ih (by omega) fun c hc => hrest c (List.mem_cons_of_mem _ hc)
      _ = digits (Nat.ofDigitChars 10 (Nat.digitChar d :: rest) n) := by
        rw [Nat.ofDigitChars_cons_digitChar_of_lt_ten hd]

/-- **A numeral is made again** by `Decimal.digits` from what it stands for. A first digit that is
not zero starts it, and `digits_append` adds the others. -/
theorem digits_value {text : List Char} (htext : Numeral text) : digits (value text) = text := by
  cases text with
  | nil => exact absurd rfl htext.nonempty
  | cons c rest =>
    obtain ⟨d, hd, rfl⟩ := exists_digitChar (htext.digits c (by simp))
    -- A numeral that begins with a zero is just that zero.
    rcases Nat.eq_zero_or_pos d with rfl | hpos
    · rw [htext.plain rfl]
      rfl
    · rw [value, Nat.ofDigitChars_cons_digitChar_of_lt_ten hd, Nat.mul_zero, Nat.zero_add,
        ← digits_append hpos fun c hc => htext.digits c (List.mem_cons_of_mem _ hc), digits,
        Nat.toDigits_of_lt_base hd]
      rfl

/-! ## Numerals with decimals -/

def wholePart (text : List Char) : List Char :=
  text.takeWhile (· ≠ '.')

def fractionPart (text : List Char) : List Char :=
  (text.dropWhile (· ≠ '.')).tail

/-- A `Numeral`, a point, and a fixed number of digits. -/
structure FixedPoint (decimals : Nat) (text : List Char) : Prop where
  point : text = wholePart text ++ '.' :: fractionPart text
  whole : Numeral (wholePart text)
  fraction : ∀ c ∈ fractionPart text, c.isDigit
  length_fraction : (fractionPart text).length = decimals

/-- Reads a text back, in units of its last decimal. -/
def read (decimals : Nat) (text : List Char) : Nat :=
  value (wholePart text) * 10 ^ decimals + value (fractionPart text)

/-- A number of units of the last decimal, in decimal notation. -/
def fixed (decimals n : Nat) : List Char :=
  digits (n / 10 ^ decimals) ++ '.' :: lowest decimals (n % 10 ^ decimals)

theorem ne_point_of_digits {whole : List Char} (hwhole : ∀ c ∈ whole, c.isDigit) :
    ∀ c ∈ whole, decide (c ≠ '.') = true := by
  intro c hc
  rw [decide_eq_true_eq]
  rintro rfl
  exact absurd (hwhole _ hc) (by decide)

theorem wholePart_append {whole : List Char} (hwhole : ∀ c ∈ whole, c.isDigit)
    (fraction : List Char) : wholePart (whole ++ '.' :: fraction) = whole := by
  unfold wholePart
  rw [List.takeWhile_append_of_pos (ne_point_of_digits hwhole)]
  simp

theorem fractionPart_append {whole : List Char} (hwhole : ∀ c ∈ whole, c.isDigit)
    (fraction : List Char) : fractionPart (whole ++ '.' :: fraction) = fraction := by
  unfold fractionPart
  rw [List.dropWhile_append_of_pos (ne_point_of_digits hwhole)]
  simp

theorem wholePart_fixed (decimals n : Nat) :
    wholePart (fixed decimals n) = digits (n / 10 ^ decimals) :=
  wholePart_append (numeral_digits _).digits _

theorem fractionPart_fixed (decimals n : Nat) :
    fractionPart (fixed decimals n) = lowest decimals (n % 10 ^ decimals) :=
  fractionPart_append (numeral_digits _).digits _

theorem fixedPoint_fixed (decimals n : Nat) : FixedPoint decimals (fixed decimals n) where
  point := by
    rw [wholePart_fixed, fractionPart_fixed]
    rfl
  whole := by
    rw [wholePart_fixed]
    exact numeral_digits _
  fraction c hc := by
    rw [fractionPart_fixed] at hc
    exact isDigit_of_mem_lowest hc
  length_fraction := by
    rw [fractionPart_fixed]
    exact length_lowest _ _

theorem read_fixed (decimals n : Nat) : read decimals (fixed decimals n) = n := by
  rw [read, wholePart_fixed, fractionPart_fixed, value_digits, value_lowest, Nat.mod_mod]
  exact Nat.div_add_mod' _ _

/-- Both sides of the point are made again from what they stand for, by `digits_value` and
`lowest_value`. -/
theorem fixed_read {decimals : Nat} {text : List Char} (htext : FixedPoint decimals text) :
    fixed decimals (read decimals text) = text := by
  have hfraction := value_lt htext.fraction
  have hback := lowest_value htext.fraction
  rw [htext.length_fraction] at hfraction hback
  -- The fraction is below one, so quotient and remainder are the two sides of the point.
  have hwhole : read decimals text / 10 ^ decimals = value (wholePart text) := by
    rw [read, Nat.add_comm, Nat.add_mul_div_right _ _ (Nat.pow_pos (by decide)),
      Nat.div_eq_of_lt hfraction, Nat.zero_add]
  have hrest : read decimals text % 10 ^ decimals = value (fractionPart text) := by
    rw [read, Nat.add_comm, Nat.add_mul_mod_self_right, Nat.mod_eq_of_lt hfraction]
  rw [fixed, hwhole, hrest, digits_value htext.whole, hback]
  exact htext.point.symm

/-- **One text for each value**: the text of a number is the only one of its form that reads back as
that number. One direction is `read_fixed`, the other `fixed_read`. -/
theorem fixed_eq_iff (decimals n : Nat) (text : List Char) :
    fixed decimals n = text ↔ FixedPoint decimals text ∧ read decimals text = n := by
  constructor
  · rintro rfl
    exact ⟨fixedPoint_fixed decimals n, read_fixed decimals n⟩
  · rintro ⟨htext, rfl⟩
    exact fixed_read htext

end Decimal

namespace Word

open Number (unit precision)

/-! ## Word by word

The rest behind the point is cut to a word of 64 bits, and zeros are put in front of its digits. -/

/-- The text of a word: digits of its quotient, a point, and digits of its remainder, which is cut
to `UInt64` and padded. -/
def toText (raw : Nat) : String :=
  String.ofList (Decimal.digits (raw / unit) ++
    '.' :: (Decimal.digits (UInt64.ofNat (raw % unit)).toNat).leftpad precision '0')

/-- **Zeros in front** make the width that is asked for out of any number that fits in. What is
padded is a row of digits of that length and of the same value, and by `Decimal.lowest_value` there
is only one. -/
theorem leftpad_digits {width n : Nat} (hwidth : 0 < width) (hfits : n < 10 ^ width) :
    (Decimal.digits n).leftpad width '0' = Decimal.lowest width n := by
  have hlength : (Decimal.digits n).length ≤ width :=
    (Nat.length_toDigits_le_iff (by decide) hwidth).mpr hfits
  have hpadded : ((Decimal.digits n).leftpad width '0').length = width := by
    rw [List.length_leftpad, Nat.max_eq_left hlength]
  have hvalue : Decimal.value ((Decimal.digits n).leftpad width '0') = n := by
    rw [Decimal.value, List.leftpad, Nat.ofDigitChars_append, Nat.ofDigitChars_replicate_zero]
    exact Decimal.value_digits n
  have hdigits : ∀ c ∈ (Decimal.digits n).leftpad width '0', c.isDigit := by
    intro c hc
    rw [List.leftpad, List.mem_append, List.mem_replicate] at hc
    obtain ⟨-, rfl⟩ | hc := hc
    · rfl
    · exact (Decimal.numeral_digits n).digits c hc
  -- Digits, length and value are known, which leaves one row.
  have hback := Decimal.lowest_value hdigits
  rw [hpadded, hvalue] at hback
  exact hback.symm

/-- **The remainder loses nothing** when it is cut to 64 bits, and it is not too long to be
padded. -/
theorem toText_eq (n : Number) : toText n.raw = n.toText := by
  have hrest : n.raw % unit < unit := Nat.mod_lt _ Number.unit_pos
  have hword : (UInt64.ofNat (n.raw % unit)).toNat = n.raw % unit := by
    rw [UInt64.toNat_ofNat']
    apply Nat.mod_eq_of_lt
    simp only [unit] at hrest ⊢
    omega
  have hfits : n.raw % unit < 10 ^ precision := Number.unit_eq_pow ▸ hrest
  rw [toText, hword, leftpad_digits (by decide) hfits]
  rfl

end Word

namespace Number

theorem toText_eq_fixed (n : Number) :
    n.toText = String.ofList (Decimal.fixed precision n.raw) := by
  rw [toText, unit_eq_pow]
  rfl

/-- **Numbers are shown without loss.** The text of a number is a numeral without superfluous zeros,
a point and fifteen digits, it reads back as the raw value, and it is the only text that does both.
So different numbers have different texts. Word by word, where the remainder is cut to 64 bits and
padded, the text is the same. The form is that of `Decimal.fixed_eq_iff`. -/
theorem toText_lossless :
    (∀ (n : Number) (text : String), n.toText = text ↔
      Decimal.FixedPoint 15 text.toList ∧ Decimal.read 15 text.toList = n.raw) ∧
    (∀ n m : Number, n.toText = m.toText ↔ n = m) ∧
    (∀ n : Number, Word.toText n.raw = n.toText) := by
  have hiff : ∀ (n : Number) (text : String), n.toText = text ↔
      Decimal.FixedPoint 15 text.toList ∧ Decimal.read 15 text.toList = n.raw := by
    intro n text
    rw [toText_eq_fixed, ← String.toList_inj, String.toList_ofList]
    exact Decimal.fixed_eq_iff 15 n.raw text.toList
  refine ⟨hiff, fun n m => ⟨fun hsame => ?_, fun hsame => hsame ▸ rfl⟩, Word.toText_eq⟩
  -- The text that they share reads back as the raw value of both.
  have hn := (hiff n m.toText).mp hsame
  have hm := (hiff m m.toText).mp rfl
  exact eq_of_raw (hn.2.symm.trans hm.2)

/-- A whole part of more than 128 bits, and a fraction that is nearly nothing but zeros. -/
example : toText ⟨2 ^ 128 * unit + 5, by simp [unit, capacity]⟩ =
    "340282366920938463463374607431768211456.000000000000005" := by
  decide +kernel

end Number

end LendingRelay
