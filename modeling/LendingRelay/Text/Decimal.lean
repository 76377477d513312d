/-!
# Decimal text

Digits of natural numbers, either as many as the number needs or a fixed count with zeros in front.
-/

namespace LendingRelay.Decimal

/-- The digits of `n` without superfluous zeros in front; zero is one digit. -/
def digits (n : Nat) : List Char :=
  Nat.toDigits 10 n

/-- The `width` lowest digits of `n`. -/
def lowest : (width : Nat) → (n : Nat) → List Char
  | 0, _ => []
  | width + 1, n => lowest width (n / 10) ++ [Nat.digitChar (n % 10)]

@[simp] theorem length_lowest (width n : Nat) : (lowest width n).length = width := by
  induction width generalizing n with
  | zero => rfl
  | succ width ih => simp [lowest, ih]

end LendingRelay.Decimal
