import LendingRelay.Bytes

/-!
# The curve Edwards25519

A compressed point is the little-endian ordinate `y` with the sign of the abscissa in the top bit.
It names a point of `-x² + y² = 1 + d x² y²` when `(y² - 1) / (d y² + 1)` is a square modulo
`p = 2²⁵⁵ - 19`. Only that question is asked here: an address must not be a point.
-/

namespace LendingRelay.Edwards25519

/-- The order of the field. -/
def p : Nat := (1 <<< 255) - 19

/-- The constant of the curve, `-121665 / 121666` in the field. -/
def d : Nat := 37095705934669439343138083508754565189542113879843219016388785533085940283555

/-- `base` to the power whose binary digits are given, least significant first, in the field. -/
def power (base : Nat) : List Bool → Nat
  | [] => 1
  | digit :: rest =>
    let root := power base rest
    let square := root * root % p
    if digit then square * base % p else square

/-- The binary digits of `(p - 1) / 2`. -/
def halfOrderDigits : List Bool :=
  (List.range 254).map ((p - 1) / 2).testBit

/-- Raised to `(p - 1) / 2`, zero gives 0, a non-zero square 1, and every other element `p - 1`. -/
def isSquare (n : Nat) : Bool :=
  let e := power (n % p) halfOrderDigits
  e == 0 || e == 1

/-- Whether 32 bytes decompress to a point. The sign bit is ignored and the ordinate need not be
reduced. A quotient is a square exactly when the product is, and `d y² + 1` is never zero. -/
def isPoint (bytes : Bytes) : Bool :=
  let y := Bytes.leValue bytes % (1 <<< 255) % p
  -- Adding `p - 1` takes one away in the field.
  let numerator := y * y + (p - 1)
  let denominator := d * (y * y) + 1
  isSquare (numerator * denominator)

end LendingRelay.Edwards25519
