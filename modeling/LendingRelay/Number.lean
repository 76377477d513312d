import LendingRelay.Fault.Relay
import LendingRelay.Text.Decimal
import LendingRelay.Wire.Decoder

/-!
# Fixed-point numbers

Rates and note amounts are counted in units of 10⁻¹⁵ and kept in 192 bits. An operation whose exact
result does not fit is refused; nothing wraps.
-/

namespace LendingRelay

/-- The first raw value that does not fit. -/
def Number.capacity : Nat := 1 <<< 192

/-- A fixed-point number: `raw` counts units of 10⁻¹⁵. -/
structure Number where
  raw : Nat
  raw_lt : raw < Number.capacity
  deriving DecidableEq, Repr

namespace Number

/-- The number of decimals. -/
def precision : Nat := 15

/-- The raw value of one: a one in front of the decimals. -/
def unit : Nat := 1000000000000000

/-- The length of a number in account data. -/
def encodedLength : Nat := 24

/-- The number with a raw value, refused when the value does not fit. -/
def ofRaw? (raw : Nat) : Except RelayError Number :=
  if h : raw < capacity then .ok ⟨raw, h⟩ else .error .mathOverflow

def zero : Number := ⟨0, by decide⟩

def one : Number := ⟨unit, by decide⟩

def ofUInt64 (n : UInt64) : Number :=
  ⟨n.toNat * unit, by
    have h := n.toNat_lt
    simp only [unit, capacity]
    omega⟩

/-- A number of basis points, the ten-thousandth parts of one. -/
def ofBasisPoints (n : UInt16) : Number :=
  ⟨n.toNat * (unit / 10000), by
    have h := n.toNat_lt
    simp only [unit, capacity]
    omega⟩

def add (a b : Number) : Except RelayError Number :=
  ofRaw? (a.raw + b.raw)

/-- The product, cut to fifteen decimals; the uncut product of the raw values has to fit. -/
def mul (a b : Number) : Except RelayError Number := do
  let product ← ofRaw? (a.raw * b.raw)
  ofRaw? (product.raw / unit)

/-- Takes digits off both operands of a division until the dividend leaves room for fifteen more.
A dividend of 192 bits needs at most fifteen steps. -/
def scaleDown : (steps : Nat) → (dividend divisor : Nat) → Nat × Nat
  | 0, dividend, divisor => (dividend, divisor)
  | steps + 1, dividend, divisor =>
    if dividend * unit < capacity then (dividend, divisor)
    else scaleDown steps (dividend / 10) (divisor / 10)

/-- The quotient, cut to fifteen decimals. A divisor that is zero, or becomes zero when both
operands are scaled down, is refused. -/
def div (a b : Number) : Except RelayError Number :=
  let scaled := scaleDown precision a.raw b.raw
  if scaled.2 = 0 then .error .mathOverflow else ofRaw? (scaled.1 * unit / scaled.2)

/-- The binary digits of `n`, least significant first. -/
def binaryDigits (n : Nat) : List Bool :=
  (List.range (n.log2 + 1)).map n.testBit

/-- `base` to the power with the given binary digits, by squaring. Every intermediate value divides
the result, so the power is refused only when it does not fit itself. -/
def power (base : Nat) : (digits : List Bool) → Except RelayError Nat
  | [] => .ok 1
  | digit :: rest => do
    let root ← power base rest
    let square ← ofRaw? (root * root)
    if digit then return (← ofRaw? (square.raw * base)).raw else return square.raw

inductive Rounding
  | down
  | nearest
  deriving DecidableEq, Repr

/-- The count of smallest token units when a token has `-exponent` decimals. `nearest` adds half a
unit before the cut, so a tie goes up. The sum `precision + exponent` is taken over all integers
here; `Word.scaled` takes it in 32 bits, where it can overflow, and is equal to this wherever that
does not happen. -/
def scaled (n : Number) (exponent : Int) (rounding : Rounding) : Except RelayError UInt64 := do
  let shift := (precision : Int) + exponent
  let factor ← power 10 (binaryDigits shift.natAbs)
  let value ←
    if 0 ≤ shift then do
      -- The factor is one, whose half is zero, or it is even.
      let half := match rounding with
        | .down => 0
        | .nearest => factor / 2
      let sum ← ofRaw? (n.raw + half)
      pure (sum.raw / factor)
    else do
      let product ← ofRaw? (n.raw * factor)
      pure product.raw
  if value < UInt64.size then pure (UInt64.ofNat value) else throw .mathOverflow

/-- The number in decimal notation with all fifteen decimals. -/
def toText (n : Number) : String :=
  String.ofList (Decimal.digits (n.raw / unit) ++ '.' :: Decimal.lowest precision (n.raw % unit))

instance : ToString Number := ⟨toText⟩

/-- The form in account data. -/
def toBytes (n : Number) : Bytes :=
  Bytes.le encodedLength n.raw

/-- Reads the form in account data, which has exactly twenty-four bytes. -/
def ofBytes? (bytes : Bytes) : Except RelayError Number :=
  if h : bytes.length = encodedLength then
    .ok ⟨Bytes.leValue bytes, by
      have lt := Bytes.leValue_lt bytes
      rw [h] at lt
      exact lt⟩
  else .error .invalidAccountLayout

end Number

instance : Wire Number where
  encode := Number.toBytes
  decode := do
    let bytes ← Decoder.take Number.encodedLength
    pure ⟨Bytes.leValue bytes.val, by
      have lt := Bytes.leValue_lt bytes.val
      rw [bytes.property] at lt
      exact lt⟩

end LendingRelay
