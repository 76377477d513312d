/-!
# Byte strings

Byte strings are lists of bytes. This module holds what every other module does with them:
little-endian numbers of a fixed width, the bytes of a text, and replacing a run of bytes in place.

* `Bytes.leValue_lt`: bytes hold a number of eight bits for each of them.
* `Bytes.leValue_le`: a number is read back from its little-endian bytes, up to the width.
* `Bytes.le_leValue`: every string of the width is the little-endian form of its value.
* `Bytes.length_overwrite`: replacing a run that fits keeps the length.
* `Bytes.take_drop_overwrite`, `Bytes.take_drop_overwrite_of_apart`: the run is there afterwards,
  and what lies apart from it stays.
-/

namespace LendingRelay

abbrev Bytes := List UInt8

namespace Bytes

/-- The `width` lowest bytes of `n`, least significant first. -/
def le : (width : Nat) → (n : Nat) → Bytes
  | 0, _ => []
  | width + 1, n => UInt8.ofNat n :: le width (n / 256)

/-- The number whose little-endian bytes are given. -/
def leValue : Bytes → Nat
  | [] => 0
  | b :: rest => b.toNat + 256 * leValue rest

/-- The number whose big-endian bytes are given. -/
def beValue (bytes : Bytes) : Nat :=
  bytes.foldl (fun n b => n * 256 + b.toNat) 0

/-- The UTF-8 bytes of a text. -/
def ofText (text : String) : Bytes :=
  text.toUTF8.toList

/-- `run` written over `data` from position `start` on; the bytes after the run stay. -/
def overwrite (data : Bytes) (start : Nat) (run : Bytes) : Bytes :=
  data.take start ++ run ++ data.drop (start + run.length)

@[simp] theorem length_le (width n : Nat) : (le width n).length = width := by
  induction width generalizing n with
  | zero => rfl
  | succ width ih => simp [le, ih]

theorem leValue_lt (bytes : Bytes) : leValue bytes < 1 <<< (8 * bytes.length) := by
  induction bytes with
  | nil => decide
  | cons b rest ih =>
    have hb := b.toNat_lt
    rw [leValue, List.length_cons, Nat.mul_succ, Nat.shiftLeft_add]
    omega

/-- Reading the `width` lowest bytes of `n` gives `n` up to that width. -/
theorem leValue_le (width n : Nat) : leValue (le width n) = n % 1 <<< (8 * width) := by
  induction width generalizing n with
  | zero => simp [le, leValue, Nat.mod_one]
  | succ width ih =>
    rw [le, leValue, ih, Nat.mul_succ, Nat.shiftLeft_add,
      Nat.shiftLeft_eq _ 8, Nat.mul_comm _ 256, Nat.mod_mul]
    simp

/-- A byte string is the little-endian form of its value. -/
theorem le_leValue (bytes : Bytes) : le bytes.length (leValue bytes) = bytes := by
  induction bytes with
  | nil => rfl
  | cons b rest ih =>
    have hb := b.toNat_lt
    have hdiv : (b.toNat + 256 * leValue rest) / 256 = leValue rest := by omega
    have hbyte : UInt8.ofNat (b.toNat + 256 * leValue rest) = b := by
      apply UInt8.toNat_inj.mp
      rw [UInt8.toNat_ofNat']
      omega
    rw [List.length_cons, leValue, le, hdiv, hbyte, ih]

theorem length_overwrite (data : Bytes) (start : Nat) (run : Bytes)
    (fits : start + run.length ≤ data.length) :
    (overwrite data start run).length = data.length := by
  simp only [overwrite, List.length_append, List.length_take, List.length_drop]
  omega

/-- A byte of overwritten data comes from the run where the run lies, else from the data. -/
theorem getElem?_overwrite {data : Bytes} {start : Nat} {run : Bytes}
    (fits : start + run.length ≤ data.length) (i : Nat) :
    (overwrite data start run)[i]? =
      if start ≤ i ∧ i < start + run.length then run[i - start]? else data[i]? := by
  have hfront : (data.take start).length = start := by
    rw [List.length_take]
    omega
  unfold overwrite
  by_cases hbefore : i < start
  · rw [if_neg (by omega), List.append_assoc, List.getElem?_append_left (by omega),
      List.getElem?_take_of_lt hbefore]
  by_cases hinside : i < start + run.length
  · rw [if_pos (by omega), List.append_assoc, List.getElem?_append_right (by omega), hfront,
      List.getElem?_append_left (by omega)]
  · have hlength : (data.take start ++ run).length = start + run.length := by
      rw [List.length_append, hfront]
    rw [if_neg (by omega), List.getElem?_append_right (by omega), hlength, List.getElem?_drop]
    congr 1
    omega

/-- The overwritten run is there. -/
theorem take_drop_overwrite {data : Bytes} {start : Nat} {run : Bytes}
    (fits : start + run.length ≤ data.length) :
    ((overwrite data start run).drop start).take run.length = run := by
  apply List.ext_getElem?
  intro i
  by_cases hinside : i < run.length
  · rw [List.getElem?_take_of_lt hinside, List.getElem?_drop, getElem?_overwrite fits,
      if_pos (by omega)]
    congr 1
    omega
  · rw [List.getElem?_take_eq_none (by omega), List.getElem?_eq_none (by omega)]

/-- What lies apart from the overwritten run stays. -/
theorem take_drop_overwrite_of_apart {data : Bytes} {start place width : Nat} {run : Bytes}
    (fits : start + run.length ≤ data.length)
    (apart : place + width ≤ start ∨ start + run.length ≤ place) :
    ((overwrite data start run).drop place).take width = (data.drop place).take width := by
  apply List.ext_getElem?
  intro i
  by_cases hinside : i < width
  · rw [List.getElem?_take_of_lt hinside, List.getElem?_take_of_lt hinside, List.getElem?_drop,
      List.getElem?_drop, getElem?_overwrite fits, if_neg (by omega)]
  · rw [List.getElem?_take_eq_none (by omega), List.getElem?_take_eq_none (by omega)]

end Bytes

end LendingRelay
