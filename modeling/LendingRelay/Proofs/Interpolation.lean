import LendingRelay.Rates

/-!
# Segments

A segment is run along from its start, and the height gained on the way is cut to whole units. The
cut step can not exceed the height of the segment, so what comes out lies between its ends, whether
the segment rises or falls and wherever the argument lies.

* `Segment.step_le_height`: the cut step stays within the segment.
* `interpolate_eq`: what an interpolation comes to, in every case.
* `interpolate_between`: the value lies between the two ends.
* `interpolate_mono`: an argument that lies no further gets no further from the start.
-/

namespace LendingRelay

namespace Number

theorem eq_of_raw {n m : Number} (hraw : n.raw = m.raw) : n = m := by
  cases n
  cases hraw
  rfl

theorem ofRaw?_of_lt {raw : Nat} (hfits : raw < capacity) : ofRaw? raw = .ok ⟨raw, hfits⟩ :=
  dif_pos hfits

theorem ofRaw?_of_not_lt {raw : Nat} (hover : ¬raw < capacity) :
    ofRaw? raw = .error .mathOverflow :=
  dif_neg hover

theorem ofRaw?_raw (n : Number) : ofRaw? n.raw = .ok n :=
  ofRaw?_of_lt n.raw_lt

theorem raw_of_ofRaw? {raw : Nat} {n : Number} (hok : ofRaw? raw = .ok n) : n.raw = raw := by
  unfold ofRaw? at hok
  split at hok
  · cases hok
    rfl
  · cases hok

/-- A checked product, and then a value made from it that is known to fit. This is the shape of both
directions of `interpolate`. -/
theorem ofRaw?_bind_of_lt {product : Nat} (next : Nat → Nat) (hnext : next product < capacity) :
    (ofRaw? product >>= fun checked => ofRaw? (next checked.raw)) =
      if product < capacity then .ok ⟨next product, hnext⟩ else .error .mathOverflow := by
  by_cases hfits : product < capacity
  · rw [if_pos hfits, ofRaw?_of_lt hfits]
    exact ofRaw?_of_lt hnext
  · rw [if_neg hfits, ofRaw?_of_not_lt hfits]
    rfl

end Number

namespace Segment

/-- How far along the segment the argument lies, cut to the ends of the segment. -/
def along (x x0 x1 : Number) : Nat :=
  max x0.raw (min x.raw x1.raw) - x0.raw

def height (y0 y1 : Number) : Nat :=
  (y1.raw - y0.raw) + (y0.raw - y1.raw)

/-- The step away from the start of the segment. -/
def step (x x0 x1 y0 y1 : Number) : Nat :=
  along x x0 x1 * height y0 y1 / (x1.raw - x0.raw)

theorem height_of_le {y0 y1 : Number} (hrises : y0.raw ≤ y1.raw) :
    height y0 y1 = y1.raw - y0.raw := by
  unfold height
  omega

theorem height_of_not_le {y0 y1 : Number} (hfalls : ¬y0.raw ≤ y1.raw) :
    height y0 y1 = y0.raw - y1.raw := by
  unfold height
  omega

theorem along_le_span {x0 x1 : Number} (x : Number) (hspan : x0.raw < x1.raw) :
    along x x0 x1 ≤ x1.raw - x0.raw := by
  unfold along
  omega

/-- The argument is at most the whole segment along, by `along_le_span`, so the step is at most its
whole height. -/
theorem step_le_height {x0 x1 : Number} (x y0 y1 : Number) (hspan : x0.raw < x1.raw) :
    step x x0 x1 y0 y1 ≤ height y0 y1 := by
  unfold step
  apply Nat.div_le_of_le_mul
  exact Nat.mul_le_mul_right _ (along_le_span x hspan)

theorem along_of_le_start {x x0 : Number} (x1 : Number) (hle : x.raw ≤ x0.raw) :
    along x x0 x1 = 0 := by
  unfold along
  omega

theorem along_of_end_le {x x0 x1 : Number} (hspan : x0.raw < x1.raw) (hle : x1.raw ≤ x.raw) :
    along x x0 x1 = x1.raw - x0.raw := by
  unfold along
  omega

theorem along_mono {x x' : Number} (x0 x1 : Number) (hle : x.raw ≤ x'.raw) :
    along x x0 x1 ≤ along x' x0 x1 := by
  unfold along
  omega

/-- Further along the segment the step is no smaller, as `along_mono` says of the way. -/
theorem step_mono {x x' : Number} (x0 x1 y0 y1 : Number) (hle : x.raw ≤ x'.raw) :
    step x x0 x1 y0 y1 ≤ step x' x0 x1 y0 y1 := by
  unfold step
  exact Nat.div_le_div_right (Nat.mul_le_mul_right _ (along_mono x0 x1 hle))

/-- The value at the end of the step, which goes up or down as the segment does. -/
def value (x x0 x1 y0 y1 : Number) : Nat :=
  if y0.raw ≤ y1.raw then y0.raw + step x x0 x1 y0 y1 else y0.raw - step x x0 x1 y0 y1

theorem value_between {x0 x1 : Number} (x y0 y1 : Number) (hspan : x0.raw < x1.raw) :
    min y0.raw y1.raw ≤ value x x0 x1 y0 y1 ∧ value x x0 x1 y0 y1 ≤ max y0.raw y1.raw := by
  have hstep := step_le_height x y0 y1 hspan
  unfold value
  split
  · next hrises =>
    rw [height_of_le hrises] at hstep
    omega
  · next hfalls =>
    rw [height_of_not_le hfalls] at hstep
    omega

theorem value_mono {x x' y0 y1 : Number} (x0 x1 : Number) (hrises : y0.raw ≤ y1.raw)
    (hle : x.raw ≤ x'.raw) : value x x0 x1 y0 y1 ≤ value x' x0 x1 y0 y1 := by
  unfold value
  rw [if_pos hrises, if_pos hrises]
  exact Nat.add_le_add_left (step_mono x0 x1 y0 y1 hle) _

theorem value_anti {x x' y0 y1 : Number} (x0 x1 : Number) (hfalls : ¬y0.raw ≤ y1.raw)
    (hle : x.raw ≤ x'.raw) : value x' x0 x1 y0 y1 ≤ value x x0 x1 y0 y1 := by
  unfold value
  rw [if_neg hfalls, if_neg hfalls]
  exact Nat.sub_le_sub_left (step_mono x0 x1 y0 y1 hle) _

theorem value_of_le_start {x x0 : Number} (x1 y0 y1 : Number) (hle : x.raw ≤ x0.raw) :
    value x x0 x1 y0 y1 = y0.raw := by
  have hstep : step x x0 x1 y0 y1 = 0 := by
    rw [step, along_of_le_start x1 hle, Nat.zero_mul, Nat.zero_div]
  unfold value
  rw [hstep, Nat.add_zero, Nat.sub_zero, ite_self]

theorem value_of_end_le {x x0 x1 : Number} (y0 y1 : Number) (hspan : x0.raw < x1.raw)
    (hle : x1.raw ≤ x.raw) : value x x0 x1 y0 y1 = y1.raw := by
  -- Nothing is cut here, where the product is a multiple of the span.
  have hstep : step x x0 x1 y0 y1 = height y0 y1 := by
    rw [step, along_of_end_le hspan hle]
    exact Nat.mul_div_cancel_left _ (Nat.sub_pos_of_lt hspan)
  unfold value
  rw [hstep]
  unfold height
  split <;> omega

theorem value_lt_capacity {x0 x1 : Number} (x y0 y1 : Number) (hspan : x0.raw < x1.raw) :
    value x x0 x1 y0 y1 < Number.capacity := by
  have hvalue := (value_between x y0 y1 hspan).2
  have hstart := y0.raw_lt
  have hend := y1.raw_lt
  omega

end Segment

open Segment

theorem interpolate_of_no_span {x0 x1 : Number} (x y0 y1 : Number) (hspan : x1.raw ≤ x0.raw) :
    interpolate x x0 x1 y0 y1 = .ok y1 :=
  if_pos hspan

/-- **What an interpolation comes to.** A segment without width has its end value; otherwise the
product that is divided for the step has to fit, and nothing after it can fail, by
`value_lt_capacity`. -/
theorem interpolate_eq {x0 x1 : Number} (x y0 y1 : Number) (hspan : x0.raw < x1.raw) :
    interpolate x x0 x1 y0 y1 =
      if along x x0 x1 * height y0 y1 < Number.capacity then
        .ok ⟨value x x0 x1 y0 y1, value_lt_capacity x y0 y1 hspan⟩
      else .error .mathOverflow := by
  have hvalue := value_lt_capacity x y0 y1 hspan
  unfold interpolate
  rw [if_neg (Nat.not_le_of_lt hspan)]
  -- Both directions check the product with their own height, and leave the start their own way.
  by_cases hrises : y0.raw ≤ y1.raw
  · have hheight := height_of_le hrises
    simp only [value, step, if_pos hrises, hheight] at hvalue ⊢
    exact Number.ofRaw?_bind_of_lt (fun product => y0.raw + product / (x1.raw - x0.raw)) hvalue
  · have hheight := height_of_not_le hrises
    simp only [value, step, if_neg hrises, hheight] at hvalue ⊢
    exact Number.ofRaw?_bind_of_lt (fun product => y0.raw - product / (x1.raw - x0.raw)) hvalue

/-- **The value lies between the two ends**, which is `value_between` for a segment that has a
width. -/
theorem interpolate_between {x x0 x1 y0 y1 y : Number}
    (hok : interpolate x x0 x1 y0 y1 = .ok y) :
    min y0.raw y1.raw ≤ y.raw ∧ y.raw ≤ max y0.raw y1.raw := by
  by_cases hspan : x0.raw < x1.raw
  · rw [interpolate_eq x y0 y1 hspan] at hok
    split at hok
    · cases hok
      exact value_between x y0 y1 hspan
    · cases hok
  · rw [interpolate_of_no_span x y0 y1 (Nat.le_of_not_lt hspan)] at hok
    cases hok
    omega

/-- **An argument that lies no further gets no further** from the start. Its product is no larger,
so it has a value as well; `value_mono` and `value_anti` are the two directions. -/
theorem interpolate_mono {x x' x0 x1 y0 y1 y' : Number} (hspan : x0.raw < x1.raw)
    (hle : x.raw ≤ x'.raw) (hy' : interpolate x' x0 x1 y0 y1 = .ok y') :
    ∃ y, interpolate x x0 x1 y0 y1 = .ok y ∧
      (y0.raw ≤ y1.raw → y.raw ≤ y'.raw) ∧ (y1.raw < y0.raw → y'.raw ≤ y.raw) := by
  rw [interpolate_eq x' y0 y1 hspan] at hy'
  split at hy'
  · next hfits =>
    cases hy'
    -- The further argument has the larger product, and that one fits.
    have hproduct : along x x0 x1 * height y0 y1 ≤ along x' x0 x1 * height y0 y1 :=
      Nat.mul_le_mul_right _ (along_mono x0 x1 hle)
    rw [interpolate_eq x y0 y1 hspan, if_pos (Nat.lt_of_le_of_lt hproduct hfits)]
    exact ⟨_, rfl, fun hrises => value_mono x0 x1 hrises hle,
      fun hfalls => value_anti x0 x1 (Nat.not_le_of_lt hfalls) hle⟩
  · cases hy'

end LendingRelay
