import Mathlib

/-!
# Linear interpolation of a sequence

`interpolate a x` reads the sequence `a` at the position `x`: between two neighbouring
indices the value moves linearly from the one entry to the other. At an index it is the entry
there, between two indices it lies between their entries, and for a monotone sequence it is
monotone, also where the neighbours change.
-/

universe u

namespace Interpolation

variable {K : Type u} [Field K] [LinearOrder K] [IsStrictOrderedRing K] [FloorSemiring K]
variable (a : ℕ → K)

/-- The value of `a` at the position `x`. -/
def interpolate (x : K) : K :=
  a ⌊x⌋₊ * (1 - (x - (⌊x⌋₊ : K))) + a ⌈x⌉₊ * (x - (⌊x⌋₊ : K))

/-- At an index the entry is read. -/
theorem interpolate_natCast (k : ℕ) : interpolate a (k : K) = a k := by
  simp [interpolate]

omit [IsStrictOrderedRing K] in
/-- From the lower index on, the value moves towards the next entry. -/
theorem interpolate_eq {x : K} (hx : 0 ≤ x) :
    interpolate a x = a ⌊x⌋₊ + (x - (⌊x⌋₊ : K)) * (a (⌊x⌋₊ + 1) - a ⌊x⌋₊) := by
  rcases (Nat.floor_le hx).eq_or_lt with heq | hlt
  · simp only [interpolate, heq, sub_self]
    ring
  · have hceil : ⌈x⌉₊ = ⌊x⌋₊ + 1 := by
      apply le_antisymm
      · exact Nat.ceil_le_floor_add_one x
      · exact Nat.lt_ceil.mpr hlt
    rw [interpolate, hceil]
    ring

variable {a}

/-- The weight of the upper entry. -/
theorem weight_mem {x : K} (hx : 0 ≤ x) : 0 ≤ x - (⌊x⌋₊ : K) ∧ x - (⌊x⌋₊ : K) ≤ 1 := by
  have hfloor := Nat.floor_le hx
  have hnext := (Nat.lt_floor_add_one x).le
  refine ⟨sub_nonneg.mpr hfloor, ?_⟩
  rw [sub_le_iff_le_add']
  exact hnext

theorem le_interpolate (ha : Monotone a) {x : K} (hx : 0 ≤ x) : a ⌊x⌋₊ ≤ interpolate a x := by
  have hstep : 0 ≤ a (⌊x⌋₊ + 1) - a ⌊x⌋₊ := sub_nonneg.mpr (ha (Nat.le_succ _))
  rw [interpolate_eq a hx]
  exact le_add_of_nonneg_right (mul_nonneg (weight_mem hx).1 hstep)

theorem interpolate_le (ha : Monotone a) {x : K} (hx : 0 ≤ x) :
    interpolate a x ≤ a (⌊x⌋₊ + 1) := by
  have hstep : 0 ≤ a (⌊x⌋₊ + 1) - a ⌊x⌋₊ := sub_nonneg.mpr (ha (Nat.le_succ _))
  have hpart : (x - (⌊x⌋₊ : K)) * (a (⌊x⌋₊ + 1) - a ⌊x⌋₊) ≤ a (⌊x⌋₊ + 1) - a ⌊x⌋₊ :=
    mul_le_of_le_one_left hstep (weight_mem hx).2
  rw [interpolate_eq a hx]
  linarith only [hpart]

/-- For a monotone sequence the value does not decrease: between the same neighbours it moves
towards the larger entry, and past an index the entry there separates the two values. -/
theorem interpolate_mono (ha : Monotone a) {x y : K} (hx : 0 ≤ x) (hxy : x ≤ y) :
    interpolate a x ≤ interpolate a y := by
  have hy : 0 ≤ y := hx.trans hxy
  rcases (Nat.floor_le_floor hxy).eq_or_lt with heq | hlt
  · have hstep : 0 ≤ a (⌊y⌋₊ + 1) - a ⌊y⌋₊ := sub_nonneg.mpr (ha (Nat.le_succ _))
    rw [interpolate_eq a hx, interpolate_eq a hy, heq]
    have hmul := mul_le_mul_of_nonneg_right (sub_le_sub_right hxy (⌊y⌋₊ : K)) hstep
    linarith only [hmul]
  · calc interpolate a x ≤ a (⌊x⌋₊ + 1) := interpolate_le ha hx
      _ ≤ a ⌊y⌋₊ := ha hlt
      _ ≤ interpolate a y := le_interpolate ha hy

end Interpolation
