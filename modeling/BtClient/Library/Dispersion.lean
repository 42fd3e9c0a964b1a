import Mathlib

/-!
# Mean and variance of a list

The mean of a non-empty list lies between any bounds of its entries. The variance is at least
zero, vanishes exactly when all entries are equal, and is at most a quarter of the squared
distance of two bounds: around the mean `m` of entries between `a` and `b`, the squared
deviations add up to at most `n * ((b - m) * (m - a))`.
-/

universe u

namespace Dispersion

variable {K : Type u} [Field K]

def mean (l : List K) : K := l.sum / (l.length : K)

/-- The mean of the squared deviations from the mean. -/
def variance (l : List K) : K :=
  (l.map fun x => (x - mean l) * (x - mean l)).sum / (l.length : K)

variable [LinearOrder K] [IsStrictOrderedRing K] {l : List K} {a b : K}

theorem length_pos_cast (hl : l ≠ []) : (0 : K) < (l.length : K) :=
  Nat.cast_pos.mpr (List.length_pos_iff.mpr hl)

theorem le_mean (hl : l ≠ []) (ha : ∀ x ∈ l, a ≤ x) : a ≤ mean l := by
  have hsum := List.card_nsmul_le_sum l a ha
  rw [nsmul_eq_mul] at hsum
  rw [mean, le_div_iff₀ (length_pos_cast hl), mul_comm]
  exact hsum

theorem mean_le (hl : l ≠ []) (hb : ∀ x ∈ l, x ≤ b) : mean l ≤ b := by
  have hsum := List.sum_le_card_nsmul l b hb
  rw [nsmul_eq_mul] at hsum
  rw [mean, div_le_iff₀ (length_pos_cast hl), mul_comm]
  exact hsum

/-- The deviations from the mean cancel. -/
theorem sum_sub_mean (hl : l ≠ []) : (l.map fun x => x - mean l).sum = 0 := by
  have hcast : (l.length : K) ≠ 0 := (length_pos_cast hl).ne'
  have hsub : ∀ (k : List K) (m : K), (k.map fun x => x - m).sum = k.sum - k.length * m := by
    intro k m
    induction k with
    | nil => simp
    | cons x k ih =>
        rw [List.map_cons, List.sum_cons, ih, List.sum_cons, List.length_cons]
        push_cast
        ring
  rw [hsub, mean, mul_div_cancel₀ _ hcast, sub_self]

theorem sum_sq_nonneg (l : List K) (m : K) :
    0 ≤ (l.map fun x => (x - m) * (x - m)).sum := by
  apply List.sum_nonneg
  intro y hy
  obtain ⟨x, -, rfl⟩ := List.mem_map.mp hy
  exact mul_self_nonneg _

theorem variance_nonneg (hl : l ≠ []) : 0 ≤ variance l :=
  div_nonneg (sum_sq_nonneg l _) (length_pos_cast hl).le

/-- Every squared deviation is a difference of the product of the distances of the mean to the
bounds, a product that is not negative, and a multiple of the deviation. -/
theorem sum_sq_le (ha : ∀ x ∈ l, a ≤ x) (hb : ∀ x ∈ l, x ≤ b) (m : K) :
    (l.map fun x => (x - m) * (x - m)).sum ≤
      l.length * ((b - m) * (m - a)) + (a + b - 2 * m) * (l.map fun x => x - m).sum := by
  induction l with
  | nil => simp
  | cons x l ih =>
      rw [List.forall_mem_cons] at ha hb
      have hprod : 0 ≤ (x - a) * (b - x) :=
        mul_nonneg (sub_nonneg.mpr ha.1) (sub_nonneg.mpr hb.1)
      have hrest := ih ha.2 hb.2
      simp only [List.map_cons, List.sum_cons, List.length_cons]
      push_cast
      nlinarith only [hprod, hrest]

theorem variance_le (hl : l ≠ []) (ha : ∀ x ∈ l, a ≤ x) (hb : ∀ x ∈ l, x ≤ b) :
    variance l ≤ (b - a) ^ 2 / 4 := by
  have hlength := length_pos_cast hl
  have hsum := sum_sq_le ha hb (mean l)
  rw [sum_sub_mean hl, mul_zero, add_zero] at hsum
  have hproduct : (b - mean l) * (mean l - a) ≤ (b - a) ^ 2 / 4 := by
    have hsquare := mul_self_nonneg (b + a - 2 * mean l)
    linarith only [hsquare]
  calc variance l ≤ (b - mean l) * (mean l - a) := by
        rw [variance, div_le_iff₀ hlength, mul_comm]
        exact hsum
    _ ≤ (b - a) ^ 2 / 4 := hproduct

/-- Without dispersion all entries are equal. -/
theorem variance_eq_zero_iff (hl : l ≠ []) :
    variance l = 0 ↔ ∀ x ∈ l, ∀ y ∈ l, x = y := by
  have hlength : (l.length : K) ≠ 0 := (length_pos_cast hl).ne'
  constructor
  · intro hzero
    have hsum : (l.map fun x => (x - mean l) * (x - mean l)).sum = 0 := by
      rw [variance, div_eq_zero_iff] at hzero
      exact hzero.resolve_right hlength
    have hmean : ∀ x ∈ l, x = mean l := by
      intro x hx
      have hterm := List.all_zero_of_le_zero_le_of_sum_eq_zero
        (l := l.map fun x => (x - mean l) * (x - mean l))
        (fun y hy => by
          obtain ⟨z, -, rfl⟩ := List.mem_map.mp hy
          exact mul_self_nonneg _) hsum (List.mem_map_of_mem hx)
      exact sub_eq_zero.mp (mul_self_eq_zero.mp hterm)
    intro x hx y hy
    rw [hmean x hx, hmean y hy]
  · intro hall
    obtain ⟨a, ha⟩ := List.exists_mem_of_ne_nil l hl
    have hle : ∀ x ∈ l, a ≤ x := fun x hx => (hall a ha x hx).le
    have hge : ∀ x ∈ l, x ≤ a := fun x hx => (hall x hx a ha).le
    have hbound := variance_le hl hle hge
    rw [sub_self] at hbound
    exact le_antisymm (by simpa using hbound) (variance_nonneg hl)

end Dispersion
