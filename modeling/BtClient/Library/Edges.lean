import BtClient.Library.MaximalRuns

/-!
# The edges of a boolean signal

The neighbours of a boolean sequence that differ are its rising and its falling edges. One
more value adds at most one edge, and there are as many more rises than falls as the last
value lies above the first.
-/

namespace MaximalRuns

/-- The number of changes from `false` to `true`. -/
def rises (signal : List Bool) : ℕ :=
  (adjacent (fun before now => !before && now) signal).count true

/-- The number of changes from `true` to `false`. -/
def falls (signal : List Bool) : ℕ :=
  (adjacent (fun before now => before && !now) signal).count true

theorem count_concat_edge (edge : Bool → Bool → Bool) (signal : List Bool) (now : Bool) :
    (adjacent edge (signal ++ [now])).count true =
      (adjacent edge signal).count true +
        (signal.getLast?.any fun before => edge before now).toNat := by
  rw [adjacent_concat, List.count_append]
  cases signal.getLast? with
  | none => rfl
  | some before => cases h : edge before now <;> simp [h]

theorem rises_concat (signal : List Bool) (now : Bool) :
    rises (signal ++ [now]) =
      rises signal + (signal.getLast?.any fun before => !before && now).toNat :=
  count_concat_edge _ signal now

theorem falls_concat (signal : List Bool) (now : Bool) :
    falls (signal ++ [now]) =
      falls signal + (signal.getLast?.any fun before => before && !now).toNat :=
  count_concat_edge _ signal now

/-- The rises and the falls balance up to the two ends of the signal. -/
theorem rises_sub_falls (signal : List Bool) :
    (rises signal : Int) - falls signal = extent (fun b : Bool => (b.toNat : Int)) false signal := by
  rw [← sum_adjacent_sub, rises, falls]
  induction signal with
  | nil => rfl
  | cons a signal ih =>
      cases signal with
      | nil => rfl
      | cons b signal =>
          simp only [adjacent_cons_cons, List.count_cons, List.sum_cons, ← ih]
          cases a <;> cases b <;> simp <;> omega

/-- Without two values there is no edge. -/
theorem edges_eq_zero {signal : List Bool} (h : signal.length ≤ 1) :
    rises signal = 0 ∧ falls signal = 0 := by
  cases signal with
  | nil => exact ⟨rfl, rfl⟩
  | cons b signal =>
      have hnil : signal = [] := List.length_eq_zero_iff.mp (by simpa using h)
      rw [hnil]
      exact ⟨rfl, rfl⟩

end MaximalRuns
