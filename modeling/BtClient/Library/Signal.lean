import Mathlib

/-!
# Signals that change at given times

A signal has an initial value and a list of timed changes, oldest first. `timeAt` counts
the instants of an interval at which it has a given value. While the signal does not
change, all time is spent at its current value, so a clock that is advanced at every
change counts the same.
-/

universe u

namespace Signal

variable {V : Type u} (init : V)

/-- The value at the instant `t`: that of the latest change up to it. -/
def valueAt (changes : List (Int × V)) (t : Int) : V :=
  ((changes.filter fun change => decide (change.1 ≤ t)).getLast?.map Prod.snd).getD init

/-- The value after all changes. -/
def current (changes : List (Int × V)) : V := (changes.getLast?.map Prod.snd).getD init

/-- The number of instants from `a` on and before `b` at which the signal is `v`. -/
noncomputable def timeAt [DecidableEq V] (changes : List (Int × V)) (v : V) (a b : Int) : ℕ :=
  ((Finset.Ico a b).filter fun t => valueAt init changes t = v).card

@[simp] theorem current_concat (changes : List (Int × V)) (change : Int × V) :
    current init (changes ++ [change]) = change.2 := by
  simp [current]

/-- After the last change the signal has its current value. -/
theorem valueAt_of_le {changes : List (Int × V)} {t : Int} (h : ∀ change ∈ changes, change.1 ≤ t) :
    valueAt init changes t = current init changes := by
  have hfilter : (changes.filter fun change => decide (change.1 ≤ t)) = changes :=
    List.filter_eq_self.mpr fun change hchange => decide_eq_true (h change hchange)
  rw [valueAt, hfilter, current]

/-- A change has no effect on earlier instants. -/
theorem valueAt_concat_of_lt (changes : List (Int × V)) {change : Int × V} {t : Int}
    (h : t < change.1) : valueAt init (changes ++ [change]) t = valueAt init changes t := by
  have hfilter : ([change].filter fun change => decide (change.1 ≤ t)) = [] := by simpa using h
  rw [valueAt, List.filter_append, hfilter, List.append_nil, valueAt]

section TimeAt

variable [DecidableEq V] (changes : List (Int × V)) (v : V)

@[simp] theorem timeAt_self (a : Int) : timeAt init changes v a a = 0 := by
  simp [timeAt]

theorem timeAt_add {a b c : Int} (hab : a ≤ b) (hbc : b ≤ c) :
    timeAt init changes v a b + timeAt init changes v b c = timeAt init changes v a c := by
  simp only [timeAt]
  rw [← Finset.Ico_union_Ico_eq_Ico hab hbc, Finset.filter_union,
    Finset.card_union_of_disjoint]
  exact Finset.disjoint_filter_filter (Finset.Ico_disjoint_Ico_consecutive a b c)

theorem timeAt_concat {change : Int × V} {a b : Int} (h : b ≤ change.1) :
    timeAt init (changes ++ [change]) v a b = timeAt init changes v a b := by
  simp only [timeAt]
  congr 1
  apply Finset.filter_congr
  intro t ht
  rw [valueAt_concat_of_lt init changes ((Finset.mem_Ico.mp ht).2.trans_le h)]

variable {changes}

/-- After the last change all time is spent at the current value. -/
theorem timeAt_of_le {a b : Int} (h : ∀ change ∈ changes, change.1 ≤ a) :
    timeAt init changes v a b = if current init changes = v then (b - a).toNat else 0 := by
  have hvalue : ∀ t ∈ Finset.Ico a b,
      (valueAt init changes t = v ↔ current init changes = v) := by
    intro t ht
    rw [valueAt_of_le init fun change hchange =>
      (h change hchange).trans (Finset.mem_Ico.mp ht).1]
  rw [timeAt, Finset.filter_congr hvalue]
  split
  · next hv => simp [hv]
  · next hv => simp [hv]

end TimeAt

/-- A signal of two values spends all time at one of them. -/
theorem timeAt_true_add_timeAt_false (init : Bool) (changes : List (Int × Bool)) (a b : Int) :
    timeAt init changes true a b + timeAt init changes false a b = (b - a).toNat := by
  have hsplit := Finset.card_filter_add_card_filter_not (s := Finset.Ico a b)
    (fun t => valueAt init changes t = true)
  simp only [Bool.not_eq_true, Int.card_Ico] at hsplit
  exact hsplit

end Signal
