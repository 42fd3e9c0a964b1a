import Mathlib

/-!
# The maximal runs of a sequence

`IsMaximalRuns r l runs` says that `runs` cuts the list `l` into the longest pieces in
which neighbours are related by `r`. The runs are unique, and they are built up from the
left: a new element either goes on with the last run or starts another one. `adjacent f l`
lists what `f` makes of the neighbours in `l`; for differences it telescopes, also when
the list is cut into runs.
-/

universe u v

namespace MaximalRuns

variable {α : Type u} {β : Type v}

structure IsMaximalRuns (r : α → α → Prop) (l : List α) (runs : List (List α)) : Prop where
  flatten : runs.flatten = l
  nonempty : ∀ run ∈ runs, run ≠ []
  within : ∀ run ∈ runs, run.IsChain r
  between : runs.IsChain fun run next =>
    ∀ a ∈ run.getLast?, ∀ b ∈ next.head?, ¬ r a b

namespace IsMaximalRuns

variable {r : α → α → Prop} {l : List α} {runs : List (List α)}

/-- The maximal runs are what `List.splitBy` computes. -/
theorem splitBy_eq [DecidableRel r] (h : IsMaximalRuns r l runs) :
    l.splitBy (fun a b => decide (r a b)) = runs := by
  rw [List.splitBy_eq_iff]
  refine ⟨h.flatten.symm, fun hmem => h.nonempty _ hmem rfl, ?_, ?_⟩
  · intro run hrun
    simpa using h.within run hrun
  · rw [List.isChain_iff_getElem]
    intro i hi
    have hbetween := List.isChain_iff_getElem.mp h.between i hi
    have hlast := h.nonempty _ (List.getElem_mem (Nat.lt_of_succ_lt hi))
    have hhead := h.nonempty _ (List.getElem_mem hi)
    refine ⟨hlast, hhead, decide_eq_false ?_⟩
    exact hbetween _ (List.getLast?_eq_some_getLast hlast) _ (List.head?_eq_some_head hhead)

theorem unique {runs' : List (List α)} (h : IsMaximalRuns r l runs)
    (h' : IsMaximalRuns r l runs') : runs = runs' := by
  classical
  rw [← h.splitBy_eq, h'.splitBy_eq]

theorem nil : IsMaximalRuns r [] [] where
  flatten := rfl
  nonempty := by simp
  within := by simp
  between := by simp

/-- An element that is not related to the last one starts a new run. -/
theorem start (h : IsMaximalRuns r l runs) {a : α}
    (ha : ∀ run ∈ runs.getLast?, ∀ b ∈ run.getLast?, ¬ r b a) :
    IsMaximalRuns r (l ++ [a]) (runs ++ [[a]]) where
  flatten := by simp [h.flatten]
  nonempty := by simpa [or_imp, forall_and] using h.nonempty
  within := by simpa [or_imp, forall_and] using h.within
  between := by
    rw [List.isChain_append]
    refine ⟨h.between, List.isChain_singleton _, ?_⟩
    intro run hrun next hnext b hb c hc
    obtain rfl : [a] = next := by simpa using hnext
    obtain rfl : a = c := by simpa using hc
    exact ha run hrun b hb

/-- An element that is related to the last one goes on with the last run. -/
theorem extend {done : List (List α)} {run : List α} (h : IsMaximalRuns r l (done ++ [run]))
    {a : α} (ha : ∀ b ∈ run.getLast?, r b a) :
    IsMaximalRuns r (l ++ [a]) (done ++ [run ++ [a]]) where
  flatten := by
    rw [← h.flatten]
    simp
  nonempty := by
    have hnonempty := h.nonempty
    simp only [List.mem_append, List.mem_singleton, or_imp, forall_and, forall_eq] at hnonempty ⊢
    exact ⟨hnonempty.1, by simp⟩
  within := by
    have hwithin := h.within
    simp only [List.mem_append, List.mem_singleton, or_imp, forall_and, forall_eq] at hwithin ⊢
    refine ⟨hwithin.1, ?_⟩
    rw [List.isChain_append]
    exact ⟨hwithin.2, List.isChain_singleton _, by simpa using ha⟩
  between := by
    have hbetween := h.between
    have hrun : run ≠ [] := h.nonempty run (by simp)
    rw [List.isChain_append] at hbetween ⊢
    refine ⟨hbetween.1, List.isChain_singleton _, ?_⟩
    intro prev hprev next hnext b hb c hc
    obtain rfl : run ++ [a] = next := by simpa using hnext
    rw [List.head?_append_of_ne_nil _ hrun] at hc
    exact hbetween.2.2 prev hprev run (by simp) b hb c hc

theorem eq_nil_iff (h : IsMaximalRuns r l runs) : runs = [] ↔ l = [] := by
  constructor
  · rintro rfl
    exact h.flatten.symm
  · intro hl
    rw [← h.flatten, List.flatten_eq_nil_iff] at hl
    cases runs with
    | nil => rfl
    | cons run rest => exact absurd (hl run (by simp)) (h.nonempty run (by simp))

/-- The lengths of the runs add up to the length of the sequence. -/
theorem sum_length (h : IsMaximalRuns r l runs) : (runs.map List.length).sum = l.length := by
  rw [← List.length_flatten, h.flatten]

end IsMaximalRuns

/-! ### Neighbours -/

section Adjacent

variable (f : α → α → β)

/-- What `f` makes of the neighbours in a list. -/
def adjacent (l : List α) : List β := List.zipWith f l l.tail

@[simp] theorem adjacent_nil : adjacent f [] = [] := rfl

@[simp] theorem adjacent_singleton (a : α) : adjacent f [a] = [] := rfl

theorem adjacent_cons_cons (a b : α) (l : List α) :
    adjacent f (a :: b :: l) = f a b :: adjacent f (b :: l) := rfl

/-- One more element adds the pair that it forms with the last one. -/
theorem adjacent_concat (l : List α) (a : α) :
    adjacent f (l ++ [a]) = adjacent f l ++ (l.getLast?.map fun b => f b a).toList := by
  induction l with
  | nil => rfl
  | cons b l ih =>
      cases l with
      | nil => rfl
      | cons c l =>
          have ih' : adjacent f (c :: (l ++ [a])) =
              adjacent f (c :: l) ++ ((c :: l).getLast?.map fun b => f b a).toList := ih
          rw [List.cons_append, List.cons_append, adjacent_cons_cons, adjacent_cons_cons, ih',
            List.getLast?_cons_cons, List.cons_append]

/-- What holds of all ordered pairs holds of the neighbours. -/
theorem forall_adjacent {R : α → α → Prop} {P : β → Prop} (hf : ∀ a b, R a b → P (f a b))
    {l : List α} (h : l.Pairwise R) : ∀ x ∈ adjacent f l, P x := by
  induction l with
  | nil => simp
  | cons a l ih =>
      cases l with
      | nil => simp
      | cons b l =>
          obtain ⟨ha, hrest⟩ := List.pairwise_cons.mp h
          rw [adjacent_cons_cons, List.forall_mem_cons]
          exact ⟨hf a b (ha b List.mem_cons_self), ih hrest⟩

/-- There is one pair fewer than there are elements. -/
theorem length_adjacent (l : List α) : (adjacent f l).length = l.length - 1 := by
  simp [adjacent]

end Adjacent

/-! ### Telescoping -/

section Telescope

variable {M : Type v} [AddCommGroup M] (f : α → M)

/-- The distance from the first to the last element; `d` stands in for both in an empty
list. -/
def extent (d : α) (l : List α) : M := f (l.getLastD d) - f (l.headD d)

/-- The distance from the last element of a list to the first of the next. -/
def gap (d : α) (l next : List α) : M := f (next.headD d) - f (l.getLastD d)

theorem sum_adjacent_sub (d : α) (l : List α) :
    (adjacent (fun a b => f b - f a) l).sum = extent f d l := by
  induction l with
  | nil => simp [extent]
  | cons a l ih =>
      cases l with
      | nil => simp [extent]
      | cons b l =>
          have hextent : extent f d (a :: b :: l) = f b - f a + extent f d (b :: l) := by
            simp only [extent, List.getLastD_cons, List.headD_cons]
            abel
          rw [adjacent_cons_cons, List.sum_cons, ih, hextent]

theorem extent_append (d : α) {l l' : List α} (hl : l ≠ []) (hl' : l' ≠ []) :
    extent f d (l ++ l') = extent f d l + (gap f d l l' + extent f d l') := by
  obtain ⟨a, l, rfl⟩ := List.exists_cons_of_ne_nil hl
  obtain ⟨b, l', rfl⟩ := List.exists_cons_of_ne_nil hl'
  have hlast : (l ++ b :: l').getLastD a = l'.getLastD b := by
    simp [List.getLastD_eq_getLast?, List.getLast?_append, List.getLast?_cons]
  simp only [extent, gap, List.cons_append, List.headD_cons, List.getLastD_cons, hlast]
  abel

/-- The extents of the pieces and the gaps between them add up to the whole extent. -/
theorem sum_extent_add_sum_gap (d : α) {runs : List (List α)} (h : ∀ run ∈ runs, run ≠ []) :
    (runs.map (extent f d)).sum + (adjacent (gap f d) runs).sum =
      extent f d runs.flatten := by
  induction runs with
  | nil => simp [extent]
  | cons run runs ih =>
      rw [List.forall_mem_cons] at h
      cases runs with
      | nil => simp
      | cons next runs =>
          have hnext : (next :: runs).flatten ≠ [] := by
            rw [List.flatten_cons]
            exact List.append_ne_nil_of_left_ne_nil (h.2 next (by simp)) _
          have hgap : gap f d run (next :: runs).flatten = gap f d run next := by
            obtain ⟨b, next, rfl⟩ := List.exists_cons_of_ne_nil (h.2 next (by simp))
            rfl
          rw [List.flatten_cons, extent_append f d h.1 hnext, ← ih h.2, hgap, adjacent_cons_cons,
            List.map_cons, List.sum_cons, List.sum_cons]
          abel

end Telescope

end MaximalRuns
