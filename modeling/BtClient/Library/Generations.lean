import Mathlib

/-!
# Successive generations of records under one name

A name that is used again and again has a list of closed records, oldest first,
and at most one current record. Opening makes a new record current when there is
none, closing appends the current record to the closed ones, and updates reach
the current record only. Records are numbered from one in the order in which
they were opened, so the current record always has the highest number.
-/

universe u v

structure Generations (ρ : Type u) where
  closed : List ρ
  current : Option ρ

namespace Generations

variable {ρ : Type u}

/-- Nothing has been opened yet. -/
def empty : Generations ρ where
  closed := []
  current := none

/-- All records, oldest first. -/
def records (g : Generations ρ) : List ρ :=
  g.closed ++ g.current.toList

def count (g : Generations ρ) : ℕ :=
  g.records.length

/-- The record with the given number. -/
def get? (g : Generations ρ) : ℕ → Option ρ
  | 0 => none
  | n + 1 => g.records[n]?

/-- Open a record unless one is current; the new record is told its number. -/
def ensureOpen (new : ℕ → ρ) (g : Generations ρ) : Generations ρ :=
  match g.current with
  | some _ => g
  | none => ⟨g.closed, some (new (g.count + 1))⟩

/-- Change the current record. -/
def update (f : ρ → ρ) (g : Generations ρ) : Generations ρ :=
  ⟨g.closed, g.current.map f⟩

def close (g : Generations ρ) : Generations ρ :=
  ⟨g.records, none⟩

/-- A pass over all records. -/
def map {σ : Type v} (f : ρ → σ) (g : Generations ρ) : Generations σ :=
  ⟨g.closed.map f, g.current.map f⟩

@[simp] theorem records_empty : (empty : Generations ρ).records = [] := rfl

@[simp] theorem count_empty : (empty : Generations ρ).count = 0 := rfl

@[simp] theorem current_empty : (empty : Generations ρ).current = none := rfl

theorem get?_eq_some_iff {g : Generations ρ} {n : ℕ} {r : ρ} :
    g.get? n = some r ↔ ∃ m, n = m + 1 ∧ g.records[m]? = some r := by
  cases n with
  | zero => simp [get?]
  | succ m => simp [get?]

/-- The numbers in use are exactly those from one up to the count. -/
theorem isSome_get? (g : Generations ρ) (n : ℕ) :
    (g.get? n).isSome ↔ 1 ≤ n ∧ n ≤ g.count := by
  cases n with
  | zero => simp [get?]
  | succ m =>
      simp [get?, count]

theorem mem_records_of_get? {g : Generations ρ} {n : ℕ} {r : ρ}
    (h : g.get? n = some r) : r ∈ g.records := by
  obtain ⟨m, -, hm⟩ := get?_eq_some_iff.mp h
  exact List.mem_of_getElem? hm

theorem count_of_current {g : Generations ρ} {r : ρ} (h : g.current = some r) :
    g.count = g.closed.length + 1 := by
  simp [count, records, h]

theorem count_of_none {g : Generations ρ} (h : g.current = none) :
    g.count = g.closed.length := by
  simp [count, records, h]

/-- The current record carries the highest number. -/
theorem get?_count {g : Generations ρ} {r : ρ} (h : g.current = some r) :
    g.get? g.count = some r := by
  rw [count_of_current h]
  simp [get?, records, h]

/-- Below the current record only closed ones are found. -/
theorem get?_of_lt_count {g : Generations ρ} {n : ℕ} (h : n < g.count) {r : ρ}
    (hr : g.get? n = some r) : r ∈ g.closed := by
  obtain ⟨m, rfl, hm⟩ := get?_eq_some_iff.mp hr
  cases hcur : g.current with
  | none =>
      rw [records, hcur] at hm
      exact List.mem_of_getElem? (by simpa using hm)
  | some c =>
      rw [count_of_current hcur] at h
      rw [records, List.getElem?_append_left (by omega)] at hm
      exact List.mem_of_getElem? hm

theorem mem_closed_of_get? {g : Generations ρ} {n : ℕ} {r : ρ} (hr : g.get? n = some r)
    (hn : n ≤ g.closed.length) : r ∈ g.closed := by
  obtain ⟨m, rfl, hm⟩ := get?_eq_some_iff.mp hr
  rw [records, List.getElem?_append_left hn] at hm
  exact List.mem_of_getElem? hm

theorem mem_closed_of_none {g : Generations ρ} (h : g.current = none) {r : ρ}
    (hr : r ∈ g.records) : r ∈ g.closed := by
  simpa [records, h] using hr

theorem get?_of_closed {g : Generations ρ} {m : ℕ} {r : ρ} (h : g.closed[m]? = some r) :
    g.get? (m + 1) = some r := by
  have hlt : m < g.closed.length := (List.getElem?_eq_some_iff.mp h).1
  rw [get?, records, List.getElem?_append_left hlt, h]

/-! ### Opening -/

theorem ensureOpen_of_current {new : ℕ → ρ} {g : Generations ρ} {r : ρ}
    (h : g.current = some r) : g.ensureOpen new = g := by
  simp [ensureOpen, h]

theorem ensureOpen_of_none {new : ℕ → ρ} {g : Generations ρ} (h : g.current = none) :
    g.ensureOpen new = ⟨g.closed, some (new (g.count + 1))⟩ := by
  simp [ensureOpen, h]

@[simp] theorem closed_ensureOpen (new : ℕ → ρ) (g : Generations ρ) :
    (g.ensureOpen new).closed = g.closed := by
  unfold ensureOpen
  split <;> rfl

@[simp] theorem isSome_current_ensureOpen (new : ℕ → ρ) (g : Generations ρ) :
    (g.ensureOpen new).current.isSome := by
  cases h : g.current with
  | none => simp [ensureOpen_of_none h]
  | some r => simp [ensureOpen_of_current h, h]

theorem count_ensureOpen_of_none {new : ℕ → ρ} {g : Generations ρ}
    (h : g.current = none) : (g.ensureOpen new).count = g.count + 1 := by
  rw [ensureOpen_of_none h, count_of_none h]
  simp [count, records]

/-- With a current record there is one more than the closed ones. -/
theorem count_ensureOpen (new : ℕ → ρ) (g : Generations ρ) :
    (g.ensureOpen new).count = g.closed.length + 1 := by
  cases h : g.current with
  | none => rw [count_ensureOpen_of_none h, count_of_none h]
  | some r => rw [ensureOpen_of_current h, count_of_current h]

theorem records_ensureOpen_of_none {new : ℕ → ρ} {g : Generations ρ}
    (h : g.current = none) :
    (g.ensureOpen new).records = g.records ++ [new (g.count + 1)] := by
  rw [ensureOpen_of_none h]
  simp [records, h]

theorem getElem?_append_singleton (l : List ρ) (r : ρ) (m : ℕ) :
    (l ++ [r])[m]? = if m = l.length then some r else l[m]? := by
  rcases Nat.lt_trichotomy m l.length with hlt | heq | hgt
  · rw [List.getElem?_append_left hlt, if_neg hlt.ne]
  · simp [heq]
  · rw [List.getElem?_eq_none (by simpa using hgt), if_neg hgt.ne',
      List.getElem?_eq_none hgt.le]

theorem get?_ensureOpen_of_none {new : ℕ → ρ} {g : Generations ρ}
    (h : g.current = none) (n : ℕ) :
    (g.ensureOpen new).get? n =
      if n = g.count + 1 then some (new (g.count + 1)) else g.get? n := by
  cases n with
  | zero => simp [get?]
  | succ m =>
      simp only [get?, records_ensureOpen_of_none h, getElem?_append_singleton,
        Nat.add_right_cancel_iff]
      rfl

/-! ### Changing the current record -/

@[simp] theorem current_update (f : ρ → ρ) (g : Generations ρ) :
    (g.update f).current = g.current.map f := rfl

@[simp] theorem closed_update (f : ρ → ρ) (g : Generations ρ) :
    (g.update f).closed = g.closed := rfl

@[simp] theorem count_update (f : ρ → ρ) (g : Generations ρ) :
    (g.update f).count = g.count := by
  cases h : g.current with
  | none => simp [count, records, h]
  | some r => simp [count, records, h]

theorem get?_update {f : ρ → ρ} {g : Generations ρ} {r : ρ} (h : g.current = some r)
    (n : ℕ) : (g.update f).get? n = if n = g.count then some (f r) else g.get? n := by
  cases n with
  | zero =>
      rw [count_of_current h]
      rfl
  | succ m =>
      rw [count_of_current h]
      simp only [get?, records, closed_update, current_update, h, Option.map_some,
        Option.toList_some, getElem?_append_singleton, Nat.add_right_cancel_iff]
      split
      · rfl
      · rfl

@[simp] theorem update_update (f f' : ρ → ρ) (g : Generations ρ) :
    (g.update f).update f' = g.update (f' ∘ f) := by
  simp [update]

/-! ### Closing -/

@[simp] theorem current_close (g : Generations ρ) : g.close.current = none := rfl

@[simp] theorem records_close (g : Generations ρ) : g.close.records = g.records := by
  simp [close, records]

@[simp] theorem count_close (g : Generations ρ) : g.close.count = g.count := by
  simp [count]

@[simp] theorem get?_close (g : Generations ρ) (n : ℕ) : g.close.get? n = g.get? n := by
  cases n with
  | zero => rfl
  | succ m => simp [get?]

/-- The numbered records and the presence of a current one determine everything. -/
theorem ext_get? {g g' : Generations ρ} (hget : ∀ n, g.get? n = g'.get? n)
    (hcurrent : g.current.isSome = g'.current.isSome) : g = g' := by
  have hrecords : g.records = g'.records := by
    apply List.ext_getElem?
    intro m
    exact hget (m + 1)
  obtain ⟨closed, current⟩ := g
  obtain ⟨closed', current'⟩ := g'
  cases current with
  | none =>
      cases current' with
      | none => simpa [records] using hrecords
      | some c' => cases hcurrent
  | some c =>
      cases current' with
      | none => cases hcurrent
      | some c' =>
          have hsplit : closed ++ [c] = closed' ++ [c'] := hrecords
          obtain ⟨rfl, hc⟩ := List.append_inj' hsplit rfl
          rw [(List.cons.inj hc).1]

/-- A sum over the numbers of the records. -/
theorem sum_range_get? {M : Type v} [AddCommMonoid M] (f : ρ → M) (g : Generations ρ) :
    ∑ n ∈ Finset.range g.count, ((g.get? (n + 1)).map f).getD 0 =
      (g.records.map f).sum := by
  simp only [get?, count]
  induction g.records with
  | nil => rfl
  | cons r rest ih =>
      rw [List.length_cons, Finset.sum_range_succ', List.map_cons, List.sum_cons]
      simp only [List.getElem?_cons_succ, List.getElem?_cons_zero, ih]
      exact add_comm _ _

/-! ### Passing over all records -/

section Map

variable {σ : Type v} (f : ρ → σ) (g : Generations ρ)

@[simp] theorem current_map : (g.map f).current = g.current.map f := rfl

@[simp] theorem closed_map : (g.map f).closed = g.closed.map f := rfl

@[simp] theorem records_map : (g.map f).records = g.records.map f := by
  cases h : g.current with
  | none => simp [map, records, h]
  | some r => simp [map, records, h]

@[simp] theorem count_map : (g.map f).count = g.count := by
  simp [count]

@[simp] theorem get?_map (n : ℕ) : (g.map f).get? n = (g.get? n).map f := by
  cases n with
  | zero => rfl
  | succ m => simp [get?]

@[simp] theorem map_empty : (empty : Generations ρ).map f = empty := rfl

theorem map_ensureOpen (new : ℕ → ρ) :
    (g.ensureOpen new).map f = (g.map f).ensureOpen (f ∘ new) := by
  cases h : g.current with
  | none =>
      have hmap : (g.map f).current = none := by simp [h]
      rw [ensureOpen_of_none h, ensureOpen_of_none hmap, count_map]
      rfl
  | some r =>
      have hmap : (g.map f).current = some (f r) := by simp [h]
      rw [ensureOpen_of_current h, ensureOpen_of_current hmap]

/-- A change that `f` carries over to `u'` is a change by `u'` after `f`. -/
theorem map_update {u : ρ → ρ} {u' : σ → σ} (hu : ∀ r, f (u r) = u' (f r)) :
    (g.update u).map f = (g.map f).update u' := by
  cases h : g.current with
  | none => simp [map, update, h]
  | some r => simp [map, update, h, hu]

theorem map_close : g.close.map f = (g.map f).close := by
  cases h : g.current with
  | none => simp [map, close, records, h]
  | some r => simp [map, close, records, h]

/-- A pass that `f` does not notice. -/
theorem map_map_of_eq {u : ρ → ρ} (hu : ∀ r, f (u r) = f r) : (g.map u).map f = g.map f := by
  have hcomp : f ∘ u = f := funext hu
  simp [map, hcomp]

end Map

theorem update_id (g : Generations ρ) : g.update id = g := by
  simp [update]

/-! ### A property of the closed records and one of the current record -/

/-- The closed records satisfy `P` and the current record satisfies `Q`. -/
structure Splits (P Q : ρ → Prop) (g : Generations ρ) : Prop where
  closed : ∀ r ∈ g.closed, P r
  current : ∀ r, g.current = some r → Q r

namespace Splits

variable {P Q : ρ → Prop} {g : Generations ρ}

theorem empty : Splits P Q (Generations.empty : Generations ρ) where
  closed r h := by cases h
  current r h := by cases h

theorem imp (h : Splits P Q g) {P' Q' : ρ → Prop} (hP : ∀ r, P r → P' r)
    (hQ : ∀ r, Q r → Q' r) : Splits P' Q' g where
  closed r hr := hP r (h.closed r hr)
  current r hr := hQ r (h.current r hr)

/-- A record that cannot be current is found among the closed ones. -/
theorem exists_closed (h : Splits P Q g) {n : ℕ} {r : ρ} (hr : g.get? n = some r) (hQ : ¬ Q r) :
    ∃ m, n = m + 1 ∧ g.closed[m]? = some r := by
  obtain ⟨m, rfl, hm⟩ := get?_eq_some_iff.mp hr
  refine ⟨m, rfl, ?_⟩
  rw [records] at hm
  rcases lt_or_ge m g.closed.length with hlt | hge
  · rwa [List.getElem?_append_left hlt] at hm
  · rw [List.getElem?_append_right hge] at hm
    exact absurd (h.current r (Option.mem_toList.mp (List.mem_of_getElem? hm))) hQ

theorem ensureOpen (h : Splits P Q g) {new : ℕ → ρ} (hnew : ∀ n, Q (new n)) :
    Splits P Q (g.ensureOpen new) := by
  cases hcur : g.current with
  | some r =>
      rw [ensureOpen_of_current hcur]
      exact h
  | none =>
      rw [ensureOpen_of_none hcur]
      refine ⟨h.closed, ?_⟩
      rintro r ⟨⟩
      exact hnew _

theorem update (h : Splits P Q g) {f : ρ → ρ} {R : ρ → Prop} (hf : ∀ r, Q r → R (f r)) :
    Splits P R (g.update f) where
  closed := h.closed
  current r hr := by
    obtain ⟨q, hq, rfl⟩ := Option.map_eq_some_iff.mp hr
    exact hf q (h.current q hq)

/-- Closing is allowed once the current record satisfies what closed ones do. -/
theorem close {R : ρ → Prop} (h : Splits P P g) : Splits P R g.close where
  closed r hr := by
    simp only [Generations.close, records, List.mem_append, Option.mem_toList] at hr
    rcases hr with hr | hr
    · exact h.closed r hr
    · exact h.current r hr
  current r hr := by cases hr

theorem map (h : Splits P Q g) {f : ρ → ρ} (hP : ∀ r, P r → P (f r))
    (hQ : ∀ r, Q r → Q (f r)) : Splits P Q (g.map f) where
  closed r hr := by
    obtain ⟨q, hq, rfl⟩ := List.mem_map.mp hr
    exact hP q (h.closed q hq)
  current r hr := by
    obtain ⟨q, hq, rfl⟩ := Option.map_eq_some_iff.mp hr
    exact hQ q (h.current q hq)

end Splits

end Generations
