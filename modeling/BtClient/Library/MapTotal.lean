import Mathlib

/-!
# Totals over the values of an ordered map

`total f m` adds `f v` over all the values `v` of the map `m`, which is what a
loop over the map computes with an accumulator. A write at one key changes the
total by the difference of the two values at that key, so counters that are
kept next to a map can be compared with it one write at a time. `tally` is the
total of an indicator: the number of values with a property.
-/

namespace MapTotal

universe u v

variable {κ : Type u} {α : Type v} {cmp : κ → κ → Ordering}
  [Std.TransCmp cmp] [Std.LawfulEqCmp cmp] {M : Type*} [AddCommMonoid M]

/-- The sum of `f` over the values of the map. -/
def total (f : α → M) (m : Std.ExtTreeMap κ α cmp) : M :=
  (m.toList.map fun e => f e.2).sum

/-- The number of values with the property `p`. -/
def tally (p : α → Bool) (m : Std.ExtTreeMap κ α cmp) : ℕ :=
  total (fun v => if p v then 1 else 0) m

theorem nodup_toList (m : Std.ExtTreeMap κ α cmp) : m.toList.Nodup := by
  have hdistinct := m.distinct_keys_toList
  apply hdistinct.imp
  intro a b hab heq
  exact hab (by rw [heq, Std.LawfulEqCmp.compare_eq_iff_eq])

/-- Writing at `k` puts one entry in front of the map without `k`, up to the
order of the entries. -/
theorem toList_insert_perm (m : Std.ExtTreeMap κ α cmp) (k : κ) (v : α) :
    (m.insert k v).toList.Perm ((k, v) :: (m.erase k).toList) := by
  have hfresh : (k, v) ∉ (m.erase k).toList := by
    rw [Std.ExtTreeMap.mem_toList_iff_getElem?_eq_some]
    simp
  rw [List.perm_ext_iff_of_nodup (nodup_toList _)
    (List.nodup_cons.mpr ⟨hfresh, nodup_toList _⟩)]
  rintro ⟨a, b⟩
  rw [List.mem_cons, Std.ExtTreeMap.mem_toList_iff_getElem?_eq_some,
    Std.ExtTreeMap.mem_toList_iff_getElem?_eq_some,
    Std.ExtTreeMap.getElem?_insert, Std.ExtTreeMap.getElem?_erase]
  by_cases hka : k = a
  · subst hka
    simp only [Std.ReflCmp.compare_self, if_true]
    constructor
    · intro h
      exact Or.inl (by rw [Option.some.inj h])
    · rintro (h | h)
      · cases h
        rfl
      · cases h
  · have hak : a ≠ k := fun h => hka h.symm
    simp [Std.LawfulEqCmp.compare_eq_iff_eq, hka, hak]

theorem insert_eq_self (m : Std.ExtTreeMap κ α cmp) {k : κ} {u : α}
    (h : m[k]? = some u) : m.insert k u = m := by
  apply Std.ExtTreeMap.ext_getElem?
  intro a
  rw [Std.ExtTreeMap.getElem?_insert]
  by_cases hka : k = a
  · subst hka
    simp [h]
  · simp [Std.LawfulEqCmp.compare_eq_iff_eq, hka]

theorem insertIfNew_eq_insert (m : Std.ExtTreeMap κ α cmp) {k : κ} (u : α)
    (h : m[k]? = none) : m.insertIfNew k u = m.insert k u := by
  have hfresh : k ∉ m := by
    rw [Std.ExtTreeMap.mem_iff_isSome_getElem?, h]
    simp
  apply Std.ExtTreeMap.ext_getElem?
  intro a
  rw [Std.ExtTreeMap.getElem?_insertIfNew, Std.ExtTreeMap.getElem?_insert]
  simp only [hfresh, not_false_eq_true, and_true]

theorem insert_insert (m : Std.ExtTreeMap κ α cmp) (k : κ) (u v : α) :
    (m.insert k u).insert k v = m.insert k v := by
  apply Std.ExtTreeMap.ext_getElem?
  intro a
  rw [Std.ExtTreeMap.getElem?_insert, Std.ExtTreeMap.getElem?_insert,
    Std.ExtTreeMap.getElem?_insert]
  split <;> rfl

theorem erase_eq_self (m : Std.ExtTreeMap κ α cmp) {k : κ}
    (h : m[k]? = none) : m.erase k = m := by
  apply Std.ExtTreeMap.ext_getElem?
  intro a
  rw [Std.ExtTreeMap.getElem?_erase]
  by_cases hka : k = a
  · subst hka
    simp [h]
  · simp [Std.LawfulEqCmp.compare_eq_iff_eq, hka]

omit [Std.LawfulEqCmp cmp] in
@[simp] theorem total_empty (f : α → M) :
    total f (∅ : Std.ExtTreeMap κ α cmp) = 0 := by
  have hnil : (∅ : Std.ExtTreeMap κ α cmp).toList = [] :=
    Std.ExtTreeMap.toList_eq_nil_iff.mpr rfl
  rw [total, hnil]
  rfl

theorem total_insert (f : α → M) (m : Std.ExtTreeMap κ α cmp) (k : κ) (v : α) :
    total f (m.insert k v) = f v + total f (m.erase k) := by
  have hperm := (toList_insert_perm m k v).map fun e => f e.2
  simpa [total] using hperm.sum_eq

/-- A new key adds its own value to the total. -/
theorem total_insert_of_notMem (f : α → M) (m : Std.ExtTreeMap κ α cmp) {k : κ}
    (v : α) (h : m[k]? = none) :
    total f (m.insert k v) = f v + total f m := by
  rw [total_insert, erase_eq_self m h]

/-- Overwriting a key exchanges the old value for the new one. -/
theorem total_insert_of_getElem? (f : α → M) (m : Std.ExtTreeMap κ α cmp) {k : κ}
    {u : α} (v : α) (h : m[k]? = some u) :
    f u + total f (m.insert k v) = f v + total f m := by
  have hold : total f m = f u + total f (m.erase k) := by
    rw [← total_insert, insert_eq_self m h]
  rw [total_insert, hold]
  exact add_left_comm _ _ _

/-- The tally is the length of any list of the keys in question. -/
theorem tally_eq_length (p : α → Bool) (m : Std.ExtTreeMap κ α cmp) {l : List κ}
    (hnodup : l.Nodup) (hmem : ∀ k, k ∈ l ↔ ∃ v, m[k]? = some v ∧ p v = true) :
    tally p m = l.length := by
  have hcount : tally p m = ((m.toList.filter fun e => p e.2).map Prod.fst).length := by
    simp only [tally, total, List.length_map]
    induction m.toList with
    | nil => rfl
    | cons e rest ih =>
        by_cases hp : p e.2 = true
        · simp [hp, ih, Nat.add_comm]
        · simp [hp, ih]
  have hkeys : ((m.toList.filter fun e => p e.2).map Prod.fst).Nodup := by
    have hdistinct : m.toList.Pairwise fun a b => a.1 ≠ b.1 := by
      apply m.distinct_keys_toList.imp
      intro a b hab heq
      exact hab (Std.LawfulEqCmp.compare_eq_iff_eq.mpr heq)
    rw [List.Nodup, List.pairwise_map]
    exact hdistinct.filter _
  rw [hcount]
  apply List.Perm.length_eq
  rw [List.perm_ext_iff_of_nodup hkeys hnodup]
  intro k
  rw [hmem, List.mem_map]
  constructor
  · rintro ⟨⟨k', v⟩, hv, rfl⟩
    obtain ⟨hin, hp⟩ := List.mem_filter.mp hv
    exact ⟨v, Std.ExtTreeMap.mem_toList_iff_getElem?_eq_some.mp hin, hp⟩
  · rintro ⟨v, hv, hp⟩
    exact ⟨(k, v), List.mem_filter.mpr
      ⟨Std.ExtTreeMap.mem_toList_iff_getElem?_eq_some.mpr hv, hp⟩, rfl⟩

/-- The total as a sum over the keys. -/
theorem total_eq_sum (f : α → M) (m : Std.ExtTreeMap κ α cmp) {keys : Finset κ}
    (hkeys : ∀ k, k ∈ keys ↔ k ∈ m) : total f m = ∑ k ∈ keys, (m[k]?.map f).getD 0 := by
  have hnodup : (m.toList.map Prod.fst).Nodup := by
    rw [List.Nodup, List.pairwise_map]
    apply m.distinct_keys_toList.imp
    intro a b hab heq
    exact hab (Std.LawfulEqCmp.compare_eq_iff_eq.mpr heq)
  have hperm : keys.toList.Perm (m.toList.map Prod.fst) := by
    rw [List.perm_ext_iff_of_nodup keys.nodup_toList hnodup]
    intro k
    rw [Finset.mem_toList, hkeys, Std.ExtTreeMap.mem_iff_isSome_getElem?, List.mem_map]
    constructor
    · intro hk
      obtain ⟨v, hv⟩ := Option.isSome_iff_exists.mp hk
      exact ⟨(k, v), Std.ExtTreeMap.mem_toList_iff_getElem?_eq_some.mpr hv, rfl⟩
    · rintro ⟨⟨k', v⟩, hv, rfl⟩
      rw [Std.ExtTreeMap.mem_toList_iff_getElem?_eq_some.mp hv]
      rfl
  have hvalues : m.toList.map (fun e => f e.2) =
      (m.toList.map Prod.fst).map fun k => (m[k]?.map f).getD 0 := by
    rw [List.map_map]
    apply List.map_congr_left
    rintro ⟨k, v⟩ hv
    have hget := Std.ExtTreeMap.mem_toList_iff_getElem?_eq_some.mp hv
    simp [hget]
  rw [total, hvalues, ← (hperm.map _).sum_eq, Finset.sum_map_toList]

theorem toList_map_perm {β : Type v} (m : Std.ExtTreeMap κ α cmp) (g : κ → α → β) :
    (m.map g).toList.Perm (m.toList.map fun e => (e.1, g e.1 e.2)) := by
  have hinj : ∀ a ∈ m.toList, ∀ b ∈ m.toList,
      (a.1, g a.1 a.2) = (b.1, g b.1 b.2) → a = b := by
    rintro ⟨a, x⟩ ha ⟨b, y⟩ hb h
    rw [Std.ExtTreeMap.mem_toList_iff_getElem?_eq_some] at ha hb
    simp only [Prod.mk.injEq] at h
    obtain ⟨rfl, -⟩ := h
    rw [ha] at hb
    rw [Option.some.inj hb]
  rw [List.perm_ext_iff_of_nodup (nodup_toList _)
    (List.Nodup.map_on (fun a ha b hb h => hinj a ha b hb h) (nodup_toList _))]
  rintro ⟨a, b⟩
  rw [Std.ExtTreeMap.mem_toList_iff_getElem?_eq_some, List.mem_map,
    Std.ExtTreeMap.getElem?_map]
  constructor
  · intro h
    obtain ⟨x, hx, hxb⟩ := Option.map_eq_some_iff.mp h
    exact ⟨(a, x), (Std.ExtTreeMap.mem_toList_iff_getElem?_eq_some).mpr hx, by rw [hxb]⟩
  · rintro ⟨⟨a', x⟩, hx, heq⟩
    rw [Std.ExtTreeMap.mem_toList_iff_getElem?_eq_some] at hx
    simp only [Prod.mk.injEq] at heq
    obtain ⟨rfl, rfl⟩ := heq
    simp [hx]

/-- A pass over all the values changes the total only through `f`. -/
theorem total_map {β : Type v} (f : β → M) (m : Std.ExtTreeMap κ α cmp) (g : κ → α → β) :
    total f (m.map g) = (m.toList.map fun e => f (g e.1 e.2)).sum := by
  have hperm := (toList_map_perm m g).map fun e => f e.2
  rw [total, hperm.sum_eq, List.map_map]
  rfl

theorem total_map_of_eq (f : α → M) (m : Std.ExtTreeMap κ α cmp) (g : κ → α → α)
    (h : ∀ k v, f (g k v) = f v) : total f (m.map g) = total f m := by
  rw [total_map, total]
  congr 1
  apply List.map_congr_left
  intro e _
  exact h e.1 e.2

end MapTotal
