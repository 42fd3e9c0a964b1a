import BtClient.Library.MaximalRuns

/-!
# Events that keep a distance

A sequence whose neighbours are at least `d` apart has an extent of at least `d` for each
pair of neighbours, so not many of its elements fit into a given span.
-/

universe u

namespace MaximalRuns

variable {M : Type u} [AddCommGroup M] [PartialOrder M] [IsOrderedAddMonoid M]

theorem forall_adjacent_of_isChain {d : M} {times : List M}
    (h : times.IsChain fun a b => a + d ≤ b) : ∀ x ∈ adjacent (fun a b => b - a) times, d ≤ x := by
  induction times with
  | nil => simp
  | cons a times ih =>
      cases times with
      | nil => simp
      | cons b times =>
          obtain ⟨hab, hrest⟩ := List.isChain_cons_cons.mp h
          rw [adjacent_cons_cons, List.forall_mem_cons]
          exact ⟨le_sub_iff_add_le'.mpr hab, ih hrest⟩

/-- One distance for each pair of neighbours. -/
theorem nsmul_le_extent {d : M} {times : List M} (h : times.IsChain fun a b => a + d ≤ b)
    (e : M) : (times.length - 1) • d ≤ extent id e times := by
  have hsum := List.card_nsmul_le_sum (adjacent (fun a b => b - a) times) d
    (forall_adjacent_of_isChain h)
  rw [length_adjacent] at hsum
  exact hsum.trans (sum_adjacent_sub id e times).le

/-- The elements of a sequence that lies between two bounds. -/
theorem nsmul_le_of_isChain {d lower upper : M} {times : List M}
    (h : times.IsChain fun a b => a + d ≤ b) (hlower : ∀ t ∈ times.head?, lower ≤ t)
    (hupper : ∀ t ∈ times.getLast?, t ≤ upper) (hle : lower ≤ upper) :
    (times.length - 1) • d ≤ upper - lower := by
  cases times with
  | nil => simpa using hle
  | cons first rest =>
      have hhead : lower ≤ first := hlower first (by simp)
      have hlast : (first :: rest).getLastD lower ≤ upper := by
        rw [List.getLastD_eq_getLast?, List.getLast?_cons, Option.getD_some]
        exact hupper _ (by rw [List.getLast?_cons]; rfl)
      exact (nsmul_le_extent h lower).trans (sub_le_sub hlast hhead)

end MaximalRuns
