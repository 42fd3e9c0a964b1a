import Mathlib

/-!
# Reading a history entry by entry

`lookback f ops` goes through a history from its beginning and collects what `f` says about
each entry in view of the entries before it. One more entry adds what `f` says about it.
-/

universe u v

section Lookback

variable {α : Type u} {β : Type v} (f : List α → α → Option β)

/-- What `f` says about the entries of `ops`, which come after `before`. -/
def lookbackFrom (before : List α) : List α → List β
  | [] => []
  | op :: rest => (f before op).toList ++ lookbackFrom (before ++ [op]) rest

def lookback (ops : List α) : List β := lookbackFrom f [] ops

@[simp] theorem lookback_nil : lookback f [] = [] := rfl

theorem lookbackFrom_concat (before ops : List α) (op : α) :
    lookbackFrom f before (ops ++ [op]) =
      lookbackFrom f before ops ++ (f (before ++ ops) op).toList := by
  induction ops generalizing before with
  | nil => simp [lookbackFrom]
  | cons op' ops ih =>
      rw [List.cons_append, lookbackFrom, ih, lookbackFrom]
      simp

theorem lookback_concat (ops : List α) (op : α) :
    lookback f (ops ++ [op]) = lookback f ops ++ (f ops op).toList := by
  rw [lookback, lookbackFrom_concat, List.nil_append]
  rfl

/-- Every entry of the result is said about an entry of the history. -/
theorem mem_lookback {ops : List α} {x : β} :
    x ∈ lookback f ops ↔ ∃ before op after, ops = before ++ op :: after ∧ f before op = some x := by
  induction ops using List.reverseRecOn with
  | nil => simp
  | append_singleton ops last ih =>
      rw [lookback_concat, List.mem_append, ih, Option.mem_toList]
      constructor
      · rintro (⟨before, op, after, rfl, hop⟩ | hlast)
        · exact ⟨before, op, after ++ [last], by simp, hop⟩
        · exact ⟨ops, last, [], by simp, hlast⟩
      · rintro ⟨before, op, after, hsplit, hop⟩
        rcases after.eq_nil_or_concat with rfl | ⟨after, last', rfl⟩
        · obtain ⟨rfl, hlast⟩ := List.append_inj' hsplit rfl
          rw [(List.cons.inj hlast).1]
          exact Or.inr hop
        · rw [List.concat_eq_append, ← List.cons_append, ← List.append_assoc] at hsplit
          obtain ⟨rfl, -⟩ := List.append_inj' hsplit rfl
          exact Or.inl ⟨before, op, after, rfl, hop⟩

end Lookback
