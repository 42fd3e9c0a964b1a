import Mathlib

/-!
# A value that is guessed until an authority says it

A value starts unknown or with a guess. A guess is taken only while the value is unknown;
what the authority says always replaces it. So while the authority is silent the value is the
first known one among the guesses, and a value that is known stays whatever is guessed.
-/

universe u

/-- What may be heard about a value. -/
inductive News (V : Type u) where
  | guess (v : V)
  | authority (v : V)

namespace News

variable {V : Type u} [DecidableEq V] (unknown : V)

def isAuthority : News V → Bool
  | guess _ => false
  | authority _ => true

def value : News V → V
  | guess v => v
  | authority v => v

/-- The value after the news. -/
def hear (current : V) : News V → V
  | guess v => if current = unknown then v else current
  | authority v => v

/-- The value after all the news, oldest first. -/
def settle (current : V) (news : List (News V)) : V := news.foldl (hear unknown) current

/-- The first known value of a list. -/
def firstKnown (values : List V) : V := (values.find? fun v => decide (v ≠ unknown)).getD unknown

/-- While the authority is silent, the first known guess counts. -/
theorem settle_of_guesses (current : V) {news : List (News V)}
    (h : ∀ n ∈ news, n.isAuthority = false) :
    settle unknown current news = firstKnown unknown (current :: news.map value) := by
  induction news generalizing current with
  | nil =>
      by_cases hcurrent : current = unknown
      · simp [settle, firstKnown, hcurrent]
      · simp [settle, firstKnown, hcurrent]
  | cons n news ih =>
      have hrest := ih (hear unknown current n) fun m hm => h m (List.mem_cons_of_mem n hm)
      cases n with
      | authority v => cases h _ List.mem_cons_self
      | guess v =>
          rw [settle, List.foldl_cons, ← settle, hrest]
          by_cases hcurrent : current = unknown
          · simp [firstKnown, hear, hcurrent, value]
          · simp [firstKnown, hear, hcurrent]

theorem firstKnown_cons_of_ne {v : V} (hv : v ≠ unknown) (values : List V) :
    firstKnown unknown (v :: values) = v := by
  simp [firstKnown, hv]

/-- A known value is not changed by guesses. -/
theorem settle_of_known {current : V} (hcurrent : current ≠ unknown) {news : List (News V)}
    (h : ∀ n ∈ news, n.isAuthority = false) : settle unknown current news = current := by
  rw [settle_of_guesses unknown current h, firstKnown_cons_of_ne unknown hcurrent]

end News
