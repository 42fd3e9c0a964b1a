import Mathlib

/-!
# Numbered text

A text followed by a separator and a decimal number. The number is written
without the separator, so the separator in front of it is the last one of the
whole text and the two parts can be read back from the right end, whatever
characters the text on the left contains.
-/

namespace NumberedText

/-- Two lists that end in a separator and a separator-free part agree only when
both parts agree. -/
theorem append_separator_inj {α : Type*} (sep : α) :
    ∀ (a a' b b' : List α), sep ∉ b → sep ∉ b' →
      a ++ sep :: b = a' ++ sep :: b' → a = a' ∧ b = b'
  | [], [], b, b', _, _, h => by
      have htail : b = b' := by simpa using h
      exact ⟨rfl, htail⟩
  | [], c :: a', b, b', hb, _, h => by
      have htail : b = a' ++ sep :: b' := by
        have h' := h
        simp only [List.nil_append, List.cons_append, List.cons.injEq] at h'
        exact h'.2
      exact absurd (by rw [htail]; simp) hb
  | c :: a, [], b, b', _, hb', h => by
      have htail : a ++ sep :: b = b' := by
        have h' := h
        simp only [List.nil_append, List.cons_append, List.cons.injEq] at h'
        exact h'.2
      exact absurd (by rw [← htail]; simp) hb'
  | c :: a, c' :: a', b, b', hb, hb', h => by
      simp only [List.cons_append, List.cons.injEq] at h
      obtain ⟨ha, hbb⟩ := append_separator_inj sep a a' b b' hb hb' h.2
      exact ⟨by rw [h.1, ha], hbb⟩

/-- A character that is no digit does not occur in a decimal number. -/
theorem notMem_toList_toString {c : Char} (hc : c.isDigit = false) (n : ℕ) :
    c ∉ (toString n).toList := by
  intro hmem
  rw [Nat.toString_eq_repr, Nat.toList_repr] at hmem
  have hdigit := Nat.isDigit_of_mem_toDigits (by decide) (by decide) hmem
  rw [hc] at hdigit
  cases hdigit

theorem toString_nat_injective : Function.Injective (fun n : ℕ => toString n) := by
  intro m n h
  have hdigits : Nat.toDigits 10 m = Nat.toDigits 10 n := by
    simpa [Nat.toString_eq_repr, Nat.toList_repr] using congrArg String.toList h
  have hvalue := congrArg (fun digits => Nat.ofDigitChars 10 digits 0) hdigits
  simpa using hvalue

/-- The text `e`, the separator and the decimal number `n`. -/
def numbered (sep e : String) (n : ℕ) : String :=
  e ++ sep ++ toString n

/-- With a separator that is a single character and no digit, the text and the
number are determined by the numbered text. -/
theorem numbered_inj (sep : String) {c : Char} (hsep : sep.toList = [c])
    (hc : c.isDigit = false) {e e' : String} {n n' : ℕ} :
    numbered sep e n = numbered sep e' n' ↔ e = e' ∧ n = n' := by
  constructor
  · intro h
    have hlist := congrArg String.toList h
    simp only [numbered, String.toList_append, hsep, List.append_assoc,
      List.singleton_append] at hlist
    obtain ⟨he, hn⟩ := append_separator_inj c _ _ _ _
      (notMem_toList_toString hc n) (notMem_toList_toString hc n') hlist
    exact ⟨String.toList_inj.mp he,
      toString_nat_injective (String.toList_inj.mp hn)⟩
  · rintro ⟨rfl, rfl⟩
    rfl

end NumberedText
