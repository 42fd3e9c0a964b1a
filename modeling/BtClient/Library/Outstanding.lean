import Mathlib

/-!
# Keys that wait for an answer

A key is requested and answered; a later request takes the place of an earlier one, a
cancelled key is forgotten, and now and then all keys are. Which keys are outstanding, and
since when, is said by looking back over the whole trace of events. Adding one event
changes this in the way a map would be changed.
-/

universe u v

/-- The events of a trace, oldest first. -/
inductive KeyEvent (κ : Type u) (τ : Type v) where
  | request (k : κ) (t : τ)
  | answer (k : κ) (t : τ)
  | cancel (k : κ)
  | clear
  | other

namespace KeyEvent

variable {κ : Type u} {τ : Type v}

/-- The event ends the wait of the key or starts it anew. -/
def Touches (k : κ) : KeyEvent κ τ → Prop
  | .request k' _ | .answer k' _ | .cancel k' => k' = k
  | .clear => True
  | .other => False

def time? : KeyEvent κ τ → Option τ
  | .request _ t | .answer _ t => some t
  | _ => none

/-- The key was requested at `t`, and nothing has happened to it since. -/
def OpenSince (trace : List (KeyEvent κ τ)) (k : κ) (t : τ) : Prop :=
  ∃ before after, trace = before ++ .request k t :: after ∧ ∀ e ∈ after, ¬ e.Touches k

theorem not_openSince_nil {k : κ} {t : τ} : ¬ OpenSince [] k t := by
  rintro ⟨before, after, h, -⟩
  simp at h

/-- One more event: it is the request itself, or it leaves the key alone. -/
theorem openSince_append {trace : List (KeyEvent κ τ)} {e : KeyEvent κ τ} {k : κ} {t : τ} :
    OpenSince (trace ++ [e]) k t ↔ e = .request k t ∨ (¬ e.Touches k ∧ OpenSince trace k t) := by
  constructor
  · rintro ⟨before, after, h, hafter⟩
    rcases List.eq_nil_or_concat after with rfl | ⟨after, e', rfl⟩
    · obtain ⟨-, he⟩ := List.append_inj' h rfl
      exact Or.inl (List.cons.inj he).1
    · rw [List.concat_eq_append] at h hafter
      have hsplit : trace ++ [e] = (before ++ .request k t :: after) ++ [e'] := by
        rw [h]
        simp
      obtain ⟨rfl, he⟩ := List.append_inj' hsplit rfl
      obtain ⟨rfl, -⟩ := List.cons.inj he
      exact Or.inr ⟨hafter e (by simp), before, after, rfl, fun e' he' => hafter e' (by simp [he'])⟩
  · rintro (rfl | ⟨he, before, after, rfl, hafter⟩)
    · exact ⟨trace, [], rfl, by simp⟩
    · refine ⟨before, after ++ [e], by simp, ?_⟩
      intro e' he'
      rcases List.mem_append.mp he' with he' | he'
      · exact hafter e' he'
      · rw [List.mem_singleton.mp he']
        exact he

/-- A key is outstanding since one time only. -/
theorem OpenSince.unique {trace : List (KeyEvent κ τ)} {k : κ} {t t' : τ}
    (h : OpenSince trace k t) (h' : OpenSince trace k t') : t = t' := by
  induction trace using List.reverseRecOn with
  | nil => exact absurd h not_openSince_nil
  | append_singleton trace e ih =>
      rcases openSince_append.mp h with rfl | ⟨he, h⟩
      · rcases openSince_append.mp h' with heq | ⟨he', -⟩
        · cases heq
          rfl
        · exact absurd rfl he'
      · rcases openSince_append.mp h' with rfl | ⟨-, h'⟩
        · exact absurd rfl he
        · exact ih h h'

/-- The request that an outstanding key waits for is in the trace. -/
theorem OpenSince.mem {trace : List (KeyEvent κ τ)} {k : κ} {t : τ} (h : OpenSince trace k t) :
    .request k t ∈ trace := by
  obtain ⟨before, after, rfl, -⟩ := h
  simp

variable [DecidableEq κ]

/-- Look back for the request of the key, from the newest event on. -/
def lookBack (k : κ) : List (KeyEvent κ τ) → Option τ
  | [] => none
  | .request k' t :: rest => if k' = k then some t else lookBack k rest
  | .answer k' _ :: rest => if k' = k then none else lookBack k rest
  | .cancel k' :: rest => if k' = k then none else lookBack k rest
  | .clear :: _ => none
  | .other :: rest => lookBack k rest

/-- The time since which the key is outstanding. -/
def openSince? (trace : List (KeyEvent κ τ)) (k : κ) : Option τ := lookBack k trace.reverse

theorem openSince?_append (trace : List (KeyEvent κ τ)) (e : KeyEvent κ τ) (k : κ) :
    openSince? (trace ++ [e]) k = lookBack k (e :: trace.reverse) := by
  rw [openSince?, List.reverse_append]
  rfl

theorem openSince?_eq_some_iff {trace : List (KeyEvent κ τ)} {k : κ} {t : τ} :
    openSince? trace k = some t ↔ OpenSince trace k t := by
  induction trace using List.reverseRecOn with
  | nil => simp [openSince?, lookBack, not_openSince_nil]
  | append_singleton trace e ih =>
      rw [openSince?_append, openSince_append, ← ih, openSince?]
      cases e with
      | request k' t' =>
          rw [lookBack]
          split
          · next heq => simp [heq, Touches]
          · next hne => simp [hne, Touches]
      | answer k' t' =>
          rw [lookBack]
          split
          · next heq => simp [heq, Touches]
          · next hne => simp [hne, Touches]
      | cancel k' =>
          rw [lookBack]
          split
          · next heq => simp [heq, Touches]
          · next hne => simp [hne, Touches]
      | clear => simp [lookBack, Touches]
      | other => simp [lookBack, Touches]

/-! ### The waits that were answered -/

/-- The wait that the event ends with an answer: its first and its last moment. -/
def wait (trace : List (KeyEvent κ τ)) : KeyEvent κ τ → List (τ × τ)
  | .answer k t => ((openSince? trace k).map fun start => (start, t)).toList
  | _ => []

def waitsAfter (before : List (KeyEvent κ τ)) : List (KeyEvent κ τ) → List (τ × τ)
  | [] => []
  | e :: rest => wait before e ++ waitsAfter (before ++ [e]) rest

/-- The answered waits of a trace, in the order of the answers. -/
def waits (trace : List (KeyEvent κ τ)) : List (τ × τ) := waitsAfter [] trace

theorem waitsAfter_append (before trace : List (KeyEvent κ τ)) (e : KeyEvent κ τ) :
    waitsAfter before (trace ++ [e]) = waitsAfter before trace ++ wait (before ++ trace) e := by
  induction trace generalizing before with
  | nil => simp [waitsAfter]
  | cons e' rest ih =>
      rw [List.cons_append, waitsAfter, waitsAfter, ih, List.append_assoc, List.append_assoc]
      rfl

theorem waits_append (trace : List (KeyEvent κ τ)) (e : KeyEvent κ τ) :
    waits (trace ++ [e]) = waits trace ++ wait trace e :=
  waitsAfter_append [] trace e

/-- In a trace whose times do not decrease, no wait ends before it starts. -/
theorem le_of_mem_waits [LE τ] {trace : List (KeyEvent κ τ)}
    (hsorted : (trace.filterMap time?).Pairwise (· ≤ ·)) {w : τ × τ} (hw : w ∈ waits trace) :
    w.1 ≤ w.2 := by
  induction trace using List.reverseRecOn with
  | nil => cases hw
  | append_singleton trace e ih =>
      rw [List.filterMap_append, List.pairwise_append] at hsorted
      rw [waits_append] at hw
      rcases List.mem_append.mp hw with hw | hw
      · exact ih hsorted.1 hw
      · cases e with
        | answer k t =>
            obtain ⟨start, hstart, rfl⟩ := Option.map_eq_some_iff.mp (Option.mem_toList.mp hw)
            have hmem := (openSince?_eq_some_iff.mp hstart).mem
            exact hsorted.2.2 start (List.mem_filterMap.mpr ⟨_, hmem, rfl⟩) t (by simp [time?])
        | _ => cases hw

end KeyEvent
