import Mathlib

/-!
# Computations that keep their state when they stop

An `Effect` reads and changes a state and either returns a value or stops with an error;
the state it had reached is kept in both cases. A triple says what a computation makes of
every state that satisfies its precondition, with one postcondition for each way to end.
The rules follow the structure of the computation.
-/

universe u

def Effect (σ ε α : Type u) := σ → Except ε α × σ

namespace Effect

variable {σ ε α β : Type u}

instance : Monad (Effect σ ε) where
  pure a := fun s => (.ok a, s)
  bind m f := fun s =>
    match m s with
    | (.ok a, s') => f a s'
    | (.error e, s') => (.error e, s')

def throw (e : ε) : Effect σ ε α := fun s => (.error e, s)

def get : Effect σ ε σ := fun s => (.ok s, s)

def modify (f : σ → σ) : Effect σ ε PUnit := fun s => (.ok ⟨⟩, f s)

/-- Go on with the handler where the computation stopped. -/
def handle (m : Effect σ ε α) (handler : ε → Effect σ ε α) : Effect σ ε α := fun s =>
  match m s with
  | (.ok a, s') => (.ok a, s')
  | (.error e, s') => handler e s'

/-- From a state with `P`, the computation returns with `Q` or stops with `E`. -/
def Triple (P : σ → Prop) (m : Effect σ ε α) (Q : α → σ → Prop) (E : ε → σ → Prop) : Prop :=
  ∀ s, P s → match m s with
    | (.ok a, s') => Q a s'
    | (.error e, s') => E e s'

/-- The computation keeps `I`, however it ends. -/
def Keeps (I : σ → Prop) (m : Effect σ ε α) : Prop :=
  Triple I m (fun _ => I) (fun _ => I)

variable {P P' : σ → Prop} {Q Q' : α → σ → Prop} {E E' : ε → σ → Prop} {R : β → σ → Prop}
  {m : Effect σ ε α} {f : α → Effect σ ε β} {I : σ → Prop}

theorem bind_ok {s s' : σ} {a : α} (h : m s = (.ok a, s')) : (m >>= f) s = f a s' := by
  change (match m s with
    | (.ok a, s') => f a s'
    | (.error e, s') => (.error e, s')) = _
  rw [h]

theorem bind_error {s s' : σ} {e : ε} (h : m s = (.error e, s')) :
    (m >>= f) s = (.error e, s') := by
  change (match m s with
    | (.ok a, s') => f a s'
    | (.error e, s') => (.error e, s')) = _
  rw [h]

instance : LawfulMonad (Effect σ ε) := by
  refine LawfulMonad.mk' (Effect σ ε) ?_ (fun _ _ => rfl) ?_
  · intro α m
    funext s
    change (m >>= fun a => pure a) s = m s
    cases hm : m s with
    | mk r s' =>
        cases r with
        | ok a => exact bind_ok hm
        | error e => exact bind_error hm
  · intro α β γ m f g
    funext s
    cases hm : m s with
    | mk r s₁ =>
        cases r with
        | ok a =>
            have hleft : (m >>= f >>= g) s = (f a >>= g) s₁ := by
              cases hf : f a s₁ with
              | mk r' s₂ =>
                  have hmf : (m >>= f) s = (r', s₂) := (bind_ok hm).trans hf
                  cases r' with
                  | ok b => rw [bind_ok hmf, bind_ok hf]
                  | error e => rw [bind_error hmf, bind_error hf]
            rw [hleft, bind_ok hm]
        | error e => rw [bind_error (bind_error hm), bind_error hm]

theorem pure_inj {a b : α} (s : σ) (h : (pure a : Effect σ ε α) = pure b) : a = b := by
  cases congrFun h s
  rfl

/-- A computation that returned has returned from both of its parts. -/
theorem of_bind_ok {s s' : σ} {b : β} (h : (m >>= f) s = (.ok b, s')) :
    ∃ a s₁, m s = (.ok a, s₁) ∧ f a s₁ = (.ok b, s') := by
  cases hm : m s with
  | mk r s₁ =>
      cases r with
      | ok a =>
          rw [bind_ok hm] at h
          exact ⟨a, s₁, rfl, h⟩
      | error e =>
          rw [bind_error hm] at h
          cases h

namespace Triple

theorem apply_ok (h : Triple P m Q E) {s s' : σ} {a : α} (hs : P s) (hm : m s = (.ok a, s')) :
    Q a s' := by
  have hpost := h s hs
  rwa [hm] at hpost

theorem apply_error (h : Triple P m Q E) {s s' : σ} {e : ε} (hs : P s)
    (hm : m s = (.error e, s')) : E e s' := by
  have hpost := h s hs
  rwa [hm] at hpost

/-- A computation that cannot stop returns. -/
theorem exists_ok (h : Triple P m Q fun _ _ => False) {s : σ} (hs : P s) :
    ∃ a s', m s = (.ok a, s') ∧ Q a s' := by
  have hpost := h s hs
  cases hm : m s with
  | mk r s' =>
      rw [hm] at hpost
      cases r with
      | ok a => exact ⟨a, s', rfl, hpost⟩
      | error e => exact hpost.elim

theorem trivial : Triple P m (fun _ _ => True) (fun _ _ => True) := by
  intro s _
  cases m s with
  | mk r s' => cases r <;> exact True.intro

theorem pure {a : α} (h : ∀ s, P s → Q a s) : Triple P (pure a : Effect σ ε α) Q E :=
  fun s hs => h s hs

theorem throw {e : ε} (h : ∀ s, P s → E e s) : Triple P (Effect.throw e : Effect σ ε α) Q E :=
  fun s hs => h s hs

theorem bind {S : α → σ → Prop} (hm : Triple P m S E) (hf : ∀ a, Triple (S a) (f a) R E) :
    Triple P (m >>= f) R E := by
  intro s hs
  have hpost := hm s hs
  cases hrun : m s with
  | mk r s' =>
      rw [hrun] at hpost
      cases r with
      | ok a =>
          rw [bind_ok hrun]
          exact hf a s' hpost
      | error e =>
          rw [bind_error hrun]
          exact hpost

theorem pure_bind {a : α} (h : Triple P (f a) R E) : Triple P (Pure.pure a >>= f) R E := h

theorem handle {handler : ε → Effect σ ε α} {S : ε → σ → Prop} (hm : Triple P m Q S)
    (hh : ∀ e, Triple (S e) (handler e) Q E) : Triple P (m.handle handler) Q E := by
  intro s hs
  have hpost := hm s hs
  unfold Effect.handle
  cases hrun : m s with
  | mk r s' =>
      rw [hrun] at hpost
      cases r with
      | ok a => exact hpost
      | error e => exact hh e s' hpost

theorem conseq (h : Triple P m Q E) (hP : ∀ s, P' s → P s) (hQ : ∀ a s, Q a s → Q' a s)
    (hE : ∀ e s, E e s → E' e s) : Triple P' m Q' E' := by
  intro s hs
  have hpost := h s (hP s hs)
  cases hrun : m s with
  | mk r s' =>
      rw [hrun] at hpost
      cases r with
      | ok a => exact hQ a s' hpost
      | error e => exact hE e s' hpost

theorem ite {c : Prop} [Decidable c] {m' : Effect σ ε α} (hpos : c → Triple P m Q E)
    (hneg : ¬ c → Triple P m' Q E) : Triple P (if c then m else m') Q E := by
  split
  · next hc => exact hpos hc
  · next hc => exact hneg hc

theorem and (h : Triple P m Q E) (h' : Triple P' m Q' E') :
    Triple (fun s => P s ∧ P' s) m (fun a s => Q a s ∧ Q' a s) (fun e s => E e s ∧ E' e s) := by
  intro s hs
  have hpost := h s hs.1
  have hpost' := h' s hs.2
  cases hrun : m s with
  | mk r s' =>
      rw [hrun] at hpost hpost'
      cases r with
      | ok a => exact ⟨hpost, hpost'⟩
      | error e => exact ⟨hpost, hpost'⟩

/-- What holds of the end, however it comes, holds of the state in which the computation ends. -/
theorem final (h : Triple P m (fun _ => I) (fun _ => I)) {s : σ} (hs : P s) : I (m s).2 := by
  have hpost := h s hs
  cases hrun : m s with
  | mk r s' =>
      rw [hrun] at hpost
      cases r with
      | ok a => exact hpost
      | error e => exact hpost

/-- A precondition that does not mention the state may be assumed. -/
theorem of_pre {c : Prop} (h : c → Triple P m Q E) : Triple (fun s => P s ∧ c) m Q E :=
  fun s hs => h hs.2 s hs.1

end Triple

namespace Keeps

theorem pure (a : α) : Keeps I (Pure.pure a : Effect σ ε α) :=
  Triple.pure fun _ h => h

theorem throw (e : ε) : Keeps I (Effect.throw e : Effect σ ε α) :=
  Triple.throw fun _ h => h

theorem bind (hm : Keeps I m) (hf : ∀ a, Keeps I (f a)) : Keeps I (m >>= f) :=
  Triple.bind hm hf

theorem handle {handler : ε → Effect σ ε α} (hm : Keeps I m) (hh : ∀ e, Keeps I (handler e)) :
    Keeps I (m.handle handler) :=
  Triple.handle hm hh

theorem get : Keeps I (Effect.get : Effect σ ε σ) := fun _ hs => hs

/-- The state in which the computation ends satisfies what it keeps. -/
theorem final (h : Keeps I m) {s : σ} (hs : I s) : I (m s).2 :=
  Triple.final h hs

end Keeps

/-- The computation does not stop with this error. -/
def Avoids (e : ε) (m : Effect σ ε α) : Prop :=
  Triple (fun _ => True) m (fun _ _ => True) (fun e' _ => e' ≠ e)

namespace Avoids

variable {e : ε}

theorem pure (a : α) : Avoids e (Pure.pure a : Effect σ ε α) :=
  Triple.pure fun _ _ => True.intro

theorem throw {e' : ε} (h : e' ≠ e) : Avoids e (Effect.throw e' : Effect σ ε α) :=
  Triple.throw fun _ _ => h

theorem bind (hm : Avoids e m) (hf : ∀ a, Avoids e (f a)) : Avoids e (m >>= f) :=
  Triple.bind hm hf

theorem handle {handler : ε → Effect σ ε α} (hh : ∀ e', Avoids e (handler e')) :
    Avoids e (m.handle handler) :=
  Triple.handle (S := fun _ _ => True) Triple.trivial hh

end Avoids

end Effect
