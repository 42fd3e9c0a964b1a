import Mathlib

/-!
# First in, first out

Arrivals and services of many keys are mixed in one trace, which is divided into epochs by
the events that clear everything. A service takes the oldest arrival of its key that is
still waiting in its epoch. `IsFifo` says what this means for the positions in the trace;
`matching` computes it with one queue for each key.
-/

universe u v

/-- The events of a trace, oldest first. -/
inductive QueueEvent (κ : Type u) (τ : Type v) where
  | arrive (k : κ) (t : τ)
  | serve (k : κ) (t : τ)
  | clear
  | other

/-- A service and the arrival that it takes, each with its position and its time. -/
structure Service (τ : Type v) where
  arrival : ℕ
  arrivedAt : τ
  service : ℕ
  servedAt : τ
  deriving DecidableEq

namespace QueueEvent

variable {κ : Type u} {τ : Type v}

def time? : QueueEvent κ τ → Option τ
  | .arrive _ t | .serve _ t => some t
  | _ => none

/-- Nothing was cleared between the two positions. -/
def SameEpoch (events : List (QueueEvent κ τ)) (r u : ℕ) : Prop :=
  ∀ j, r < j → j < u → events[j]? ≠ some .clear

/-- The services take the arrivals first in, first out. -/
structure IsFifo (events : List (QueueEvent κ τ)) (services : List (Service τ)) : Prop where
  /-- A service takes an earlier arrival of its key and its epoch. -/
  matched : ∀ m ∈ services, ∃ k, events[m.arrival]? = some (.arrive k m.arrivedAt) ∧
    events[m.service]? = some (.serve k m.servedAt) ∧ m.arrival < m.service ∧
      SameEpoch events m.arrival m.service
  /-- No service takes two arrivals. -/
  ordered : services.Pairwise fun m m' => m.service < m'.service
  /-- No arrival is taken twice. -/
  once : services.Pairwise fun m m' => m.arrival ≠ m'.arrival
  /-- When there is an arrival that a service may take, it has been taken before, or the
  service takes one that is not later. -/
  first : ∀ u r k t t', events[u]? = some (.serve k t') → events[r]? = some (.arrive k t) →
    r < u → SameEpoch events r u →
      (∃ m ∈ services, m.arrival = r ∧ m.service < u) ∨
        ∃ m ∈ services, m.service = u ∧ m.arrival ≤ r

/-- The queue of each key, and what has been served. -/
structure Queues (κ : Type u) (τ : Type v) where
  waiting : κ → List (ℕ × τ)
  services : List (Service τ)

namespace Queues

variable [DecidableEq κ]

def empty : Queues κ τ where
  waiting _ := []
  services := []

/-- The event at position `n`. -/
def step (n : ℕ) (s : Queues κ τ) : QueueEvent κ τ → Queues κ τ
  | .arrive k t => { s with waiting := Function.update s.waiting k (s.waiting k ++ [(n, t)]) }
  | .serve k t =>
      match s.waiting k with
      | [] => s
      | (r, start) :: rest =>
          ⟨Function.update s.waiting k rest, s.services ++ [⟨r, start, n, t⟩]⟩
  | .clear => { s with waiting := fun _ => [] }
  | .other => s

/-- The queues after a trace, newest event first. -/
def ofReverse : List (QueueEvent κ τ) → Queues κ τ
  | [] => empty
  | e :: older => (ofReverse older).step older.length e

end Queues

variable [DecidableEq κ]

def queues (events : List (QueueEvent κ τ)) : Queues κ τ := Queues.ofReverse events.reverse

/-- The services of a trace that took an arrival. -/
def matching (events : List (QueueEvent κ τ)) : List (Service τ) := (queues events).services

theorem queues_append (events : List (QueueEvent κ τ)) (e : QueueEvent κ τ) :
    queues (events ++ [e]) = (queues events).step events.length e := by
  rw [queues, List.reverse_append]
  change (Queues.ofReverse events.reverse).step events.reverse.length e = _
  rw [List.length_reverse]
  rfl

omit [DecidableEq κ] in
theorem sameEpoch_append {events : List (QueueEvent κ τ)} {e : QueueEvent κ τ} {r u : ℕ}
    (hu : u ≤ events.length) : SameEpoch (events ++ [e]) r u ↔ SameEpoch events r u := by
  constructor
  · intro h j hrj hju
    have hne := h j hrj hju
    rwa [List.getElem?_append_left (by omega)] at hne
  · intro h j hrj hju
    rw [List.getElem?_append_left (by omega)]
    exact h j hrj hju

omit [DecidableEq κ] in
theorem sameEpoch_append_self {events : List (QueueEvent κ τ)} {e : QueueEvent κ τ} {r : ℕ}
    (hr : r < events.length) :
    SameEpoch (events ++ [e]) r (events ++ [e]).length ↔
      SameEpoch events r events.length ∧ e ≠ .clear := by
  constructor
  · intro h
    constructor
    · intro j hrj hj
      have hne := h j hrj (by simp; omega)
      rwa [List.getElem?_append_left hj] at hne
    · have hne := h events.length hr (by simp)
      rw [List.getElem?_concat_length] at hne
      exact fun heq => hne (congrArg some heq)
  · rintro ⟨h, he⟩ j hrj hj
    rw [List.length_append, List.length_singleton] at hj
    rcases Nat.lt_or_eq_of_le (Nat.le_of_lt_succ hj) with hlt | rfl
    · rw [List.getElem?_append_left hlt]
      exact h j hrj hlt
    · rw [List.getElem?_concat_length]
      exact fun heq => he (Option.some.inj heq)

omit [DecidableEq κ] in
theorem getElem?_append_of_some {events : List (QueueEvent κ τ)} {e e' : QueueEvent κ τ} {r : ℕ}
    (h : events[r]? = some e') : (events ++ [e])[r]? = some e' := by
  obtain ⟨hr, -⟩ := List.getElem?_eq_some_iff.mp h
  rw [List.getElem?_append_left hr, h]

omit [DecidableEq κ] in
/-- An event of the longer trace is an old one or the new one. -/
theorem getElem?_append_cases {events : List (QueueEvent κ τ)} {e e' : QueueEvent κ τ} {r : ℕ}
    (h : (events ++ [e])[r]? = some e') :
    (r < events.length ∧ events[r]? = some e') ∨ (r = events.length ∧ e' = e) := by
  obtain ⟨hr, -⟩ := List.getElem?_eq_some_iff.mp h
  rw [List.length_append, List.length_singleton] at hr
  rcases Nat.lt_or_eq_of_le (Nat.le_of_lt_succ hr) with hlt | rfl
  · rw [List.getElem?_append_left hlt] at h
    exact Or.inl ⟨hlt, h⟩
  · rw [List.getElem?_concat_length] at h
    exact Or.inr ⟨rfl, (Option.some.inj h).symm⟩

/-- The queues hold the arrivals that can still be taken, oldest first. -/
structure Sound (events : List (QueueEvent κ τ)) (s : Queues κ τ) : Prop where
  fifo : IsFifo events s.services
  waiting : ∀ k r t, (r, t) ∈ s.waiting k ↔ events[r]? = some (.arrive k t) ∧
    SameEpoch events r events.length ∧ ∀ m ∈ s.services, m.arrival ≠ r
  sorted : ∀ k, (s.waiting k).Pairwise fun a b => a.1 < b.1

namespace IsFifo

variable {events : List (QueueEvent κ τ)} {services : List (Service τ)}

omit [DecidableEq κ] in
theorem lt_length (h : IsFifo events services) {m : Service τ} (hm : m ∈ services) :
    m.arrival < m.service ∧ m.service < events.length := by
  obtain ⟨k, -, hserve, hlt, -⟩ := h.matched m hm
  exact ⟨hlt, (List.getElem?_eq_some_iff.mp hserve).1⟩

omit [DecidableEq κ] in
/-- An event that is no service, or that finds nothing to take. -/
theorem append (h : IsFifo events services) {e : QueueEvent κ τ}
    (he : ∀ k t r start, e = .serve k t → events[r]? = some (.arrive k start) →
      SameEpoch events r events.length → ∃ m ∈ services, m.arrival = r) :
    IsFifo (events ++ [e]) services := by
  refine ⟨?_, h.ordered, h.once, ?_⟩
  · intro m hm
    obtain ⟨k, harrive, hserve, hlt, hepoch⟩ := h.matched m hm
    exact ⟨k, getElem?_append_of_some harrive, getElem?_append_of_some hserve, hlt,
      (sameEpoch_append (h.lt_length hm).2.le).mpr hepoch⟩
  · intro u r k t t' hserve harrive hlt hepoch
    rcases getElem?_append_cases hserve with ⟨hu, hserve⟩ | ⟨rfl, hlast⟩
    · rw [List.getElem?_append_left (hlt.trans hu)] at harrive
      exact h.first u r k t t' hserve harrive hlt ((sameEpoch_append hu.le).mp hepoch)
    · rw [List.getElem?_append_left hlt] at harrive
      obtain ⟨m, hm, hr⟩ := he k t' r t hlast.symm harrive
        ((sameEpoch_append (le_refl _)).mp hepoch)
      exact Or.inl ⟨m, hm, hr, (h.lt_length hm).2⟩

omit [DecidableEq κ] in
/-- In a trace whose times do not decrease, no service is earlier than its arrival. -/
theorem le (h : IsFifo events services) [LE τ]
    (hsorted : (events.filterMap time?).Pairwise (· ≤ ·)) {m : Service τ} (hm : m ∈ services) :
    m.arrivedAt ≤ m.servedAt := by
  obtain ⟨k, harrive, hserve, hlt, -⟩ := h.matched m hm
  obtain ⟨hr, harrive⟩ := List.getElem?_eq_some_iff.mp harrive
  obtain ⟨hu, hserve⟩ := List.getElem?_eq_some_iff.mp hserve
  have hpair := List.pairwise_iff_getElem.mp (List.pairwise_filterMap.mp hsorted) _ _ hr hu hlt
  rw [harrive, hserve] at hpair
  exact hpair _ rfl _ rfl

end IsFifo

namespace Sound

variable {events : List (QueueEvent κ τ)} {s : Queues κ τ}

omit [DecidableEq κ] in
theorem empty : Sound ([] : List (QueueEvent κ τ)) Queues.empty where
  fifo := ⟨by simp [Queues.empty], List.Pairwise.nil, List.Pairwise.nil, by simp⟩
  waiting := by simp [Queues.empty]
  sorted := by simp [Queues.empty]

omit [DecidableEq κ] in
/-- What waits after an event that takes nothing. -/
theorem mem_waiting_append (h : Sound events s) {e : QueueEvent κ τ} (he : e ≠ .clear)
    (k : κ) (r : ℕ) (t : τ) :
    ((events ++ [e])[r]? = some (.arrive k t) ∧
      SameEpoch (events ++ [e]) r (events ++ [e]).length ∧ ∀ m ∈ s.services, m.arrival ≠ r) ↔
      (r, t) ∈ s.waiting k ∨ (r = events.length ∧ e = .arrive k t) := by
  constructor
  · rintro ⟨harrive, hepoch, hfree⟩
    rcases getElem?_append_cases harrive with ⟨hr, harrive⟩ | ⟨rfl, heq⟩
    · exact Or.inl ((h.waiting k r t).mpr
        ⟨harrive, ((sameEpoch_append_self hr).mp hepoch).1, hfree⟩)
    · exact Or.inr ⟨rfl, heq.symm⟩
  · rintro (hmem | ⟨rfl, rfl⟩)
    · obtain ⟨harrive, hepoch, hfree⟩ := (h.waiting k r t).mp hmem
      have hr := (List.getElem?_eq_some_iff.mp harrive).1
      exact ⟨getElem?_append_of_some harrive, (sameEpoch_append_self hr).mpr ⟨hepoch, he⟩, hfree⟩
    · refine ⟨List.getElem?_concat_length, ?_, ?_⟩
      · intro j hj hj'
        rw [List.length_append, List.length_singleton] at hj'
        omega
      · intro m hm heq
        have hlt := h.fifo.lt_length hm
        omega

theorem step_arrive (h : Sound events s) (k : κ) (t : τ) :
    Sound (events ++ [.arrive k t]) (s.step events.length (.arrive k t)) := by
  refine ⟨h.fifo.append fun _ _ _ _ heq => (by cases heq), ?_, ?_⟩
  · intro k' r t'
    refine Iff.trans ?_ (h.mem_waiting_append (by simp) k' r t').symm
    simp only [Queues.step]
    by_cases hk : k' = k
    · subst hk
      rw [Function.update_self, List.mem_append, List.mem_singleton, Prod.mk.injEq]
      simp [eq_comm]
    · rw [Function.update_of_ne hk]
      simp [Ne.symm hk]
  · intro k'
    simp only [Queues.step]
    by_cases hk : k' = k
    · subst hk
      rw [Function.update_self, List.pairwise_append]
      refine ⟨h.sorted k', List.pairwise_singleton _ _, ?_⟩
      intro a ha b hb
      rw [List.mem_singleton.mp hb]
      exact (List.getElem?_eq_some_iff.mp ((h.waiting k' a.1 a.2).mp ha).1).1
    · rw [Function.update_of_ne hk]
      exact h.sorted k'

theorem step_clear (h : Sound events s) : Sound (events ++ [.clear]) (s.step events.length .clear) := by
  refine ⟨h.fifo.append fun _ _ _ _ heq => (by cases heq), ?_, ?_⟩
  · intro k r t
    simp only [Queues.step, List.not_mem_nil, false_iff]
    rintro ⟨harrive, hepoch, -⟩
    rcases getElem?_append_cases harrive with ⟨hr, -⟩ | ⟨-, heq⟩
    · exact ((sameEpoch_append_self hr).mp hepoch).2 rfl
    · cases heq
  · intro k
    exact List.Pairwise.nil

theorem step_other (h : Sound events s) : Sound (events ++ [.other]) (s.step events.length .other) := by
  refine ⟨h.fifo.append fun _ _ _ _ heq => (by cases heq), ?_, h.sorted⟩
  intro k r t
  refine Iff.trans ?_ (h.mem_waiting_append (by simp) k r t).symm
  simp [Queues.step]

/-- A service that finds nothing waiting. -/
theorem step_serve_none (h : Sound events s) {k : κ} (t : τ) (hk : s.waiting k = []) :
    Sound (events ++ [.serve k t]) (s.step events.length (.serve k t)) := by
  have hstep : s.step events.length (.serve k t) = s := by
    rw [Queues.step, hk]
  rw [hstep]
  refine ⟨h.fifo.append ?_, ?_, h.sorted⟩
  · intro k' t' r start heq harrive hepoch
    cases heq
    by_contra hfree
    have hmem : (r, start) ∈ s.waiting k := (h.waiting k r start).mpr
      ⟨harrive, hepoch, fun m hm hr => hfree ⟨m, hm, hr⟩⟩
    rw [hk] at hmem
    cases hmem
  · intro k' r t'
    rw [h.mem_waiting_append (by simp) k' r t']
    simp

/-- A service takes the oldest arrival that waits. -/
theorem step_serve_some (h : Sound events s) {k : κ} (t : τ) {r₀ : ℕ} {start : τ}
    {rest : List (ℕ × τ)} (hk : s.waiting k = (r₀, start) :: rest) :
    Sound (events ++ [.serve k t]) (s.step events.length (.serve k t)) := by
  have hstep : s.step events.length (.serve k t) =
      ⟨Function.update s.waiting k rest, s.services ++ [⟨r₀, start, events.length, t⟩]⟩ := by
    rw [Queues.step, hk]
  obtain ⟨harrive₀, hepoch₀, hfree₀⟩ := (h.waiting k r₀ start).mp (hk ▸ List.mem_cons_self)
  have hr₀ := (List.getElem?_eq_some_iff.mp harrive₀).1
  have hsorted := h.sorted k
  rw [hk, List.pairwise_cons] at hsorted
  rw [hstep]
  refine ⟨⟨?_, ?_, ?_, ?_⟩, ?_, ?_⟩
  · intro m hm
    rcases List.mem_append.mp hm with hm | hm
    · obtain ⟨k', harrive, hserve, hlt, hepoch⟩ := h.fifo.matched m hm
      exact ⟨k', getElem?_append_of_some harrive, getElem?_append_of_some hserve, hlt,
        (sameEpoch_append (h.fifo.lt_length hm).2.le).mpr hepoch⟩
    · rw [List.mem_singleton.mp hm]
      exact ⟨k, getElem?_append_of_some harrive₀, List.getElem?_concat_length, hr₀,
        (sameEpoch_append (le_refl _)).mpr hepoch₀⟩
  · rw [List.pairwise_append]
    refine ⟨h.fifo.ordered, List.pairwise_singleton _ _, ?_⟩
    intro m hm m' hm'
    rw [List.mem_singleton.mp hm']
    exact (h.fifo.lt_length hm).2
  · rw [List.pairwise_append]
    refine ⟨h.fifo.once, List.pairwise_singleton _ _, ?_⟩
    intro m hm m' hm'
    rw [List.mem_singleton.mp hm']
    exact hfree₀ m hm
  · intro u r k' start' t' hserve harrive hlt hepoch
    rcases getElem?_append_cases hserve with ⟨hu, hserve⟩ | ⟨rfl, heq⟩
    · rw [List.getElem?_append_left (hlt.trans hu)] at harrive
      rcases h.fifo.first u r k' start' t' hserve harrive hlt
        ((sameEpoch_append hu.le).mp hepoch) with ⟨m, hm, hr⟩ | ⟨m, hm, hr⟩
      · exact Or.inl ⟨m, List.mem_append_left _ hm, hr⟩
      · exact Or.inr ⟨m, List.mem_append_left _ hm, hr⟩
    · cases heq
      rw [List.getElem?_append_left hlt] at harrive
      by_cases hfree : ∀ m ∈ s.services, m.arrival ≠ r
      · -- the arrival still waits, so it is not older than the first one
        have hmem := (h.waiting k r start').mpr
          ⟨harrive, (sameEpoch_append (le_refl _)).mp hepoch, hfree⟩
        rw [hk] at hmem
        refine Or.inr ⟨_, List.mem_append_right _ (List.mem_singleton_self _), rfl, ?_⟩
        rcases List.mem_cons.mp hmem with heq | hmem
        · cases heq
          exact le_refl _
        · exact (hsorted.1 _ hmem).le
      · simp only [not_forall, not_not] at hfree
        obtain ⟨m, hm, hr⟩ := hfree
        exact Or.inl ⟨m, List.mem_append_left _ hm, hr, (h.fifo.lt_length hm).2⟩
  · intro k' r t'
    have happend := h.mem_waiting_append (e := .serve k t) (by simp) k' r t'
    have hnew : ¬ (r = events.length ∧ QueueEvent.serve k t = .arrive k' t') := fun hand => by
      cases hand.2
    rw [or_iff_left hnew] at happend
    have hservices : (∀ m ∈ s.services ++ [⟨r₀, start, events.length, t⟩], m.arrival ≠ r) ↔
        (∀ m ∈ s.services, m.arrival ≠ r) ∧ r₀ ≠ r := by
      rw [List.forall_mem_append, List.forall_mem_singleton]
    have hwaits : (r, t') ∈ s.waiting k' ∧ r₀ ≠ r ↔
        (events ++ [serve k t])[r]? = some (.arrive k' t') ∧
          SameEpoch (events ++ [serve k t]) r (events ++ [serve k t]).length ∧
            ∀ m ∈ s.services ++ [⟨r₀, start, events.length, t⟩], m.arrival ≠ r := by
      rw [hservices, ← happend, and_assoc, and_assoc]
    refine Iff.trans ?_ hwaits
    dsimp only
    by_cases hkk : k' = k
    · subst hkk
      rw [Function.update_self, hk, List.mem_cons, Prod.mk.injEq]
      constructor
      · intro hmem
        exact ⟨Or.inr hmem, (hsorted.1 _ hmem).ne⟩
      · rintro ⟨⟨rfl, -⟩ | hmem, hne⟩
        · exact absurd rfl hne
        · exact hmem
    · rw [Function.update_of_ne hkk]
      constructor
      · intro hmem
        refine ⟨hmem, ?_⟩
        rintro rfl
        -- one position holds one event
        have harrive := ((h.waiting k' r₀ t').mp hmem).1
        rw [harrive₀] at harrive
        cases harrive
        exact hkk rfl
      · exact fun hand => hand.1
  · intro k'
    dsimp only
    by_cases hkk : k' = k
    · subst hkk
      rw [Function.update_self]
      exact hsorted.2
    · rw [Function.update_of_ne hkk]
      exact h.sorted k'

theorem step (h : Sound events s) (e : QueueEvent κ τ) :
    Sound (events ++ [e]) (s.step events.length e) := by
  cases e with
  | arrive k t => exact h.step_arrive k t
  | serve k t =>
      cases hk : s.waiting k with
      | nil => exact h.step_serve_none t hk
      | cons head rest => exact h.step_serve_some t hk
  | clear => exact h.step_clear
  | other => exact h.step_other

/-- The queues of a trace are sound, and so its matching is first in, first out. -/
theorem queues (events : List (QueueEvent κ τ)) : Sound events (QueueEvent.queues events) := by
  induction events using List.reverseRecOn with
  | nil => exact empty
  | append_singleton events e ih =>
      rw [queues_append]
      exact ih.step e

omit [DecidableEq κ] in
/-- In a trace whose times do not decrease, what waits has arrived before the end. -/
theorem le_of_mem_waiting [LE τ] (h : Sound events s) {e : QueueEvent κ τ} {t : τ}
    (hsorted : ((events ++ [e]).filterMap time?).Pairwise (· ≤ ·)) (ht : e.time? = some t)
    {k : κ} {r : ℕ} {start : τ} (hmem : (r, start) ∈ s.waiting k) : start ≤ t := by
  have harrive := ((h.waiting k r start).mp hmem).1
  rw [List.filterMap_append, List.pairwise_append] at hsorted
  exact hsorted.2.2 start (List.mem_filterMap.mpr ⟨_, List.mem_of_getElem? harrive, rfl⟩) t
    (by simp [ht])

end Sound

end QueueEvent
