import BtClient.Library.Generations

/-!
# Lifetimes that are followed with a delay

An observer keeps one record for each lifetime of a subject. It learns of the openings
and closings of lifetimes from a queue of events, and it also takes readings of the
current lifetime, which it writes to whichever record it believes to be current. A
reading is filed under the lifetime it was taken from if no closing is queued, or if it
cannot be told from a record that has just been opened; any other reading ends up in the
record of an earlier lifetime.
-/

universe u

inductive LifeEvent where
  | opened
  | closed
  deriving DecidableEq

namespace LifeEvent

/-- Every closing finds an open lifetime; the flag tells whether one is open at first. -/
def Orderly : Bool → List LifeEvent → Prop
  | _, [] => True
  | _, .opened :: rest => Orderly true rest
  | isOpen, .closed :: rest => isOpen = true ∧ Orderly false rest

theorem Orderly.append_opened {isOpen : Bool} {events : List LifeEvent}
    (h : Orderly isOpen events) : Orderly isOpen (events ++ [.opened]) := by
  induction events generalizing isOpen with
  | nil => exact trivial
  | cons event rest ih =>
      cases event with
      | opened => exact ih h
      | closed => exact ⟨h.1, ih h.2⟩

/-- An observer that has opened a record early does not miss it later. -/
theorem Orderly.early {isOpen : Bool} {events : List LifeEvent}
    (h : Orderly isOpen events) : Orderly true events := by
  cases events with
  | nil => trivial
  | cons event rest =>
      cases event with
      | opened => exact h
      | closed => exact ⟨rfl, h.2⟩

end LifeEvent

namespace Generations

variable {ρ : Type u} (z : ρ)

/-- What an event does to the records; `z` is a record that has just been opened. -/
def follow (g : Generations ρ) : LifeEvent → Generations ρ
  | .opened => g.ensureOpen fun _ => z
  | .closed => (g.ensureOpen fun _ => z).close

def followAll (g : Generations ρ) (events : List LifeEvent) : Generations ρ :=
  events.foldl (follow z) g

/-- A reading of the current lifetime. -/
def read (r : ρ) (g : Generations ρ) : Generations ρ :=
  (g.ensureOpen fun _ => z).update fun _ => r

/-- The reading `r` of the current lifetime is filed under it once the events have been
followed. -/
def Harmless (r : ρ) (g : Generations ρ) (events : List LifeEvent) : Prop :=
  .closed ∉ events ∨ (r = z ∧ ∀ c, g.current = some c → c = z)

variable {z} {r : ρ} {g : Generations ρ} {events : List LifeEvent}

theorem read_of_current {c : ρ} (h : g.current = some c) :
    g.read z r = ⟨g.closed, some r⟩ := by
  rw [read, ensureOpen_of_current h, update, h]
  rfl

theorem read_of_none (h : g.current = none) : g.read z r = ⟨g.closed, some r⟩ := by
  rw [read, ensureOpen_of_none h]
  rfl

theorem read_eq (g : Generations ρ) (r : ρ) : g.read z r = ⟨g.closed, some r⟩ := by
  cases h : g.current with
  | none => exact read_of_none h
  | some c => exact read_of_current h

theorem isSome_current_follow (g : Generations ρ) (event : LifeEvent) :
    (g.follow z event).current.isSome = decide (event = .opened) := by
  cases event with
  | opened => simp [follow]
  | closed => simp [follow]

theorem followAll_cons (g : Generations ρ) (event : LifeEvent) (rest : List LifeEvent) :
    g.followAll z (event :: rest) = (g.follow z event).followAll z rest := rfl

theorem followAll_append (g : Generations ρ) (events : List LifeEvent) (event : LifeEvent) :
    g.followAll z (events ++ [event]) = (g.followAll z events).follow z event := by
  simp [followAll]

/-- Whether a record is current depends on the events more than on the records. -/
theorem isSome_current_followAll {g' : Generations ρ}
    (h : g.current.isSome → g'.current.isSome)
    (hopen : (g.followAll z events).current.isSome) :
    (g'.followAll z events).current.isSome := by
  induction events generalizing g g' with
  | nil => exact h hopen
  | cons event rest ih =>
      apply ih (g := g.follow z event) _ hopen
      rw [isSome_current_follow, isSome_current_follow]
      exact id

/-- A closing may be added if the records will then be open. -/
theorem orderly_append_closed (h : LifeEvent.Orderly g.current.isSome events)
    (hopen : (g.followAll z events).current.isSome) :
    LifeEvent.Orderly g.current.isSome (events ++ [.closed]) := by
  induction events generalizing g with
  | nil => exact ⟨hopen, trivial⟩
  | cons event rest ih =>
      have hrest := ih (g := g.follow z event)
      rw [isSome_current_follow] at hrest
      cases event with
      | opened => exact hrest h hopen
      | closed => exact ⟨h.1, hrest h.2 hopen⟩

/-- A closed record stays where it is. -/
theorem exists_closed_followAll (g : Generations ρ) (events : List LifeEvent) :
    ∃ l, (g.followAll z events).closed = g.closed ++ l := by
  induction events generalizing g with
  | nil => exact ⟨[], (List.append_nil _).symm⟩
  | cons event rest ih =>
      obtain ⟨l, hl⟩ := ih (g.follow z event)
      have hfollow : ∃ l', (g.follow z event).closed = g.closed ++ l' := by
        cases hcur : g.current with
        | none => cases event <;> simp [follow, ensureOpen_of_none hcur, close, records]
        | some c =>
            cases event <;> simp [follow, ensureOpen_of_current hcur, close, records]
      obtain ⟨l', hl'⟩ := hfollow
      exact ⟨l' ++ l, by rw [followAll_cons, hl, hl', List.append_assoc]⟩

/-- The current record is closed with the value it has. -/
theorem exists_closed_of_current {c : ρ} (hcur : g.current = some c)
    (hclosed : LifeEvent.closed ∈ events) :
    ∃ l, (g.followAll z events).closed = g.closed ++ c :: l := by
  induction events with
  | nil => cases hclosed
  | cons event rest ih =>
      rw [followAll_cons]
      cases event with
      | opened =>
          rw [follow, ensureOpen_of_current hcur]
          rcases List.mem_cons.mp hclosed with hclosed | hclosed
          · cases hclosed
          · exact ih hclosed
      | closed =>
          obtain ⟨l, hl⟩ := exists_closed_followAll (z := z) (g.follow z .closed) rest
          refine ⟨l, ?_⟩
          rw [hl, follow, ensureOpen_of_current hcur]
          simp [close, records, hcur]

/-- After a closing, the current record is one that has just been opened. -/
theorem current_of_closed (hclosed : LifeEvent.closed ∈ events) {c : ρ}
    (hcur : (g.followAll z events).current = some c) : c = z := by
  have hfresh : ∀ (events : List LifeEvent) (g : Generations ρ),
      (∀ c, g.current = some c → c = z) →
        ∀ c, (g.followAll z events).current = some c → c = z := by
    intro events
    induction events with
    | nil => exact fun g hg => hg
    | cons event rest ih =>
        intro g hg
        apply ih (g.follow z event)
        intro c hc
        cases event with
        | closed => cases hc
        | opened =>
            cases hcur : g.current with
            | none =>
                rw [follow, ensureOpen_of_none hcur] at hc
                exact (Option.some.inj hc).symm
            | some c' =>
                rw [follow, ensureOpen_of_current hcur] at hc
                exact hg c hc
  induction events generalizing g with
  | nil => cases hclosed
  | cons event rest ih =>
      rw [followAll_cons] at hcur
      cases event with
      | opened =>
          rcases List.mem_cons.mp hclosed with hclosed | hclosed
          · cases hclosed
          · exact ih hclosed hcur
      | closed => exact hfresh rest _ (fun c hc => by cases hc) c hcur

/-- A reading commutes with openings: the record it opens is the one that the opening
announces. -/
theorem followAll_read_of_opened (hopened : LifeEvent.closed ∉ events) (r : ρ) :
    (g.read z r).followAll z events = (g.followAll z events).read z r := by
  induction events generalizing g with
  | nil => rfl
  | cons event rest ih =>
      cases event with
      | closed => exact absurd List.mem_cons_self hopened
      | opened =>
          have hrest : LifeEvent.closed ∉ rest := fun h =>
            hopened (List.mem_cons_of_mem _ h)
          have hcomm : (g.read z r).follow z .opened = (g.follow z .opened).read z r := by
            have hread : (g.read z r).current = some r := by rw [read_eq]
            rw [follow, ensureOpen_of_current hread, read_eq, read_eq]
            cases hcur : g.current with
            | none => rw [follow, ensureOpen_of_none hcur]
            | some c => rw [follow, ensureOpen_of_current hcur]
          rw [followAll_cons, followAll_cons, hcomm, ih hrest]

/-- A harmless reading is filed under the lifetime that is current once the events have
been followed. -/
theorem followAll_read (horderly : LifeEvent.Orderly g.current.isSome events)
    (hopen : (g.followAll z events).current.isSome) (h : g.Harmless z r events) :
    (g.read z r).followAll z events = (g.followAll z events).read z r := by
  by_cases hclosed : LifeEvent.closed ∈ events
  · obtain ⟨rfl, hfresh⟩ := h.resolve_left (not_not.mpr hclosed)
    -- neither side shows the reading: the records are the same as without it
    have hright : (g.followAll r events).read r r = g.followAll r events := by
      obtain ⟨c, hc⟩ := Option.isSome_iff_exists.mp hopen
      have hcr : c = r := current_of_closed hclosed hc
      have hsame : some r = (g.followAll r events).current := by rw [hc, hcr]
      rw [read_eq, hsame]
    rw [hright]
    cases hcur : g.current with
    | some c =>
        have hread : g.read r r = g := by
          rw [read_eq, ← hfresh c hcur, ← hcur]
        rw [hread]
    | none =>
        cases events with
        | nil => cases hclosed
        | cons event rest =>
            cases event with
            | closed =>
                rw [hcur] at horderly
                cases horderly.1
            | opened =>
                have hread : (g.read r r).follow r .opened = g.follow r .opened := by
                  rw [follow, follow, ensureOpen_of_none hcur, read_eq]
                  rfl
                rw [followAll_cons, followAll_cons, hread]
  · exact followAll_read_of_opened hclosed r

/-- Any other reading is misfiled. -/
theorem followAll_read_ne (h : ¬ g.Harmless z r events) :
    (g.read z r).followAll z events ≠ (g.followAll z events).read z r := by
  obtain ⟨hclosed, hvalue⟩ := not_or.mp h
  rw [not_not] at hclosed
  intro heq
  have hread : (g.read z r).current = some r := by rw [read_eq]
  have hr : r = z := by
    apply current_of_closed (g := g.read z r) hclosed
    rw [heq, read_eq]
  subst hr
  obtain ⟨c, hcur, hc⟩ : ∃ c, g.current = some c ∧ c ≠ r := by
    simpa using hvalue
  obtain ⟨l, hl⟩ := exists_closed_of_current (z := r) hread hclosed
  obtain ⟨l', hl'⟩ := exists_closed_of_current (z := r) hcur hclosed
  have hrecords := congrArg Generations.closed heq
  rw [hl, read_eq, read_eq, hl'] at hrecords
  have htail := List.append_cancel_left hrecords
  exact hc (List.cons.inj htail).1.symm

end Generations
