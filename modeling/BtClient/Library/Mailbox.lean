import Mathlib

/-!
# A consumer with a mailbox

Messages are posted at the end of a queue and handled from its front whenever the
consumer drains it. The settled state is the one the consumer will be in once it
has handled everything that is queued: posting handles a message in the settled
state, and draining does not change it. A write that bypasses the queue acts on the
settled state like a message that was posted last, provided it commutes with
everything that is still queued.
-/

universe u v w

/-- The state of a consumer and the messages it has not handled yet, oldest first. -/
structure Mailbox (σ : Type u) (α : Type v) where
  state : σ
  queue : List α

namespace Mailbox

variable {σ : Type u} {α : Type v} (handle : σ → α → σ)

def post (a : α) (m : Mailbox σ α) : Mailbox σ α :=
  { m with queue := m.queue ++ [a] }

/-- Handle everything that is queued. -/
def drain (m : Mailbox σ α) : Mailbox σ α where
  state := m.queue.foldl handle m.state
  queue := []

/-- A write to the state that does not go through the queue. -/
def bypass (write : σ → σ) (m : Mailbox σ α) : Mailbox σ α :=
  { m with state := write m.state }

/-- The state after everything that is queued. -/
def settled (m : Mailbox σ α) : σ :=
  m.queue.foldl handle m.state

@[simp] theorem settled_post (a : α) (m : Mailbox σ α) :
    (m.post a).settled handle = handle (m.settled handle) a := by
  simp [settled, post]

@[simp] theorem settled_drain (m : Mailbox σ α) :
    (m.drain handle).settled handle = m.settled handle := rfl

theorem settled_of_empty {m : Mailbox σ α} (h : m.queue = []) :
    m.settled handle = m.state := by
  simp [settled, h]

/-- A view of the consumer that follows the messages on its own. -/
theorem view_settled {τ : Type w} (view : σ → τ) (handle' : τ → α → τ)
    (h : ∀ s a, view (handle s a) = handle' (view s) a) (m : Mailbox σ α) :
    view (m.settled handle) = (Mailbox.mk (view m.state) m.queue).settled handle' := by
  obtain ⟨s, queue⟩ := m
  simp only [settled]
  induction queue generalizing s with
  | nil => rfl
  | cons a rest ih => rw [List.foldl_cons, List.foldl_cons, ih, h]

end Mailbox
