import BtClient.Library.Fifo
import BtClient.Library.MapTotal
import BtClient.RecordOps

/-!
# Which upload answers which request

Incoming requests wait in one list for each block, and an upload takes the first one. On
the trace of the operations this is the first-in first-out matching, the latencies are its
waiting times, and every request is measured, still waiting or discarded.
-/

namespace BtClient

open QueueEvent

namespace RecordOp

variable {A : Type}

/-- What the operation means for the uploads of the record. At the end of the session a
record that is still active is disconnected. -/
def queueEvent (active : Bool) : RecordOp A → QueueEvent RequestKey Int
  | .call ts (.incomingRequest request) =>
      .arrive ⟨request.piece, blockIndexFromRequest request⟩ ts.monoNs
  | .call ts (.blockUploaded pieceIndex blockIndex) =>
      .serve ⟨pieceIndex, blockIndex⟩ ts.monoNs
  | .disconnect _ => .clear
  | .reset => .clear
  | .finalize _ => if active then .clear else .other
  | _ => .other

def queueTrace (p : PeerStats) (ops : List (RecordOp A)) : List (QueueEvent RequestKey Int) :=
  eventTrace queueEvent p ops

theorem time?_queueEvent (active : Bool) (op : RecordOp A) (t : Int)
    (h : (op.queueEvent active).time? = some t) : op.time? = some t := by
  cases op with
  | call ts c =>
      cases c with
      | incomingRequest request => exact h
      | blockUploaded pieceIndex blockIndex => exact h
      | _ => cases h
  | finalize sessionEnd => cases active <;> cases h
  | _ => cases h

end RecordOp

/-- The number of requests that wait for their upload. -/
def pendingCount (pending : Std.ExtTreeMap RequestKey (List Int)) : ℕ :=
  MapTotal.total List.length pending

/-- The number of requests that an event brings. -/
def arrivals : QueueEvent RequestKey Int → ℕ
  | .arrive _ _ => 1
  | _ => 0

/-- The number of waiting requests that an event discards. -/
def discards (pending : Std.ExtTreeMap RequestKey (List Int)) :
    QueueEvent RequestKey Int → ℕ
  | .clear => pendingCount pending
  | _ => 0

/-- The requests that resets and disconnects discard. -/
def discarded {A : Type} (p : PeerStats) : List (RecordOp A) → ℕ
  | [] => 0
  | op :: ops =>
      discards p.pendingUploadRequests (op.queueEvent p.activeConnection) +
        discarded (op.apply p) ops

/-! ### The lists of the record and the queues of the trace -/

/-- The list that a map keeps for a queue: none for an empty one. -/
def listed : List (ℕ × Int) → Option (List Int)
  | [] => none
  | head :: rest => some ((head :: rest).map Prod.snd)

theorem getD_listed (q : List (ℕ × Int)) : (listed q).getD [] = q.map Prod.snd := by
  cases q <;> rfl

theorem listed_ne_some_nil (q : List (ℕ × Int)) : listed q ≠ some [] := by
  cases q <;> simp [listed]

theorem listed_append (q : List (ℕ × Int)) (a : ℕ × Int) :
    listed (q ++ [a]) = some (q.map Prod.snd ++ [a.2]) := by
  cases q <;> simp [listed]

namespace UploadState

def after (u : UploadState) : QueueEvent RequestKey Int → UploadState
  | .arrive k t => u.queue k t
  | .serve k t => u.answer k t
  | .clear => u.clear
  | .other => u

theorem answer_of_none {u : UploadState} {k : RequestKey} (t : Int)
    (hk : u.pending[k]? = none) : u.answer k t = u := by
  simp [UploadState.answer, hk]

theorem answer_of_some {u : UploadState} {k : RequestKey} {start t : Int} {rest : List Int}
    (hk : u.pending[k]? = some (start :: rest)) (hle : start ≤ t) :
    u.answer k t =
      ⟨if rest.isEmpty then u.pending.erase k else u.pending.insert k rest,
        u.latencyMsSamples ++ [nsToMs (t - start)]⟩ := by
  simp [UploadState.answer, hk, hle]

/-- The lists hold what waits, and the samples are the waiting times. -/
structure Matches (events : List (QueueEvent RequestKey Int)) (u : UploadState) : Prop where
  pending : ∀ k, u.pending[k]? = listed ((queues events).waiting k)
  latencies : u.latencyMsSamples =
    (matching events).map fun m => nsToMs (m.servedAt - m.arrivedAt)

namespace Matches

variable {events : List (QueueEvent RequestKey Int)} {u : UploadState}

theorem arrive (h : Matches events u) (k : RequestKey) (t : Int) :
    Matches (events ++ [.arrive k t]) (u.after (.arrive k t)) where
  pending k' := by
    rw [queues_append]
    simp only [after, UploadState.queue, Queues.step, Std.ExtTreeMap.getElem?_insert,
      Std.LawfulEqCmp.compare_eq_iff_eq, h.pending, getD_listed]
    by_cases hk : k = k'
    · subst hk
      rw [if_pos rfl, Function.update_self, listed_append]
    · rw [if_neg hk, Function.update_of_ne (Ne.symm hk)]
  latencies := by
    rw [matching, queues_append]
    exact h.latencies

theorem serve (h : Matches events u) (k : RequestKey) (t : Int)
    (hle : ∀ r start, (r, start) ∈ (queues events).waiting k → start ≤ t) :
    Matches (events ++ [.serve k t]) (u.after (.serve k t)) := by
  cases hk : (queues events).waiting k with
  | nil =>
      have hnone : u.pending[k]? = none := by
        rw [h.pending, hk]
        rfl
      have hqueues : queues (events ++ [.serve k t]) = queues events := by
        rw [queues_append, Queues.step, hk]
      rw [after, answer_of_none t hnone]
      refine ⟨?_, ?_⟩
      · rw [hqueues]
        exact h.pending
      · rw [matching, hqueues]
        exact h.latencies
  | cons head rest =>
      obtain ⟨r, start⟩ := head
      have hsome : u.pending[k]? = some (start :: rest.map Prod.snd) := by
        rw [h.pending, hk]
        rfl
      have hqueues : queues (events ++ [.serve k t]) =
          ⟨Function.update (queues events).waiting k rest,
            (queues events).services ++ [⟨r, start, events.length, t⟩]⟩ := by
        rw [queues_append, Queues.step, hk]
      rw [after, answer_of_some hsome (hle r start (hk ▸ List.mem_cons_self))]
      refine ⟨?_, ?_⟩
      · intro k'
        rw [hqueues]
        dsimp only
        by_cases hkk : k = k'
        · subst hkk
          rw [Function.update_self]
          cases rest with
          | nil => simp [listed]
          | cons head rest => simp [listed]
        · rw [Function.update_of_ne (Ne.symm hkk), ← h.pending k']
          split
          · rw [Std.ExtTreeMap.getElem?_erase, if_neg (by simpa using hkk)]
          · rw [Std.ExtTreeMap.getElem?_insert, if_neg (by simpa using hkk)]
      · rw [matching, hqueues]
        dsimp only
        rw [h.latencies, List.map_append]
        rfl

theorem step (h : Matches events u) (e : QueueEvent RequestKey Int)
    (hsorted : ((events ++ [e]).filterMap time?).Pairwise (· ≤ ·)) :
    Matches (events ++ [e]) (u.after e) := by
  cases e with
  | arrive k t => exact h.arrive k t
  | serve k t =>
      exact h.serve k t fun r start hmem =>
        (Sound.queues events).le_of_mem_waiting hsorted rfl hmem
  | clear =>
      refine ⟨?_, ?_⟩
      · intro k
        rw [queues_append]
        simp [after, UploadState.clear, Queues.step, listed]
      · rw [matching, queues_append]
        exact h.latencies
  | other =>
      refine ⟨?_, ?_⟩
      · rw [queues_append]
        exact h.pending
      · rw [matching, queues_append]
        exact h.latencies

end Matches

/-- Taking out one list. -/
theorem pendingCount_eq {pending : Std.ExtTreeMap RequestKey (List Int)} {k : RequestKey}
    {q : List Int} (hk : pending[k]? = some q) :
    pendingCount pending = q.length + pendingCount (pending.erase k) := by
  have htotal := MapTotal.total_insert List.length pending k q
  rwa [MapTotal.insert_eq_self pending hk] at htotal

theorem pendingCount_insert (pending : Std.ExtTreeMap RequestKey (List Int)) (k : RequestKey)
    (q : List Int) :
    pendingCount (pending.insert k q) = q.length + pendingCount (pending.erase k) :=
  MapTotal.total_insert List.length pending k q

theorem pendingCount_erase_of_none {pending : Std.ExtTreeMap RequestKey (List Int)}
    {k : RequestKey} (hk : pending[k]? = none) :
    pendingCount (pending.erase k) = pendingCount pending := by
  rw [MapTotal.erase_eq_self pending hk]

theorem pendingCount_empty : pendingCount ∅ = 0 := MapTotal.total_empty _

/-- A request enters one list. -/
theorem pendingCount_queue (u : UploadState) (k : RequestKey) (t : Int) :
    pendingCount (u.queue k t).pending = pendingCount u.pending + 1 := by
  rw [UploadState.queue, pendingCount_insert]
  cases hk : u.pending[k]? with
  | none =>
      rw [pendingCount_erase_of_none hk, Option.getD_none]
      exact Nat.add_comm _ _
  | some q =>
      rw [pendingCount_eq hk, Option.getD_some, List.length_append, List.length_singleton]
      omega

/-- An upload takes a request from its list to the samples, or finds none. -/
theorem pendingCount_answer {events : List (QueueEvent RequestKey Int)} {u : UploadState}
    (h : Matches events u) (k : RequestKey) (t : Int)
    (hle : ∀ r start, (r, start) ∈ (queues events).waiting k → start ≤ t) :
    (u.answer k t).latencyMsSamples.length + pendingCount (u.answer k t).pending =
      u.latencyMsSamples.length + pendingCount u.pending := by
  have hpending := h.pending k
  cases hk : (queues events).waiting k with
  | nil =>
      rw [hk] at hpending
      rw [answer_of_none t hpending]
  | cons head rest =>
      rw [hk] at hpending
      rw [answer_of_some hpending (hle head.1 head.2 (hk ▸ List.mem_cons_self)),
        pendingCount_eq hpending]
      cases rest with
      | nil =>
          simp
          omega
      | cons head' rest =>
          simp [pendingCount_insert]
          omega

/-- Every request is measured, waiting or discarded by the event. -/
theorem count_after {events : List (QueueEvent RequestKey Int)} {u : UploadState}
    (h : Matches events u) (e : QueueEvent RequestKey Int)
    (hsorted : ((events ++ [e]).filterMap time?).Pairwise (· ≤ ·)) :
    (u.after e).latencyMsSamples.length + pendingCount (u.after e).pending +
      discards u.pending e =
      u.latencyMsSamples.length + pendingCount u.pending + arrivals e := by
  cases e with
  | arrive k t =>
      dsimp only [after]
      rw [pendingCount_queue]
      rfl
  | serve k t =>
      exact pendingCount_answer h k t fun r start hmem =>
        (Sound.queues events).le_of_mem_waiting hsorted rfl hmem
  | clear =>
      dsimp only [after, UploadState.clear]
      rw [pendingCount_empty]
      rfl
  | other => rfl

end UploadState

/-! ### The record -/

namespace RecordOp

variable {A : Type}

theorem uploads_flow (op : RecordOp A) (f : RecordFlow) :
    (op.flow f).uploads = f.uploads.after (op.queueEvent f.active) := by
  cases op with
  | call ts c => cases c <;> rfl
  | finalize sessionEnd =>
      simp only [flow, RecordFlow.finalize, queueEvent]
      split <;> rfl
  | _ => rfl

theorem arrivals_queueEvent (op : RecordOp A) (active : Bool) :
    arrivals (op.queueEvent active) = if op.kind? = some .incomingRequest then 1 else 0 := by
  cases op with
  | call ts c => cases c <;> rfl
  | finalize sessionEnd => cases active <;> rfl
  | _ => rfl

end RecordOp

theorem discarded_append {A : Type} (p : PeerStats) (ops : List (RecordOp A))
    (op : RecordOp A) :
    discarded p (ops ++ [op]) = discarded p ops +
      discards (p.run ops).pendingUploadRequests
        (op.queueEvent (p.run ops).activeConnection) := by
  induction ops generalizing p with
  | nil => exact Nat.add_comm _ _
  | cons op' ops ih =>
      rw [List.cons_append, discarded, discarded, ih, Nat.add_assoc]
      rfl

/-- The record agrees with the trace of its operations. -/
structure UploadsTracked {A : Type} (p₀ : PeerStats) (ops : List (RecordOp A)) : Prop where
  matched : UploadState.Matches (RecordOp.queueTrace p₀ ops) (p₀.run ops).flow.uploads
  count : (p₀.run ops).requestToUploadLatencyMsSamples.length +
    pendingCount (p₀.run ops).pendingUploadRequests + discarded p₀ ops =
      (p₀.run ops).incomingRequestsReceived

theorem uploadsTracked {A : Type} (peerKey endpointKey peerIp : String) (peerPort : ℕ)
    (ts : TimestampPair) (direction transport : String) (ops : List (RecordOp A))
    (horder : RecordOp.InOrder ops) :
    UploadsTracked (PeerStats.new peerKey endpointKey peerIp peerPort ts direction transport)
      ops := by
  generalize hp : PeerStats.new peerKey endpointKey peerIp peerPort ts direction transport = p₀
  induction ops using List.reverseRecOn with
  | nil =>
      subst hp
      refine ⟨⟨?_, rfl⟩, ?_⟩
      · intro k
        exact Std.ExtTreeMap.getElem?_empty
      · change 0 + pendingCount ∅ + 0 = 0
        rw [UploadState.pendingCount_empty]
  | append_singleton ops op ih =>
      have hprior : RecordOp.InOrder ops := by
        rw [RecordOp.InOrder, List.filterMap_append] at horder
        exact (List.pairwise_append.mp horder).1
      have ih := ih hprior
      have hsorted : ((RecordOp.queueTrace p₀ (ops ++ [op])).filterMap time?).Pairwise (· ≤ ·) :=
        horder.sublist (RecordOp.filterMap_eventTrace RecordOp.time?_queueEvent p₀ (ops ++ [op]))
      rw [RecordOp.queueTrace, RecordOp.eventTrace_append] at hsorted
      have hrun : p₀.run (ops ++ [op]) = op.apply (p₀.run ops) := PeerStats.run_append p₀ ops [op]
      have hafter : (p₀.run (ops ++ [op])).flow.uploads =
          (p₀.run ops).flow.uploads.after (op.queueEvent (p₀.run ops).activeConnection) := by
        rw [hrun, op.flow_apply, op.uploads_flow]
        rfl
      refine ⟨?_, ?_⟩
      · rw [hafter, RecordOp.queueTrace, RecordOp.eventTrace_append]
        exact ih.matched.step _ hsorted
      · have hcount := UploadState.count_after ih.matched _ hsorted
        have hreceived := op.counter_apply (p₀.run ops) .incomingRequest
        rw [op.arrivals_queueEvent, ← hafter] at hcount
        rw [← hrun] at hreceived
        have hold := ih.count
        rw [discarded_append]
        simp only [PeerStats.flow] at hcount
        simp only [PeerStats.counter] at hreceived
        omega

/-- Over every sequence of operations in the order of their times, the uploads are
matched first in, first out, the latencies are the waiting times in the order of the
uploads, the lists hold what waits in the order of arrival, and every request is measured,
waiting or discarded. -/
theorem uploadMatching_run {A : Type} (peerKey endpointKey peerIp : String) (peerPort : ℕ)
    (ts : TimestampPair) (direction transport : String) (ops : List (RecordOp A))
    (horder : RecordOp.InOrder ops) :
    let p₀ := PeerStats.new peerKey endpointKey peerIp peerPort ts direction transport
    let p := p₀.run ops
    let events := RecordOp.queueTrace p₀ ops
    IsFifo events (matching events) ∧
      p.requestToUploadLatencyMsSamples =
        (matching events).map (fun m => nsToMs (m.servedAt - m.arrivedAt)) ∧
      (∀ x ∈ p.requestToUploadLatencyMsSamples, 0 ≤ x) ∧
      (∀ k : RequestKey, p.pendingUploadRequests[k]? ≠ some []) ∧
      (∀ k : RequestKey, ∃ waiting : List (ℕ × Int),
        (p.pendingUploadRequests[k]?).getD [] = waiting.map Prod.snd ∧
          waiting.Pairwise (fun a b => a.1 < b.1) ∧
            ∀ r t, (r, t) ∈ waiting ↔ events[r]? = some (.arrive k t) ∧
              SameEpoch events r events.length ∧ ∀ m ∈ matching events, m.arrival ≠ r) ∧
      p.requestToUploadLatencyMsSamples.length + pendingCount p.pendingUploadRequests +
        discarded p₀ ops = p.incomingRequestsReceived := by
  intro p₀ p events
  have htracked : UploadsTracked p₀ ops :=
    uploadsTracked peerKey endpointKey peerIp peerPort ts direction transport ops horder
  have hsound := Sound.queues events
  refine ⟨hsound.fifo, htracked.matched.latencies, ?_, ?_, ?_, htracked.count⟩
  · intro x hx
    have hsamples : p.requestToUploadLatencyMsSamples =
        (matching events).map (fun m => nsToMs (m.servedAt - m.arrivedAt)) :=
      htracked.matched.latencies
    rw [hsamples] at hx
    obtain ⟨m, hm, rfl⟩ := List.mem_map.mp hx
    have hle : m.arrivedAt ≤ m.servedAt := hsound.fifo.le (horder.sublist
      (RecordOp.filterMap_eventTrace RecordOp.time?_queueEvent p₀ ops)) hm
    have hsub : (0 : ℚ) ≤ ((m.servedAt - m.arrivedAt : Int) : ℚ) := by
      exact_mod_cast sub_nonneg.mpr hle
    exact div_nonneg hsub (by norm_num)
  · intro k
    have hpending : p.pendingUploadRequests[k]? = listed ((queues events).waiting k) :=
      htracked.matched.pending k
    rw [hpending]
    exact listed_ne_some_nil _
  · intro k
    have hpending : p.pendingUploadRequests[k]? = listed ((queues events).waiting k) :=
      htracked.matched.pending k
    refine ⟨(queues events).waiting k, ?_, hsound.sorted k, hsound.waiting k⟩
    rw [hpending, getD_listed]

/-- Two requests for one block, of which the second is lost in an alert loss. -/
theorem uploadMatching_run_sample :
    let ops : List (RecordOp AddressV4) := [
      .call ⟨"", 10⟩ (.incomingRequest ⟨0, 0, 16384⟩),
      .call ⟨"", 12⟩ (.incomingRequest ⟨0, 0, 16384⟩),
      .call ⟨"", 15⟩ (.blockUploaded 0 0), .reset, .call ⟨"", 20⟩ (.blockUploaded 0 0)]
    ((PeerStats.new "k#1" "k" "ip" 1 ⟨"", 5⟩ "inbound" "tcp").run
      ops).requestToUploadLatencyMsSamples = [nsToMs 5] := by
  intro ops
  have hrun := uploadMatching_run "k#1" "k" "ip" 1 ⟨"", 5⟩ "inbound" "tcp" ops (by decide)
  exact hrun.2.1

end BtClient
