import BtClient.Library.Outstanding
import BtClient.RecordOps

/-!
# The latency of block requests

A record keeps the requests that have not been answered in a map and measures the time
from a request to its block. Here both are compared with what the trace of its operations
says: a key is outstanding if its latest request has not been answered, timed out, dropped
or cleared since, and a response measures the time back to that request.
-/

namespace BtClient

open KeyEvent

namespace RecordOp

variable {A : Type}

/-- What the operation means for the requests of the record. At the end of the session a
record that is still active is disconnected. -/
def keyEvent (active : Bool) : RecordOp A → KeyEvent RequestKey Int
  | .call ts (.requestSent pieceIndex blockIndex) =>
      .request ⟨pieceIndex, blockIndex⟩ ts.monoNs
  | .call ts (.blockResponse pieceIndex blockIndex) => .answer ⟨pieceIndex, blockIndex⟩ ts.monoNs
  | .call _ (.timeout pieceIndex blockIndex) => .cancel ⟨pieceIndex, blockIndex⟩
  | .call _ (.drop pieceIndex blockIndex) => .cancel ⟨pieceIndex, blockIndex⟩
  | .disconnect _ => .clear
  | .reset => .clear
  | .finalize _ => if active then .clear else .other
  | _ => .other

/-- The events of a sequence of operations. -/
def keyTrace (p : PeerStats) (ops : List (RecordOp A)) : List (KeyEvent RequestKey Int) :=
  eventTrace keyEvent p ops

/-- The operations that record how many requests are outstanding. -/
def recordsDepth : RecordOp A → Bool
  | .call _ (.requestSent _ _) | .call _ (.blockResponse _ _) | .call _ (.timeout _ _)
  | .call _ (.drop _ _) | .reset | .disconnect _ => true
  | _ => false

theorem time?_keyEvent (active : Bool) (op : RecordOp A) (t : Int)
    (h : (op.keyEvent active).time? = some t) : op.time? = some t := by
  cases op with
  | call ts c =>
      cases c with
      | requestSent pieceIndex blockIndex => exact h
      | blockResponse pieceIndex blockIndex => exact h
      | _ => cases h
  | finalize sessionEnd => cases active <;> cases h
  | _ => cases h

end RecordOp

/-! ### The map and the trace -/

/-- The map of the outstanding requests after an event. -/
def outstandingAfter (m : Std.ExtTreeMap RequestKey Int) :
    KeyEvent RequestKey Int → Std.ExtTreeMap RequestKey Int
  | .request k t => m.insert k t
  | .answer k _ => m.erase k
  | .cancel k => m.erase k
  | .clear => ∅
  | .other => m

/-- The latency that an event measures. -/
def latencyOf (m : Std.ExtTreeMap RequestKey Int) : KeyEvent RequestKey Int → List ℚ
  | .answer k t => PeerStats.gapSample m[k]? t
  | _ => []

theorem getElem?_outstandingAfter {m : Std.ExtTreeMap RequestKey Int}
    {trace : List (KeyEvent RequestKey Int)} (h : ∀ k, m[k]? = openSince? trace k)
    (e : KeyEvent RequestKey Int) (k : RequestKey) :
    (outstandingAfter m e)[k]? = openSince? (trace ++ [e]) k := by
  rw [openSince?_append]
  cases e with
  | request k' t =>
      simp only [outstandingAfter, lookBack, Std.ExtTreeMap.getElem?_insert,
        Std.LawfulEqCmp.compare_eq_iff_eq, h]
      rfl
  | answer k' t =>
      simp only [outstandingAfter, lookBack, Std.ExtTreeMap.getElem?_erase,
        Std.LawfulEqCmp.compare_eq_iff_eq, h]
      rfl
  | cancel k' =>
      simp only [outstandingAfter, lookBack, Std.ExtTreeMap.getElem?_erase,
        Std.LawfulEqCmp.compare_eq_iff_eq, h]
      rfl
  | clear => simp [outstandingAfter, lookBack]
  | other => exact h k

theorem latencyOf_eq {m : Std.ExtTreeMap RequestKey Int}
    {trace : List (KeyEvent RequestKey Int)} (h : ∀ k, m[k]? = openSince? trace k)
    (e : KeyEvent RequestKey Int) :
    latencyOf m e = (wait trace e).map fun w => nsToMs (w.2 - w.1) := by
  cases e with
  | answer k t =>
      rw [latencyOf, wait, h]
      cases openSince? trace k <;> rfl
  | _ => rfl

/-- An answer moves one request from the map to the samples. -/
theorem size_outstandingAfter (m : Std.ExtTreeMap RequestKey Int)
    (e : KeyEvent RequestKey Int) :
    (latencyOf m e).length + (outstandingAfter m e).size ≤
      m.size + match e with
        | .request _ _ => 1
        | _ => 0 := by
  cases e with
  | request k t =>
      have hnone : latencyOf m (.request k t) = [] := rfl
      rw [hnone, List.length_nil, Nat.zero_add]
      exact Std.ExtTreeMap.size_insert_le
  | answer k t =>
      rw [latencyOf, outstandingAfter]
      cases hk : m[k]? with
      | none =>
          rw [PeerStats.gapSample, List.length_nil, Nat.zero_add]
          exact Std.ExtTreeMap.size_erase_le
      | some requestNs =>
          have hmem : k ∈ m := Std.ExtTreeMap.mem_iff_isSome_getElem?.mpr (by rw [hk]; rfl)
          have hcontains : m.contains k = true := hmem
          have hpos : 0 < m.size := by
            by_contra hsize
            have hempty : m = ∅ := Std.ExtTreeMap.eq_empty_iff_size_eq_zero.mpr (by omega)
            rw [hempty] at hcontains
            simp at hcontains
          rw [Std.ExtTreeMap.size_erase, if_pos hcontains, PeerStats.gapSample,
            List.length_singleton]
          dsimp only
          omega
  | cancel k =>
      have hnone : latencyOf m (.cancel k) = [] := rfl
      rw [hnone, List.length_nil, Nat.zero_add]
      exact Std.ExtTreeMap.size_erase_le
  | clear => simp [latencyOf, outstandingAfter]
  | other => simp [latencyOf, outstandingAfter]

/-! ### The record and the map -/

namespace RecordOp

variable {A : Type}

theorem outstanding_flow (op : RecordOp A) (f : RecordFlow) :
    (op.flow f).requests.outstanding =
      outstandingAfter f.requests.outstanding (op.keyEvent f.active) := by
  cases op with
  | call ts c => cases c <;> rfl
  | finalize sessionEnd =>
      simp only [flow, RecordFlow.finalize, keyEvent]
      split <;> rfl
  | _ => rfl

theorem latencyMsSamples_flow (op : RecordOp A) (f : RecordFlow) :
    (op.flow f).requests.latencyMsSamples =
      f.requests.latencyMsSamples ++
        latencyOf f.requests.outstanding (op.keyEvent f.active) := by
  have hsame : f.requests.latencyMsSamples = f.requests.latencyMsSamples ++ [] :=
    (List.append_nil _).symm
  cases op with
  | call ts c => cases c <;> first | exact hsame | rfl
  | finalize sessionEnd =>
      simp only [flow, RecordFlow.finalize, keyEvent]
      split <;> exact hsame
  | _ => exact hsame

/-- An operation that records a depth records the number of requests it leaves
outstanding. -/
theorem depthSamples_flow (op : RecordOp A) (hop : op.recordsDepth = true)
    (f : RecordFlow) :
    (op.flow f).requests.depthSamples =
      f.requests.depthSamples ++ [((op.flow f).requests.outstanding.size : ℚ)] := by
  cases op with
  | call ts c =>
      cases c with
      | requestSent pieceIndex blockIndex => rfl
      | blockResponse pieceIndex blockIndex => rfl
      | timeout pieceIndex blockIndex => rfl
      | drop pieceIndex blockIndex => rfl
      | _ => cases hop
  | disconnect ts => rfl
  | reset => rfl
  | _ => cases hop

theorem kind?_eq_requestSent (op : RecordOp A) (active : Bool) :
    (match op.keyEvent active with
      | .request _ _ => 1
      | _ => 0) = if op.kind? = some .requestSent then 1 else 0 := by
  cases op with
  | call ts c => cases c <;> rfl
  | finalize sessionEnd => cases active <;> rfl
  | _ => rfl

end RecordOp

/-- The record agrees with the trace of its operations. -/
structure RequestsTracked (trace : List (KeyEvent RequestKey Int)) (p : PeerStats) : Prop where
  outstanding : ∀ k, p.outstandingRequests[k]? = openSince? trace k
  latencies : p.blockLatencyMsSamples = (waits trace).map fun w => nsToMs (w.2 - w.1)
  bound : p.blockLatencyMsSamples.length + p.outstandingRequests.size ≤ p.requestsSent

namespace RequestsTracked

variable {A : Type} {trace : List (KeyEvent RequestKey Int)} {p : PeerStats}

theorem new (peerKey endpointKey peerIp : String) (peerPort : ℕ) (ts : TimestampPair)
    (direction transport : String) :
    RequestsTracked []
      (PeerStats.new peerKey endpointKey peerIp peerPort ts direction transport) where
  outstanding k := by simp [PeerStats.new, openSince?, lookBack]
  latencies := rfl
  bound := by simp [PeerStats.new]

theorem apply (h : RequestsTracked trace p) (op : RecordOp A) :
    RequestsTracked (trace ++ [op.keyEvent p.activeConnection]) (op.apply p) := by
  have hflow := op.flow_apply p
  have houtstanding : (op.apply p).outstandingRequests =
      outstandingAfter p.outstandingRequests (op.keyEvent p.activeConnection) :=
    (congrArg (fun f => f.requests.outstanding) hflow).trans (op.outstanding_flow p.flow)
  have hlatencies : (op.apply p).blockLatencyMsSamples = p.blockLatencyMsSamples ++
      latencyOf p.outstandingRequests (op.keyEvent p.activeConnection) :=
    (congrArg (fun f => f.requests.latencyMsSamples) hflow).trans
      (op.latencyMsSamples_flow p.flow)
  have hsent : (op.apply p).requestsSent = p.requestsSent +
      if op.kind? = some .requestSent then 1 else 0 := op.counter_apply p .requestSent
  refine ⟨?_, ?_, ?_⟩
  · intro k
    rw [houtstanding]
    exact getElem?_outstandingAfter h.outstanding _ k
  · rw [hlatencies, waits_append, List.map_append, h.latencies, latencyOf_eq h.outstanding]
  · have hsize := size_outstandingAfter p.outstandingRequests (op.keyEvent p.activeConnection)
    have hbound := h.bound
    rw [op.kind?_eq_requestSent] at hsize
    rw [houtstanding, hlatencies, hsent, List.length_append]
    omega

theorem run (h : RequestsTracked [] p) (ops : List (RecordOp A)) :
    RequestsTracked (RecordOp.keyTrace p ops) (p.run ops) := by
  induction ops using List.reverseRecOn with
  | nil => exact h
  | append_singleton ops op ih =>
      rw [RecordOp.keyTrace, RecordOp.eventTrace_append, PeerStats.run_append]
      exact ih.apply op

/-- The size of the map is the number of outstanding keys. -/
theorem size_eq_ncard (h : RequestsTracked trace p) :
    p.outstandingRequests.size = {k | ∃ t, OpenSince trace k t}.ncard := by
  have hkeys : {k | ∃ t, OpenSince trace k t} = ↑p.outstandingRequests.keys.toFinset := by
    ext k
    rw [Set.mem_ofPred_eq, Finset.mem_coe, List.mem_toFinset, Std.ExtTreeMap.mem_keys,
      Std.ExtTreeMap.mem_iff_isSome_getElem?, h.outstanding, Option.isSome_iff_exists]
    simp only [openSince?_eq_some_iff]
  rw [hkeys, Set.ncard_coe_finset, List.toFinset_card_of_nodup Std.ExtTreeMap.nodup_keys,
    Std.ExtTreeMap.length_keys]

end RequestsTracked

/-- Over every sequence of operations in the order of their times, the map of outstanding
requests, the latencies and the recorded depths are what the trace says. -/
theorem blockLatency_run {A : Type} (peerKey endpointKey peerIp : String) (peerPort : ℕ)
    (ts : TimestampPair) (direction transport : String) (ops : List (RecordOp A))
    (horder : RecordOp.InOrder ops) :
    let p₀ := PeerStats.new peerKey endpointKey peerIp peerPort ts direction transport
    let p := p₀.run ops
    let trace := RecordOp.keyTrace p₀ ops
    (∀ k t, p.outstandingRequests[k]? = some t ↔ OpenSince trace k t) ∧
      p.blockLatencyMsSamples = (waits trace).map (fun w => nsToMs (w.2 - w.1)) ∧
      (∀ x ∈ p.blockLatencyMsSamples, 0 ≤ x) ∧
      p.blockLatencyMsSamples.length + p.outstandingRequests.size ≤ p.requestsSent ∧
      ∀ op : RecordOp A, op.recordsDepth = true →
        (op.apply p).outstandingDepthSamples = p.outstandingDepthSamples ++
          [({k | ∃ t, OpenSince (trace ++ [op.keyEvent p.activeConnection]) k t}.ncard : ℚ)] := by
  intro p₀ p trace
  have htracked : RequestsTracked trace p :=
    (RequestsTracked.new peerKey endpointKey peerIp peerPort ts direction transport).run ops
  refine ⟨?_, htracked.latencies, ?_, htracked.bound, ?_⟩
  · intro k t
    rw [htracked.outstanding, openSince?_eq_some_iff]
  · intro x hx
    rw [htracked.latencies] at hx
    obtain ⟨w, hw, rfl⟩ := List.mem_map.mp hx
    have hle := le_of_mem_waits (horder.sublist
      (RecordOp.filterMap_eventTrace RecordOp.time?_keyEvent p₀ ops)) hw
    have hsub : (0 : ℚ) ≤ ((w.2 - w.1 : Int) : ℚ) := by exact_mod_cast sub_nonneg.mpr hle
    exact div_nonneg hsub (by norm_num)
  · intro op hop
    have hdepth : (op.apply p).outstandingDepthSamples = p.outstandingDepthSamples ++
        [((op.apply p).outstandingRequests.size : ℚ)] := by
      have hsamples := op.depthSamples_flow hop p.flow
      rw [← op.flow_apply] at hsamples
      exact hsamples
    rw [hdepth, (htracked.apply op).size_eq_ncard]

/-- A request that is answered, one that is sent again and one that an alert loss
clears. -/
theorem blockLatency_run_sample :
    let ops : List (RecordOp AddressV4) := [
      .call ⟨"", 10⟩ (.requestSent 0 0), .call ⟨"", 12⟩ (.requestSent 0 1),
      .call ⟨"", 15⟩ (.blockResponse 0 0), .call ⟨"", 16⟩ (.requestSent 0 1),
      .call ⟨"", 20⟩ (.blockResponse 0 1), .call ⟨"", 21⟩ (.requestSent 0 2), .reset,
      .call ⟨"", 25⟩ (.blockResponse 0 2)]
    ((PeerStats.new "k#1" "k" "ip" 1 ⟨"", 5⟩ "outbound" "tcp").run ops).blockLatencyMsSamples =
      [nsToMs 5, nsToMs 4] := by
  intro ops
  have hrun := blockLatency_run "k#1" "k" "ip" 1 ⟨"", 5⟩ "outbound" "tcp" ops (by decide)
  exact hrun.2.1

end BtClient
