import BtClient.Representation

/-!
# Records of closed connections

A closed record is out of reach of the calls about its endpoint, which go to the current
record or open a new one. Only a pass over all records still gets to it, and before
`finalize` the one such pass is that of `note_alert_loss`.
-/

namespace BtClient

namespace PeerStats

/-- The passes of the given number of alert losses. -/
theorem outstandingDepthSamples_iterate_reset (k : ℕ) (p : PeerStats) :
    (resetOutstandingRequests^[k] p).outstandingDepthSamples =
      p.outstandingDepthSamples ++ List.replicate k 0 := by
  induction k generalizing p with
  | zero => simp
  | succ k ih =>
      rw [Function.iterate_succ_apply, ih, List.replicate_succ, List.append_cons]
      rfl

end PeerStats

namespace SessionOp

variable {A : Type}

def isAlertLoss : SessionOp A → Bool
  | .alertLoss _ => true
  | _ => false

variable [Address A]

/-- An operation that is no alert loss does not change the closed records. -/
theorem closed_history (e : String) {op : SessionOp A} (h : op.isAlertLoss = false)
    (g : Generations PeerStats) : g.closed <+: (op.history e g).closed := by
  cases op with
  | peer op =>
      simp only [history]
      split
      · simp only [PeerOp.history]
        split
        · simp [Generations.close, Generations.records]
        · simp
      · exact List.prefix_rfl
  | alertLoss bits => cases h
  | pieceFinished pieceIndex => exact List.prefix_rfl
  | torrentState state => exact List.prefix_rfl
  | sessionSnapshot status => exact List.prefix_rfl
  | initialTotals status => exact List.prefix_rfl

/-- The closed records are only reset, once for every alert loss. -/
theorem closed_historyOf (e : String) (ops : List (SessionOp A)) (g : Generations PeerStats) :
    g.closed.map PeerStats.resetOutstandingRequests^[ops.countP isAlertLoss] <+:
      (historyOf e ops g).closed := by
  induction ops generalizing g with
  | nil => simp [historyOf]
  | cons op ops ih =>
      have hrest := ih (op.history e g)
      cases hop : op.isAlertLoss with
      | true =>
          rw [List.countP_cons_of_pos hop]
          cases op with
          | alertLoss bits =>
              simp only [history, Generations.closed_map, List.map_map] at hrest
              simpa [historyOf, history, Function.iterate_succ] using hrest
          | _ => cases hop
      | false =>
          rw [List.countP_cons_of_neg (by simp [hop])]
          exact ((closed_history e hop g).map _).trans hrest

end SessionOp

/-- A closed record keeps all its fields but the finished pieces exactly as long as no
alert loss is noticed. -/
theorem closedRecord_frozen_iff {A : Type} [Address A] (runId sessionId : ByteString)
    (start : TimestampPair) (ops later : List (SessionOp A)) (key : String) (p : PeerStats)
    (hp : ((SessionStats.new runId sessionId start).run ops).peersByKey[key]? = some p)
    (hclosed : p.activeConnection = false) :
    (∃ p', ((SessionStats.new runId sessionId start).run (ops ++ later)).peersByKey[key]? =
        some p' ∧ p'.setPiecesFinished p.piecesFinished = p) ↔
      ∀ bits, SessionOp.alertLoss bits ∉ later := by
  have hbefore := represents_run ops (represents_new runId sessionId start)
  have hafter := represents_run (ops ++ later) (represents_new runId sessionId start)
  obtain ⟨n, rfl, -, hget⟩ := hbefore.key_eq hp
  have hactive := activeLast_historyOf (A := A) p.endpointKey ops
    (g := Generations.empty) Generations.Splits.empty
  obtain ⟨m, rfl, hm⟩ := hactive.exists_closed hget (by
    have hinactive : (p.setPiecesFinished 0).activeConnection = false := hclosed
    rw [hinactive]
    decide)
  generalize hk : later.countP SessionOp.isAlertLoss = k
  have hlater : (historyOf p.endpointKey (ops ++ later) Generations.empty).get? (m + 1) =
      some (PeerStats.resetOutstandingRequests^[k] (p.setPiecesFinished 0)) := by
    apply Generations.get?_of_closed
    have hkept := SessionOp.closed_historyOf p.endpointKey later
      (historyOf p.endpointKey ops Generations.empty)
    rw [hk] at hkept
    have happend : historyOf p.endpointKey (ops ++ later) Generations.empty =
        historyOf p.endpointKey later (historyOf p.endpointKey ops Generations.empty) :=
      List.foldl_append
    obtain ⟨rest, hrest⟩ := hkept
    have hreset : ((historyOf p.endpointKey ops Generations.empty).closed.map
        PeerStats.resetOutstandingRequests^[k])[m]? =
        some (PeerStats.resetOutstandingRequests^[k] (p.setPiecesFinished 0)) := by
      rw [List.getElem?_map, hm]
      rfl
    rw [happend, ← hrest, List.getElem?_append_left (List.getElem?_eq_some_iff.mp hreset).1,
      hreset]
  obtain ⟨p', hp', hsame⟩ := hafter.getElem?_of_get? hlater
  have hzero : k = 0 ↔ ∀ bits, SessionOp.alertLoss bits ∉ later := by
    rw [← hk, List.countP_eq_zero]
    constructor
    · intro hnone bits hmem
      exact hnone _ hmem rfl
    · intro hnone op hmem
      cases op with
      | alertLoss bits => exact absurd hmem (hnone bits)
      | _ => simp [SessionOp.isAlertLoss]
  rw [← hzero]
  constructor
  · rintro ⟨p'', hp'', hfrozen⟩
    obtain rfl : p' = p'' := Option.some.inj (hp'.symm.trans hp'')
    have hsamples := congrArg PeerStats.outstandingDepthSamples hsame
    rw [PeerStats.outstandingDepthSamples_iterate_reset] at hsamples
    have hkept : (p'.setPiecesFinished p.piecesFinished).outstandingDepthSamples =
        p.outstandingDepthSamples := by rw [hfrozen]
    have hlength := congrArg List.length (hkept.symm.trans hsamples)
    simpa [PeerStats.setPiecesFinished] using hlength
  · rintro rfl
    have hset := congrArg (PeerStats.setPiecesFinished p.piecesFinished) hsame
    exact ⟨p', hp', hset⟩

theorem closedRecord_frozen_iff_reconnect :
    let s := SessionStats.new "run" "session" ⟨"", 1⟩
    ∃ p, (s.run sampleVisit).peersByKey["10.0.0.1:6881#1"]? = some p ∧
      ((∃ p', (s.run (sampleVisit ++ sampleVisit)).peersByKey["10.0.0.1:6881#1"]? =
          some p' ∧ p'.setPiecesFinished p.piecesFinished = p) ↔
        ∀ bits, SessionOp.alertLoss bits ∉ sampleVisit) := by
  intro s
  have hclosed : ((s.run sampleVisit).peersByKey["10.0.0.1:6881#1"]?).map
      PeerStats.activeConnection = some false := by decide +kernel
  obtain ⟨p, hp, hinactive⟩ := Option.map_eq_some_iff.mp hclosed
  exact ⟨p, hp, closedRecord_frozen_iff "run" "session" ⟨"", 1⟩ sampleVisit sampleVisit
    "10.0.0.1:6881#1" p hp hinactive⟩

/-- The alert loss adds a depth sample to the closed record. -/
theorem not_frozen_after_alertLoss :
    let s := SessionStats.new "run" "session" ⟨"", 1⟩
    ∃ p p', (s.run sampleVisit).peersByKey["10.0.0.1:6881#1"]? = some p ∧
      p.activeConnection = false ∧
      (s.run (sampleVisit ++ [.alertLoss 1])).peersByKey["10.0.0.1:6881#1"]? = some p' ∧
      p.outstandingDepthSamples = [0] ∧ p'.outstandingDepthSamples = [0, 0] := by
  intro s
  have hbefore : ((s.run sampleVisit).peersByKey["10.0.0.1:6881#1"]?).map
      (fun p => (p.activeConnection, p.outstandingDepthSamples)) = some (false, [0]) := by
    decide +kernel
  have hafter : ((s.run (sampleVisit ++ [.alertLoss 1])).peersByKey["10.0.0.1:6881#1"]?).map
      PeerStats.outstandingDepthSamples = some [0, 0] := by decide +kernel
  obtain ⟨p, hp, hsamples⟩ := Option.map_eq_some_iff.mp hbefore
  obtain ⟨p', hp', hsamples'⟩ := Option.map_eq_some_iff.mp hafter
  rw [Prod.mk.injEq] at hsamples
  exact ⟨p, p', hp, hsamples.1, hp', hsamples.2, hsamples'⟩

end BtClient
