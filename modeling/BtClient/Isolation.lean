import BtClient.History

/-!
# Endpoints do not influence each other's records

A run is a sequence of timestamped operations with `finalize` among them. The
records of an endpoint, finished pieces aside, are a function of the operations
on that endpoint, the alert losses and the finalizations: every other operation
can be inserted, removed or moved without a trace in them.
-/

namespace BtClient

/-- The operations on a session, with the one that ends it. -/
inductive RunOp (A : Type) where
  | call (op : SessionOp A)
  | finalize (finish : TimestampPair)

namespace RunOp

variable {A : Type}

/-- The operations on the endpoint, and those on all records. -/
def concerns [DecidableEq A] (endpoint : Endpoint A) : RunOp A → Bool
  | .call (.peer op) => op.endpoint = endpoint
  | .call (.alertLoss _) => true
  | .call _ => false
  | .finalize _ => true

variable [Address A]

def apply (s : SessionStats) : RunOp A → SessionStats
  | .call op => op.apply s
  | .finalize finish => s.finalize finish

/-- What the operation does to the records of the endpoint `e`. -/
def history (e : String) (op : RunOp A) (g : Generations PeerStats) : Generations PeerStats :=
  match op with
  | .call op => op.history e g
  | .finalize finish => g.map (PeerStats.finalize finish)

end RunOp

namespace SessionStats

variable {A : Type} [Address A]

def runAll (s : SessionStats) (ops : List (RunOp A)) : SessionStats :=
  ops.foldl RunOp.apply s

/-- The records of an endpoint under their keys, with every field except the
finished pieces. -/
def recordsOf (s : SessionStats) (endpoint : Endpoint A) (key : String) : Option PeerStats :=
  ((s.peersByKey[key]?).map (PeerStats.setPiecesFinished 0)).filter
    fun p => p.endpointKey = endpointToString endpoint

end SessionStats

section Runs

variable {A : Type} [Address A] {s s' : SessionStats} {v v' : String → Generations PeerStats}

theorem RunOp.represents_apply (op : RunOp A) (h : Represents s v) :
    Represents (op.apply s) (fun e => op.history e (v e)) := by
  cases op with
  | call op => exact op.represents_apply h
  | finalize finish =>
      exact (h.mapPeers (KeepsKeys.finalize finish)).of_maps_eq rfl rfl rfl rfl

theorem represents_runAll (ops : List (RunOp A)) (h : Represents s v) :
    Represents (s.runAll ops) (fun e => ops.foldl (fun g op => op.history e g) (v e)) := by
  induction ops generalizing s v with
  | nil => exact h
  | cons op ops ih => exact ih (op.represents_apply h)

/-- The records of an endpoint are its history. -/
theorem Represents.recordsOf_eq (h : Represents s v) (h' : Represents s' v')
    (endpoint : Endpoint A)
    (hv : v (endpointToString endpoint) = v' (endpointToString endpoint)) :
    s.recordsOf endpoint = s'.recordsOf endpoint := by
  funext k
  by_cases hk : ∃ n, k = numberedPeerKey (endpointToString endpoint) n
  · obtain ⟨n, rfl⟩ := hk
    unfold SessionStats.recordsOf
    rw [(h.stores _).record, (h'.stores _).record, hv]
  · have hother : ∀ {s : SessionStats} {v : String → Generations PeerStats},
        Represents s v → s.recordsOf endpoint k = none := by
      intro s v h
      unfold SessionStats.recordsOf
      rw [Option.filter_eq_none_iff]
      intro p hp
      obtain ⟨q, hq, rfl⟩ := Option.map_eq_some_iff.mp hp
      obtain ⟨n, hnum, -, -⟩ := h.key_eq hq
      have hne : (q.setPiecesFinished 0).endpointKey ≠ endpointToString endpoint := by
        intro heq
        have heq' : q.endpointKey = endpointToString endpoint := heq
        rw [heq'] at hnum
        exact hk ⟨n, hnum⟩
      simpa using hne
    rw [hother h, hother h']

variable [DecidableEq A]

/-- An operation that does not concern the endpoint leaves its records alone. -/
theorem RunOp.history_of_not_concerns (op : RunOp A) (endpoint : Endpoint A)
    (hop : op.concerns endpoint = false) (g : Generations PeerStats) :
    op.history (endpointToString endpoint) g = g := by
  cases op with
  | finalize finish => cases hop
  | call op =>
      cases op with
      | peer op =>
          have hne : op.endpoint ≠ endpoint := by simpa [concerns] using hop
          have hkey : op.endpointKey ≠ endpointToString endpoint := fun heq =>
            hne (endpointToString_injective heq)
          exact if_neg hkey
      | alertLoss bits => cases hop
      | pieceFinished pieceIndex => rfl
      | torrentState state => rfl
      | sessionSnapshot status => rfl
      | initialTotals status => rfl

/-- The history of an endpoint is that of the operations that concern it. -/
theorem foldl_history_filter (endpoint : Endpoint A) (ops : List (RunOp A))
    (g : Generations PeerStats) :
    (ops.filter (RunOp.concerns endpoint)).foldl
        (fun g op => op.history (endpointToString endpoint) g) g =
      ops.foldl (fun g op => op.history (endpointToString endpoint) g) g := by
  induction ops generalizing g with
  | nil => rfl
  | cons op ops ih =>
      cases hop : op.concerns endpoint with
      | true =>
          rw [List.filter_cons_of_pos hop]
          exact ih _
      | false =>
          rw [List.filter_cons_of_neg (by simp [hop]), ih, List.foldl_cons,
            op.history_of_not_concerns endpoint hop]

/-- Two runs with the same operations on an endpoint, the same alert losses and the
same finalizations end with the same records of that endpoint. -/
theorem recordsOf_runAll (endpoint : Endpoint A) (ops ops' : List (RunOp A))
    (runId runId' sessionId sessionId' : ByteString) (start start' : TimestampPair)
    (h : ops.filter (RunOp.concerns endpoint) = ops'.filter (RunOp.concerns endpoint)) :
    ((SessionStats.new runId sessionId start).runAll ops).recordsOf endpoint =
      ((SessionStats.new runId' sessionId' start').runAll ops').recordsOf endpoint := by
  apply (represents_runAll ops (represents_new runId sessionId start)).recordsOf_eq
    (represents_runAll ops' (represents_new runId' sessionId' start')) endpoint
  rw [← foldl_history_filter endpoint ops, ← foldl_history_filter endpoint ops', h]

end Runs

/-- Two peers on one host: the second run leaves out the other peer and its piece. -/
theorem recordsOf_runAll_two_peers :
    let endpoint : Endpoint AddressV4 := ⟨⟨10, 0, 0, 1⟩, 6881⟩
    let other : Endpoint AddressV4 := ⟨⟨10, 0, 0, 1⟩, 6882⟩
    let pid : PeerId := Vector.replicate 20 7
    let time : Int → TimestampPair := fun ns => ⟨"2024-01-01T00:00:00Z", ns⟩
    let s := SessionStats.new "run" "session" (time 1)
    let connect := RunOp.call (.peer (.connect endpoint pid (time 2) "outbound" "tcp"))
    let request := RunOp.call (.peer (.event endpoint pid (time 5) (some (.requestSent 0 1))))
    let finish := RunOp.finalize (A := AddressV4) (time 9)
    (s.runAll [.call (.peer (.connect other pid (time 1) "inbound" "utp")), connect,
        .call (.peer (.event other pid (time 3) (some (.blockResponse 4 0)))),
        .call (.pieceFinished 4), request, finish]).recordsOf endpoint =
      (s.runAll [connect, request, finish]).recordsOf endpoint :=
  recordsOf_runAll _ _ _ _ _ _ _ _ _ rfl

end BtClient
