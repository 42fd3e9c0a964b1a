import BtClient.Library.Lookback
import BtClient.PeerFace
import BtClient.RunOps

/-!
# Peer keys identify connections

A connection is the time between two disconnects of an endpoint, so it is an endpoint with
a number: one more than the disconnects of that endpoint before it. Its key is built from
the text of the endpoint and the number, and no other connection has that key. In every run
the keyed lines of the log carry, line by line, the keys of the connections that the
operations were about, and the map of the records holds exactly these keys, each with a
record of its connection.
-/

namespace BtClient

/-- A connection of a run. -/
structure Connection (A : Type) where
  endpoint : Endpoint A
  number : ℕ

section Keys

variable {A : Type} [Address A]

def Connection.key (c : Connection A) : String :=
  numberedPeerKey (endpointToString c.endpoint) c.number

theorem Connection.key_inj {c c' : Connection A} : c.key = c'.key ↔ c = c' := by
  rw [Connection.key, Connection.key, numberedPeerKey_inj, endpointToString_injective.eq_iff]
  obtain ⟨endpoint, number⟩ := c
  obtain ⟨endpoint', number'⟩ := c'
  simp

/-- The record is about the connection. -/
structure PeerStats.IsAbout (p : PeerStats) (c : Connection A) : Prop where
  peerKey : p.peerKey = c.key
  endpointKey : p.endpointKey = endpointToString c.endpoint
  peerIp : p.peerIp = Address.toString c.endpoint.address
  peerPort : p.peerPort = c.endpoint.port.toNat

/-- The operation ends a connection of the endpoint. -/
def SessionOp.disconnects (endpointKey : String) : SessionOp A → Bool
  | .peer op => op.closes && op.endpointKey == endpointKey
  | _ => false

/-- The connection that an operation is about, after the operations `before`. -/
def SessionOp.connection? (before : List (SessionOp A)) : SessionOp A → Option (Connection A)
  | .peer op =>
      some ⟨op.endpoint, before.countP (SessionOp.disconnects op.endpointKey) + 1⟩
  | _ => none

/-- The connections that the operations are about, one after the other. -/
def seenConnections (ops : List (SessionOp A)) : List (Connection A) :=
  lookback SessionOp.connection? ops

/-- The traces of the ended connections are as many as the disconnects. -/
theorem length_closed_tracesOf (e : String) (ops : List (SessionOp A)) :
    (tracesOf e ops).closed.length = ops.countP (SessionOp.disconnects e) := by
  induction ops using List.reverseRecOn with
  | nil => rfl
  | append_singleton ops op ih =>
      rw [tracesOf_append_singleton, List.countP_append, ← ih]
      cases op with
      | peer op =>
          simp only [SessionOp.traces, SessionOp.disconnects, List.countP_singleton,
            Bool.and_eq_true, beq_iff_eq]
          by_cases he : op.endpointKey = e
          · have hcount := (tracesOf e ops).count_ensureOpen fun n => ⟨op.opened n, []⟩
            cases hcloses : op.closes with
            | false => simp [he, PeerOp.traces, hcloses]
            | true =>
                simp only [he, PeerOp.traces, hcloses, if_true, and_self]
                rw [← hcount, ← Generations.count_update]
                rfl
          · simp [he]
      | _ => simp [SessionOp.traces, SessionOp.disconnects]

/-- The record that an operation is about is the one of its connection. -/
theorem count_history_tracesOf (op : PeerOp A) (ops : List (SessionOp A)) :
    (op.history ((tracesOf op.endpointKey ops).map RecordTrace.replay)).count =
      ops.countP (SessionOp.disconnects op.endpointKey) + 1 := by
  rw [op.count_history, PeerOp.changed, Generations.count_update,
    Generations.count_ensureOpen, Generations.closed_map, List.length_map,
    length_closed_tracesOf]

theorem PeerOp.key_apply_connection (op : PeerOp A) {s : SessionStats}
    {ops : List (SessionOp A)}
    (h : Represents s fun e => (tracesOf e ops).map RecordTrace.replay) :
    (op.apply s).key =
      Connection.key ⟨op.endpoint, ops.countP (SessionOp.disconnects op.endpointKey) + 1⟩ := by
  rw [op.key_apply h, count_history_tracesOf]
  rfl

/-- Every keyed line carries the key of the connection its operation is about. -/
theorem followsOps_connections : FollowsOps fun s (ops : List (SessionOp A)) keys =>
    (Represents s fun e => (tracesOf e ops).map RecordTrace.replay) ∧
      keys = (seenConnections ops).map Connection.key where
  count body h := ⟨h.1.countAlert body, h.2⟩
  apply {s ops keys} op h := by
    refine ⟨op.represents_append h.1, ?_⟩
    rw [seenConnections, lookback_concat, List.map_append, h.2]
    congr 1
    cases op with
    | peer op =>
        have hkey := (op.peerKey_apply h.1).trans (op.key_apply_connection h.1)
        simp only [SessionOp.loggedKey, SessionOp.connection?, Option.toList_some,
          List.map_singleton, hkey]
    | _ => rfl

/-- The records of the traces know the endpoint they were opened for. -/
def RecordTrace.KnowsEndpoint (t : RecordTrace A) : Prop :=
  ∃ endpoint : Endpoint A, t.replay.endpointKey = endpointToString endpoint ∧
    t.replay.peerIp = Address.toString endpoint.address ∧
      t.replay.peerPort = endpoint.port.toNat

omit [Address A] in
theorem PeerStats.identity_run (p : PeerStats) (ops : List (RecordOp A)) :
    (p.run ops).endpointKey = p.endpointKey ∧ (p.run ops).peerIp = p.peerIp ∧
      (p.run ops).peerPort = p.peerPort := by
  induction ops generalizing p with
  | nil => exact ⟨rfl, rfl, rfl⟩
  | cons op ops ih =>
      have hidentity := op.identity_face p.face
      rw [← op.face_apply] at hidentity
      obtain ⟨hendpoint, hip, hport⟩ := ih (op.apply p)
      exact ⟨hendpoint.trans hidentity.2.1, hip.trans hidentity.2.2.1,
        hport.trans hidentity.2.2.2⟩

theorem RecordTrace.KnowsEndpoint.extend {t : RecordTrace A} (h : t.KnowsEndpoint)
    (ops : List (RecordOp A)) : (t.extend ops).KnowsEndpoint := by
  obtain ⟨endpoint, hendpoint, hip, hport⟩ := h
  obtain ⟨hendpoint', hip', hport'⟩ := t.replay.identity_run ops
  rw [RecordTrace.KnowsEndpoint, RecordTrace.replay_extend]
  exact ⟨endpoint, hendpoint'.trans hendpoint, hip'.trans hip, hport'.trans hport⟩

theorem PeerOp.knowsEndpoint_opened (op : PeerOp A) (n : ℕ) :
    RecordTrace.KnowsEndpoint (A := A) ⟨op.opened n, []⟩ := by
  cases op with
  | connect endpoint pid ts direction transport => exact ⟨endpoint, rfl, rfl, rfl⟩
  | event endpoint pid ts call => exact ⟨endpoint, rfl, rfl, rfl⟩
  | disconnect endpoint pid ts => exact ⟨endpoint, rfl, rfl, rfl⟩
  | snapshot peer ts snapshotIntervalMs => exact ⟨peer.ip, rfl, rfl, rfl⟩

/-- Keys identify connections. Equal keys come from the same address, port and number, and
in every run the keyed lines of the log and the records are those of the connections: each
line carries the key of its own connection, the records are stored under the keys of the
connections seen, and the record under a key is about the one connection with that key. -/
theorem peerKeys_identify (runId sessionId infoHash : ByteString) (start : TimestampPair)
    (config : RuntimeConfig) (steps : List (RunStep A)) (r : Recording)
    (hrun : (Recording.start runId sessionId start config infoHash).run steps = .ok r) :
    let connections := seenConnections (opsOf config.snapshotIntervalMs steps)
    (∀ (address address' : A) (port port' : UInt16) (n n' : ℕ),
      numberedPeerKey (endpointToString ⟨address, port⟩) n =
          numberedPeerKey (endpointToString ⟨address', port'⟩) n' ↔
        address = address' ∧ port = port' ∧ n = n') ∧
      loggedKeys r.writer.lines = connections.map Connection.key ∧
      (∀ k : String, k ∈ r.stats.peersByKey ↔ ∃ c ∈ connections, c.key = k) ∧
      ∀ (k : String) (p : PeerStats), r.stats.peersByKey[k]? = some p →
        ∃! c : Connection A, c ∈ connections ∧ c.key = k ∧ p.IsAbout c := by
  intro connections
  have hnew : Represents (Recording.start runId sessionId start config infoHash).stats
      fun e => (tracesOf e ([] : List (SessionOp A))).map RecordTrace.replay :=
    represents_new runId sessionId start
  obtain ⟨hrep, hlogged⟩ := followsOps_connections.run ⟨hnew, rfl⟩ hrun
  have hkeys : r.writer.lines.filterMap Json.loggedKey = connections.map Connection.key :=
    hlogged
  have hagrees : LogAgrees r.stats r.writer.lines :=
    (LogInvariant.run (logInvariant_new runId sessionId start) hrun).agrees
  have hmem : ∀ k : String, k ∈ r.stats.peersByKey ↔ ∃ c ∈ connections, c.key = k := by
    intro k
    rw [hagrees.keys, ← List.mem_filterMap, hkeys, List.mem_map]
  refine ⟨?_, hkeys, hmem, ?_⟩
  · intro address address' port port' n n'
    have hkey : Connection.key ⟨⟨address, port⟩, n⟩ = Connection.key ⟨⟨address', port'⟩, n'⟩ ↔ _ :=
      Connection.key_inj
    simpa [Connection.key, and_assoc] using hkey
  · intro k p hp
    obtain ⟨c, hc, hck⟩ := (hmem k).mp
      (Std.ExtTreeMap.mem_iff_isSome_getElem?.mpr (by rw [hp]; rfl))
    obtain ⟨n, t, hkn, ht, hreplay⟩ := hrep.exists_trace hp
    obtain ⟨endpoint, hendpoint, hip, hport⟩ := tracesOf_induction
      (fun op n => op.knowsEndpoint_opened n) (fun _ ops h => h.extend ops) ht
    rw [← hreplay] at hendpoint hip hport
    have hparts := numberedPeerKey_inj.mp (hck.trans hkn)
    have hsame : c.endpoint = endpoint :=
      endpointToString_injective (hparts.1.trans hendpoint)
    obtain ⟨-, -, hpeerKey, -⟩ := hrep.key_eq hp
    refine ⟨c, ⟨hc, hck, ?_⟩, ?_⟩
    · constructor
      · rw [hpeerKey, hck]
      · exact hparts.1.symm
      · rw [hsame]
        exact hip
      · rw [hsame]
        exact hport
    · intro c' hc'
      exact Connection.key_inj.mp (hc'.2.1.trans hck.symm)

end Keys

/-- A run in which the peer comes back. -/
def reconnectSteps : List (RunStep AddressV4) :=
  sampleSteps ++ [.drainAlerts [sampleConnect 50, sampleRequest 60]]

/-- The log and the map know the two connections of the peer. -/
theorem peerKeys_identify_reconnectSteps : ∃ r, sampleStart.run reconnectSteps = .ok r ∧
    let connections :=
      seenConnections (opsOf sampleStart.writer.config.snapshotIntervalMs reconnectSteps)
    (connections.map Connection.key).dedup.length = 2 ∧
      loggedKeys r.writer.lines = connections.map Connection.key ∧
      (∀ k : String, k ∈ r.stats.peersByKey ↔ ∃ c ∈ connections, c.key = k) ∧
      ∀ (k : String) (p : PeerStats), r.stats.peersByKey[k]? = some p →
        ∃! c : Connection AddressV4, c ∈ connections ∧ c.key = k ∧ p.IsAbout c := by
  obtain ⟨r, hr⟩ := exists_of_isOk (x := sampleStart.run reconnectSteps) (by decide +kernel)
  exact ⟨r, hr, by decide +kernel, (peerKeys_identify _ _ _ _ _ reconnectSteps r hr).2⟩

end BtClient
