import BtClient.PeerCore

/-!
# The session-wide statistics

`SessionStats` holds the counters of a run and the records of all connections
seen, with the operations of `peer_stats.cpp`. The map from endpoints to active
records only names records that exist; the structure carries that fact, so the
`at` in `ensure_peer_for_endpoint` cannot fail. A reference to a record inside
the session is a `PeerHandle`: the session together with the key of one of its
records.
-/

namespace BtClient

structure SessionStats where
  runId : ByteString
  sessionId : ByteString
  startedUtc : String
  endedUtc : String := ""
  startMonoNs : Int
  endMonoNs : Int := 0
  trackerAnnounces : ℕ := 0
  trackerReplies : ℕ := 0
  trackerErrors : ℕ := 0
  trackerWarnings : ℕ := 0
  incomingConnectionCount : ℕ := 0
  successfulPeerConnects : ℕ := 0
  disconnectCount : ℕ := 0
  peerErrorCount : ℕ := 0
  connectionFailures : ℕ := 0
  alertsDroppedNotifications : ℕ := 0
  alertsDroppedTypeBitsTotal : ℕ := 0
  alertLossDetected : Bool := false
  pieceCompletions : ℕ := 0
  verificationPieceCompletions : ℕ := 0
  maxPeersObserved : Int := 0
  maxSeedsObserved : Int := 0
  initialTotalDoneBytes : Int := 0
  initialTotalUploadBytes : Int := 0
  finalTotalDoneBytes : Int := 0
  finalTotalUploadBytes : Int := 0
  totalDownloadBytes : Int := 0
  totalUploadBytes : Int := 0
  latestTorrentState : TorrentState := .checkingResumeData
  uniquePeerEndpoints : Finset String := ∅
  connectSequenceByEndpoint : Std.ExtTreeMap String ℕ := ∅
  activePeerKeyByEndpoint : Std.ExtTreeMap String String := ∅
  peersByKey : Std.ExtTreeMap String PeerStats := ∅
  lastPiecePeerKey : Std.ExtTreeMap Int String := ∅
  sessionDownloadRateSamples : List ℚ := []
  sessionUploadRateSamples : List ℚ := []
  active_known : ∀ (e k : String), activePeerKeyByEndpoint[e]? = some k → k ∈ peersByKey

/-- A reference to one of the records of the session. -/
structure PeerHandle where
  stats : SessionStats
  key : String
  valid : key ∈ stats.peersByKey

namespace PeerHandle

/-- The record behind the reference. -/
def peer (h : PeerHandle) : PeerStats :=
  h.stats.peersByKey.get h.key h.valid

/-- A call that changes the record in place. -/
def modify (f : PeerStats → PeerStats) (h : PeerHandle) : PeerHandle where
  stats := { h.stats with
    peersByKey := h.stats.peersByKey.insert h.key (f h.peer)
    active_known := fun e k hk =>
      Std.ExtTreeMap.mem_insert.mpr (Or.inr (h.stats.active_known e k hk)) }
  key := h.key
  valid := Std.ExtTreeMap.mem_insert_self

def countConnect (h : PeerHandle) : PeerHandle where
  stats := { h.stats with successfulPeerConnects := h.stats.successfulPeerConnects + 1 }
  key := h.key
  valid := h.valid

def countDisconnect (h : PeerHandle) : PeerHandle where
  stats := { h.stats with disconnectCount := h.stats.disconnectCount + 1 }
  key := h.key
  valid := h.valid

/-- `active_peer_key_by_endpoint.erase(peer.endpoint_key)` -/
def eraseActive (h : PeerHandle) : PeerHandle where
  stats := { h.stats with
    activePeerKeyByEndpoint := h.stats.activePeerKeyByEndpoint.erase h.peer.endpointKey
    active_known := fun e k hk => by
      rw [Std.ExtTreeMap.getElem?_erase] at hk
      split at hk
      · cases hk
      · exact h.stats.active_known e k hk }
  key := h.key
  valid := h.valid

/-- `stats.last_piece_peer_key[piece] = peer.peer_key` -/
def creditPiece (pieceIndex : Int) (h : PeerHandle) : PeerHandle where
  stats := { h.stats with
    lastPiecePeerKey := h.stats.lastPiecePeerKey.insert pieceIndex h.peer.peerKey }
  key := h.key
  valid := h.valid

end PeerHandle

namespace SessionStats

/-- The constructor of `SessionStats`. -/
def new (runId sessionId : ByteString) (start : TimestampPair) : SessionStats where
  runId := runId
  sessionId := sessionId
  startedUtc := start.utcTs
  startMonoNs := start.monoNs
  active_known := fun _ _ h => by simp at h

/-- A pass over all records. -/
def mapPeers (f : PeerStats → PeerStats) (s : SessionStats) : SessionStats :=
  { s with
    peersByKey := s.peersByKey.map fun _ p => f p
    active_known := fun e k hk => Std.ExtTreeMap.mem_map.mpr (s.active_known e k hk) }

variable {A : Type} [Address A]

/-- `connect_sequence_by_endpoint[e]`, which is zero before the first record. -/
def connectSequence (s : SessionStats) (endpointKey : String) : ℕ :=
  (s.connectSequenceByEndpoint[endpointKey]?).getD 0

/-- The branch of `ensure_peer_for_endpoint` that creates a record: the sequence
suffix keeps the connections of one endpoint apart. -/
def createPeer (s : SessionStats) (endpoint : Endpoint A) (ts : TimestampPair)
    (direction transport : String) : PeerHandle :=
  let endpointKey := endpointToString endpoint
  let sequence := s.connectSequence endpointKey + 1
  let peerKey := numberedPeerKey endpointKey sequence
  let peer := PeerStats.new peerKey endpointKey (Address.toString endpoint.address)
    endpoint.port.toNat ts direction transport
  { stats := { s with
      connectSequenceByEndpoint := s.connectSequenceByEndpoint.insert endpointKey sequence
      peersByKey := s.peersByKey.insertIfNew peerKey peer
      activePeerKeyByEndpoint := s.activePeerKeyByEndpoint.insert endpointKey peerKey
      active_known := fun e k hk => by
        rw [Std.ExtTreeMap.mem_insertIfNew]
        rw [Std.ExtTreeMap.getElem?_insert] at hk
        split at hk
        · exact Or.inl (by rw [Option.some.inj hk]; exact Std.ReflCmp.compare_self)
        · exact Or.inr (s.active_known e k hk) }
    key := peerKey
    valid := Std.ExtTreeMap.mem_insertIfNew_self }

/-- `unique_peer_endpoints.insert(endpoint_key)` -/
def insertUniqueEndpoint (s : SessionStats) (endpointKey : String) : SessionStats :=
  { s with uniquePeerEndpoints := insert endpointKey s.uniquePeerEndpoints }

/-- `ensure_peer_for_endpoint` -/
def ensurePeerForEndpoint (s : SessionStats) (endpoint : Endpoint A) (ts : TimestampPair)
    (direction transport : String) : PeerHandle :=
  let s := s.insertUniqueEndpoint (endpointToString endpoint)
  match h : s.activePeerKeyByEndpoint[endpointToString endpoint]? with
  | some key => ⟨s, key, s.active_known _ _ h⟩
  | none => s.createPeer endpoint ts direction transport

def notePeerConnect (s : SessionStats) (endpoint : Endpoint A) (pid : PeerId)
    (ts : TimestampPair) (direction transport : String) : PeerHandle :=
  let h := s.ensurePeerForEndpoint endpoint ts direction transport
  let h := if h.peer.sawConnectAlert then h else h.countConnect
  let h := h.modify (PeerStats.noteConnect ts direction transport true)
  h.modify (PeerStats.notePeerId pid)

def notePeerEvent (s : SessionStats) (endpoint : Endpoint A) (pid : PeerId)
    (ts : TimestampPair) (direction transport : String) : PeerHandle :=
  let h := s.ensurePeerForEndpoint endpoint ts direction transport
  let h := h.modify (PeerStats.markSeen ts)
  h.modify (PeerStats.notePeerId pid)

def notePeerDisconnect (s : SessionStats) (endpoint : Endpoint A) (pid : PeerId)
    (ts : TimestampPair) : PeerHandle :=
  let h := s.notePeerEvent endpoint pid ts "unknown" "unknown"
  let h := h.modify (PeerStats.noteDisconnect ts)
  let h := h.eraseActive
  h.countDisconnect

def notePeerSnapshot (s : SessionStats) (peer : PeerInfo A) (ts : TimestampPair)
    (snapshotIntervalMs : Int) : PeerHandle :=
  let h := s.ensurePeerForEndpoint peer.ip ts (PeerStats.directionFromPeerInfo peer)
    (transportFromPeerInfo peer)
  h.modify (PeerStats.updateFromSnapshot peer ts snapshotIntervalMs)

end SessionStats

/-- `state_implies_network_piece_completion` -/
def stateImpliesNetworkPieceCompletion : TorrentState → Bool
  | .downloading | .finished | .seeding => true
  | _ => false

namespace SessionStats

/-- The record of `it->second` gets one more finished piece, if it is there. -/
def creditFinishedPiece (s : SessionStats) (key : String) : SessionStats :=
  match h : s.peersByKey[key]? with
  | some p =>
      ((PeerHandle.mk s key (Std.ExtTreeMap.mem_iff_isSome_getElem?.mpr (by rw [h]; rfl))).modify
        fun _ => { p with piecesFinished := p.piecesFinished + 1 }).stats
  | none => s

def notePieceFinished (s : SessionStats) (pieceIndex : Int) : SessionStats :=
  if !stateImpliesNetworkPieceCompletion s.latestTorrentState then
    { s with verificationPieceCompletions := s.verificationPieceCompletions + 1 }
  else
    let s := { s with pieceCompletions := s.pieceCompletions + 1 }
    match s.lastPiecePeerKey[pieceIndex]? with
    | none => s
    | some key => s.creditFinishedPiece key

def setInitialTotals (s : SessionStats) (status : TorrentStatus) : SessionStats :=
  { s with
    initialTotalDoneBytes := status.totalDone
    initialTotalUploadBytes := status.totalUpload
    finalTotalDoneBytes := status.totalDone
    finalTotalUploadBytes := status.totalUpload
    totalDownloadBytes := 0
    totalUploadBytes := 0
    latestTorrentState := status.state }

def noteTorrentState (s : SessionStats) (state : TorrentState) : SessionStats :=
  { s with latestTorrentState := state }

def noteAlertLoss (s : SessionStats) (droppedAlertTypeBits : ℕ) : SessionStats :=
  { s.mapPeers PeerStats.resetOutstandingRequests with
    alertLossDetected := true
    alertsDroppedNotifications := s.alertsDroppedNotifications + 1
    alertsDroppedTypeBitsTotal := s.alertsDroppedTypeBitsTotal + droppedAlertTypeBits
    lastPiecePeerKey := ∅ }

def recordSessionSnapshot (s : SessionStats) (status : TorrentStatus) : SessionStats :=
  { s with
    latestTorrentState := status.state
    finalTotalDoneBytes := status.totalDone
    finalTotalUploadBytes := status.totalUpload
    totalDownloadBytes := max 0 (status.totalDone - s.initialTotalDoneBytes)
    totalUploadBytes := max 0 (status.totalUpload - s.initialTotalUploadBytes)
    sessionDownloadRateSamples := s.sessionDownloadRateSamples ++ [(status.downloadRate : ℚ)]
    sessionUploadRateSamples := s.sessionUploadRateSamples ++ [(status.uploadRate : ℚ)]
    maxPeersObserved := max s.maxPeersObserved status.numPeers
    maxSeedsObserved := max s.maxSeedsObserved status.numSeeds }

def finalize (s : SessionStats) (finish : TimestampPair) : SessionStats :=
  { s.mapPeers (PeerStats.finalize finish) with
    endedUtc := finish.utcTs
    endMonoNs := finish.monoNs }

end SessionStats

end BtClient
