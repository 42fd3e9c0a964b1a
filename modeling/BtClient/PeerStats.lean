import BtClient.Util

/-!
# The record of one peer connection

`PeerStats` is the record that `peer_stats.hpp` keeps for one observed
connection, with the operations that `SessionStats` and `drain_alerts` apply to
it. A vector that is only appended to is a list, oldest sample first. Counters
are natural numbers and the 64-bit times and byte totals are integers.
-/

namespace BtClient

structure RequestKey where
  pieceIndex : Int
  blockIndex : Int
  deriving DecidableEq, Repr

namespace RequestKey

/-- `RequestKey::operator<`: first the piece, then the block. -/
instance : Ord RequestKey where
  compare := compareLex (compareOn RequestKey.pieceIndex) (compareOn RequestKey.blockIndex)

instance : Std.TransOrd RequestKey :=
  inferInstanceAs (Std.TransCmp
    (compareLex (compareOn RequestKey.pieceIndex) (compareOn RequestKey.blockIndex)))

instance : Std.LawfulEqOrd RequestKey where
  eq_of_compare {a b} h := by
    have hlex := h
    simp only [compare, compareLex, compareOn, Ordering.then_eq_eq] at hlex
    obtain ⟨hpiece, hblock⟩ := hlex
    have hp : a.pieceIndex = b.pieceIndex := Std.LawfulEqOrd.eq_of_compare hpiece
    have hb : a.blockIndex = b.blockIndex := Std.LawfulEqOrd.eq_of_compare hblock
    cases a
    cases b
    simp_all

end RequestKey

/-- `kIncomingRequestBurstGapMs` -/
def incomingRequestBurstGapMs : ℚ := 100

/-- `block_index_from_request` -/
def blockIndexFromRequest (request : PeerRequest) : Int :=
  if request.length ≤ 0 then 0 else request.start.tdiv request.length

/-- `peer_has_recent_activity` -/
def peerHasRecentActivity {A : Type} (peer : PeerInfo A) (downloadRate uploadRate : ℚ)
    (snapshotIntervalMs : Int) : Bool :=
  decide (0 < downloadRate)
    || decide (0 < uploadRate)
    || decide (0 < peer.downloadQueueLength)
    || decide (0 < peer.uploadQueueLength)
    || decide (totalMilliseconds peer.lastActive ≤ word (snapshotIntervalMs * 2))

/-- `EventPeerContext` -/
structure EventPeerContext where
  peerKey : String
  peerIp : String
  peerPort : ℕ
  direction : String
  transport : String
  deriving DecidableEq, Repr

structure PeerStats where
  peerKey : String
  endpointKey : String
  peerIp : String
  peerPort : ℕ := 0
  direction : String := "unknown"
  transport : String := "unknown"
  peerIdHex : String := "unknown"
  peerIdPrefixHex : String := ""
  clientName : ByteString := []
  observedFlags : Finset String := ∅
  observedSources : Finset String := ∅
  firstSeenUtc : String := ""
  lastSeenUtc : String := ""
  connectedUtc : String := ""
  disconnectedUtc : String := ""
  firstSeenMonoNs : Int := 0
  lastSeenMonoNs : Int := 0
  connectedMonoNs : Int := 0
  disconnectedMonoNs : Int := 0
  activeConnection : Bool := true
  sawConnectAlert : Bool := false
  stateFlagsInitialized : Bool := false
  remoteChoked : Bool := false
  localChoked : Bool := false
  snubbed : Bool := false
  interesting : Bool := false
  remoteInterested : Bool := false
  seed : Bool := false
  requestsSent : ℕ := 0
  blockResponsesReceived : ℕ := 0
  requestTimeouts : ℕ := 0
  requestsDropped : ℕ := 0
  piecesFinished : ℕ := 0
  incomingRequestsReceived : ℕ := 0
  blocksUploaded : ℕ := 0
  snubbedCount : ℕ := 0
  unsnubbedCount : ℕ := 0
  chokedCount : ℕ := 0
  unchokedCount : ℕ := 0
  weChokedCount : ℕ := 0
  weUnchokedCount : ℕ := 0
  totalDownloadBytes : Int := 0
  totalUploadBytes : Int := 0
  peakDownloadRateBps : ℚ := 0
  peakUploadRateBps : ℚ := 0
  firstRequestDelayMs : Option ℚ := none
  firstIncomingRequestDelayMs : Option ℚ := none
  firstBlockUploadDelayMs : Option ℚ := none
  lastRequestSentMonoNs : Option Int := none
  lastIncomingRequestMonoNs : Option Int := none
  lastBlockUploadedMonoNs : Option Int := none
  lastInteractionMonoNs : Option Int := none
  lastActivityWindowMonoNs : Option Int := none
  lastActivityWindowActive : Bool := true
  activeTimeNs : Int := 0
  idleTimeNs : Int := 0
  requestGapMsSamples : List ℚ := []
  blockLatencyMsSamples : List ℚ := []
  incomingRequestGapMsSamples : List ℚ := []
  blockUploadGapMsSamples : List ℚ := []
  requestToUploadLatencyMsSamples : List ℚ := []
  incomingRequestBurstSizeSamples : List ℚ := []
  incomingRequestBurstDurationMsSamples : List ℚ := []
  incomingRequestBurstIdleGapMsSamples : List ℚ := []
  interactionGapMsSamples : List ℚ := []
  downloadRateSamples : List ℚ := []
  uploadRateSamples : List ℚ := []
  outstandingDepthSamples : List ℚ := []
  outstandingRequests : Std.ExtTreeMap RequestKey Int := ∅
  pendingUploadRequests : Std.ExtTreeMap RequestKey (List Int) := ∅
  incomingRequestBurstActive : Bool := false
  currentIncomingRequestBurstSize : ℕ := 0
  currentIncomingRequestBurstStartMonoNs : Int := 0
  currentIncomingRequestBurstLastMonoNs : Int := 0

namespace PeerStats

/-- The constructor of `PeerStats`. -/
def new (peerKey endpointKey peerIp : String) (peerPort : ℕ) (ts : TimestampPair)
    (direction transport : String) : PeerStats where
  peerKey := peerKey
  endpointKey := endpointKey
  peerIp := peerIp
  peerPort := peerPort
  direction := direction
  transport := transport
  firstSeenUtc := ts.utcTs
  lastSeenUtc := ts.utcTs
  connectedUtc := ts.utcTs
  firstSeenMonoNs := ts.monoNs
  lastSeenMonoNs := ts.monoNs
  connectedMonoNs := ts.monoNs
  lastActivityWindowMonoNs := some ts.monoNs

def eventContext (p : PeerStats) : EventPeerContext where
  peerKey := p.peerKey
  peerIp := p.peerIp
  peerPort := p.peerPort
  direction := p.direction
  transport := p.transport

def markSeen (ts : TimestampPair) (p : PeerStats) : PeerStats :=
  { p with
    firstSeenMonoNs := if p.firstSeenMonoNs = 0 then ts.monoNs else p.firstSeenMonoNs
    firstSeenUtc := if p.firstSeenMonoNs = 0 then ts.utcTs else p.firstSeenUtc
    lastSeenMonoNs := ts.monoNs
    lastSeenUtc := ts.utcTs }

/-- `connected_duration_ns` -/
def connectedDurationNs (p : PeerStats) : Int :=
  let start := if p.connectedMonoNs ≠ 0 then p.connectedMonoNs else p.firstSeenMonoNs
  let finish := if p.disconnectedMonoNs ≠ 0 then p.disconnectedMonoNs else p.lastSeenMonoNs
  if start = 0 ∨ finish ≤ start then 0 else finish - start

/-- The sample that an event at `monoNs` adds after an earlier one. -/
def gapSample (last : Option Int) (monoNs : Int) : List ℚ :=
  match last with
  | some lastNs => [nsToMs (monoNs - lastNs)]
  | none => []

/-- The delay from the connect to the first event of a family; later events leave
it as it is. -/
def firstDelay (last : Option Int) (connectedMonoNs monoNs : Int) (current : Option ℚ) :
    Option ℚ :=
  match last with
  | some _ => current
  | none => if connectedMonoNs ≠ 0 then some (nsToMs (monoNs - connectedMonoNs)) else current

def noteInteraction (monoNs : Int) (p : PeerStats) : PeerStats :=
  { p with
    interactionGapMsSamples := p.interactionGapMsSamples ++
      gapSample (p.lastInteractionMonoNs.filter fun last => decide (last < monoNs)) monoNs
    lastInteractionMonoNs := some monoNs }

def flushIncomingRequestBurst (p : PeerStats) : PeerStats :=
  if p.incomingRequestBurstActive then
    { p with
      incomingRequestBurstSizeSamples :=
        p.incomingRequestBurstSizeSamples ++ [(p.currentIncomingRequestBurstSize : ℚ)]
      incomingRequestBurstDurationMsSamples :=
        p.incomingRequestBurstDurationMsSamples ++
          [nsToMs (p.currentIncomingRequestBurstLastMonoNs -
            p.currentIncomingRequestBurstStartMonoNs)]
      incomingRequestBurstActive := false
      currentIncomingRequestBurstSize := 0
      currentIncomingRequestBurstStartMonoNs := 0
      currentIncomingRequestBurstLastMonoNs := 0 }
  else p

/-- The assignments that open a burst at one request. -/
def startIncomingRequestBurst (monoNs : Int) (p : PeerStats) : PeerStats :=
  { p with
    incomingRequestBurstActive := true
    currentIncomingRequestBurstSize := 1
    currentIncomingRequestBurstStartMonoNs := monoNs
    currentIncomingRequestBurstLastMonoNs := monoNs }

/-- The assignments that add a request to the open burst. -/
def extendIncomingRequestBurst (monoNs : Int) (p : PeerStats) : PeerStats :=
  { p with
    currentIncomingRequestBurstSize := p.currentIncomingRequestBurstSize + 1
    currentIncomingRequestBurstLastMonoNs := monoNs }

def pushIncomingRequestBurstIdleGap (gapMs : ℚ) (p : PeerStats) : PeerStats :=
  { p with
    incomingRequestBurstIdleGapMsSamples := p.incomingRequestBurstIdleGapMsSamples ++ [gapMs] }

def noteIncomingRequestBurst (monoNs : Int) (p : PeerStats) : PeerStats :=
  let gapMs := nsToMs (monoNs - p.currentIncomingRequestBurstLastMonoNs)
  if !p.incomingRequestBurstActive then
    p.startIncomingRequestBurst monoNs
  else if gapMs ≤ incomingRequestBurstGapMs then
    p.extendIncomingRequestBurst monoNs
  else
    ((p.flushIncomingRequestBurst).pushIncomingRequestBurstIdleGap gapMs).startIncomingRequestBurst
      monoNs

def recordOutstandingDepth (depth : ℚ) (p : PeerStats) : PeerStats :=
  { p with outstandingDepthSamples := p.outstandingDepthSamples ++ [depth] }

/-- The part of the time up to `monoNs` that the activity window still has to
account for. -/
def unaccountedNs (last : Option Int) (monoNs : Int) : Int :=
  match last with
  | some lastNs => if lastNs < monoNs then monoNs - lastNs else 0
  | none => 0

def advanceActivityWindow (monoNs : Int) (activeNow : Bool) (p : PeerStats) : PeerStats :=
  let delta := unaccountedNs p.lastActivityWindowMonoNs monoNs
  { p with
    activeTimeNs := p.activeTimeNs + if p.lastActivityWindowActive then delta else 0
    idleTimeNs := p.idleTimeNs + if p.lastActivityWindowActive then 0 else delta
    lastActivityWindowMonoNs := some monoNs
    lastActivityWindowActive := activeNow }

/-- The early guesses of `note_connect`: they count only until the alert gives
the authoritative direction and transport. -/
def guessSocket (direction transport : String) (p : PeerStats) : PeerStats :=
  { p with
    direction := if direction ≠ "" ∧ p.direction = "unknown" then direction else p.direction
    transport := if transport ≠ "" ∧ p.transport = "unknown" then transport else p.transport }

/-- The part of `note_connect` that opens the connection and its clocks. -/
def openConnection (ts : TimestampPair) (p : PeerStats) : PeerStats :=
  { p with
    activeConnection := true
    connectedMonoNs := if p.connectedMonoNs = 0 then ts.monoNs else p.connectedMonoNs
    connectedUtc := if p.connectedMonoNs = 0 then ts.utcTs else p.connectedUtc
    lastActivityWindowMonoNs := some (p.lastActivityWindowMonoNs.getD ts.monoNs) }

/-- The authoritative values of the connect alert. -/
def setSocket (direction transport : String) (p : PeerStats) : PeerStats :=
  { p with sawConnectAlert := true, direction := direction, transport := transport }

def noteConnect (ts : TimestampPair) (direction transport : String) (fromConnectAlert : Bool)
    (p : PeerStats) : PeerStats :=
  let p := p.markSeen ts
  let p := if !fromConnectAlert || !p.sawConnectAlert then p.guessSocket direction transport
    else p
  let p := p.openConnection ts
  if fromConnectAlert then p.setSocket direction transport else p

def noteDisconnect (ts : TimestampPair) (p : PeerStats) : PeerStats :=
  let p := p.markSeen ts
  let p := p.flushIncomingRequestBurst
  let p := p.advanceActivityWindow ts.monoNs false
  let p := { p with
    disconnectedMonoNs := ts.monoNs
    disconnectedUtc := ts.utcTs
    activeConnection := false
    outstandingRequests := ∅
    pendingUploadRequests := ∅ }
  p.recordOutstandingDepth 0

def notePeerId (pid : PeerId) (p : PeerStats) : PeerStats :=
  let hex := peerIdToHex pid
  let prefixHex := peerIdPrefix pid
  { p with
    peerIdHex := if hex = "unknown" then p.peerIdHex else hex
    peerIdPrefixHex :=
      if hex = "unknown" ∨ prefixHex = "" then p.peerIdPrefixHex else prefixHex }

def noteRequestSent (ts : TimestampPair) (pieceIndex blockIndex : Int) (p : PeerStats) :
    PeerStats :=
  let p := p.markSeen ts
  let p := p.noteInteraction ts.monoNs
  let p := { p with
    requestsSent := p.requestsSent + 1
    requestGapMsSamples :=
      p.requestGapMsSamples ++ gapSample p.lastRequestSentMonoNs ts.monoNs
    firstRequestDelayMs :=
      firstDelay p.lastRequestSentMonoNs p.connectedMonoNs ts.monoNs p.firstRequestDelayMs
    lastRequestSentMonoNs := some ts.monoNs
    outstandingRequests := p.outstandingRequests.insert ⟨pieceIndex, blockIndex⟩ ts.monoNs }
  p.recordOutstandingDepth p.outstandingRequests.size

def noteBlockResponse (ts : TimestampPair) (pieceIndex blockIndex : Int) (p : PeerStats) :
    PeerStats :=
  let p := p.markSeen ts
  let p := p.noteInteraction ts.monoNs
  let key : RequestKey := ⟨pieceIndex, blockIndex⟩
  let p := { p with
    blockResponsesReceived := p.blockResponsesReceived + 1
    blockLatencyMsSamples :=
      p.blockLatencyMsSamples ++ gapSample p.outstandingRequests[key]? ts.monoNs
    outstandingRequests := p.outstandingRequests.erase key }
  p.recordOutstandingDepth p.outstandingRequests.size

def noteTimeout (ts : TimestampPair) (pieceIndex blockIndex : Int) (p : PeerStats) :
    PeerStats :=
  let p := p.markSeen ts
  let p := p.noteInteraction ts.monoNs
  let p := { p with
    requestTimeouts := p.requestTimeouts + 1
    outstandingRequests := p.outstandingRequests.erase ⟨pieceIndex, blockIndex⟩ }
  p.recordOutstandingDepth p.outstandingRequests.size

def noteDrop (ts : TimestampPair) (pieceIndex blockIndex : Int) (p : PeerStats) : PeerStats :=
  let p := p.markSeen ts
  let p := p.noteInteraction ts.monoNs
  let p := { p with
    requestsDropped := p.requestsDropped + 1
    outstandingRequests := p.outstandingRequests.erase ⟨pieceIndex, blockIndex⟩ }
  p.recordOutstandingDepth p.outstandingRequests.size

/-- The last statement of `note_incoming_request`: the request waits for its upload. -/
def queueUploadRequest (ts : TimestampPair) (key : RequestKey) (p : PeerStats) : PeerStats :=
  let queue := (p.pendingUploadRequests[key]?).getD []
  { p with
    pendingUploadRequests := p.pendingUploadRequests.insert key (queue ++ [ts.monoNs]) }

/-- The counter and the pacing fields of `note_incoming_request`. -/
def paceIncomingRequest (ts : TimestampPair) (p : PeerStats) : PeerStats :=
  { p with
    incomingRequestsReceived := p.incomingRequestsReceived + 1
    incomingRequestGapMsSamples :=
      p.incomingRequestGapMsSamples ++ gapSample p.lastIncomingRequestMonoNs ts.monoNs
    firstIncomingRequestDelayMs :=
      firstDelay p.lastIncomingRequestMonoNs p.connectedMonoNs ts.monoNs
        p.firstIncomingRequestDelayMs
    lastIncomingRequestMonoNs := some ts.monoNs }

def noteIncomingRequest (ts : TimestampPair) (request : PeerRequest) (p : PeerStats) :
    PeerStats :=
  let p := p.markSeen ts
  let p := p.noteInteraction ts.monoNs
  let p := p.paceIncomingRequest ts
  let p := p.noteIncomingRequestBurst ts.monoNs
  p.queueUploadRequest ts ⟨request.piece, blockIndexFromRequest request⟩

/-- The tail of `note_block_uploaded`: an upload answers the oldest pending
request for its block. -/
def matchUploadRequest (ts : TimestampPair) (key : RequestKey) (p : PeerStats) : PeerStats :=
  { p with
    requestToUploadLatencyMsSamples := p.requestToUploadLatencyMsSamples ++
      match p.pendingUploadRequests[key]? with
      | some (requestNs :: _) =>
          if requestNs ≤ ts.monoNs then [nsToMs (ts.monoNs - requestNs)] else []
      | _ => []
    pendingUploadRequests :=
      match p.pendingUploadRequests[key]? with
      | some (_ :: rest) =>
          if rest.isEmpty then p.pendingUploadRequests.erase key
          else p.pendingUploadRequests.insert key rest
      | _ => p.pendingUploadRequests }

def noteBlockUploaded (ts : TimestampPair) (pieceIndex blockIndex : Int) (p : PeerStats) :
    PeerStats :=
  let p := p.markSeen ts
  let p := p.noteInteraction ts.monoNs
  let p := { p with
    blocksUploaded := p.blocksUploaded + 1
    blockUploadGapMsSamples :=
      p.blockUploadGapMsSamples ++ gapSample p.lastBlockUploadedMonoNs ts.monoNs
    firstBlockUploadDelayMs :=
      firstDelay p.lastBlockUploadedMonoNs p.connectedMonoNs ts.monoNs p.firstBlockUploadDelayMs
    lastBlockUploadedMonoNs := some ts.monoNs }
  p.matchUploadRequest ts ⟨pieceIndex, blockIndex⟩

def noteSnubbed (ts : TimestampPair) (p : PeerStats) : PeerStats :=
  let p := p.markSeen ts
  let p := p.noteInteraction ts.monoNs
  { p with snubbedCount := p.snubbedCount + 1, snubbed := true }

def noteUnsnubbed (ts : TimestampPair) (p : PeerStats) : PeerStats :=
  let p := p.markSeen ts
  let p := p.noteInteraction ts.monoNs
  { p with unsnubbedCount := p.unsnubbedCount + 1, snubbed := false }

/-- The direction that the flags of a `peer_info` suggest. -/
def directionFromPeerInfo {A : Type} (peer : PeerInfo A) : String :=
  if hasFlag peer.flags .outgoingConnection then "outbound"
  else if hasFlag peer.source .incoming then "inbound"
  else "unknown"

def snapshotDownloadRate {A : Type} (peer : PeerInfo A) : ℚ :=
  if 0 < peer.payloadDownSpeed then peer.payloadDownSpeed else peer.downSpeed

def snapshotUploadRate {A : Type} (peer : PeerInfo A) : ℚ :=
  if 0 < peer.payloadUpSpeed then peer.payloadUpSpeed else peer.upSpeed

/-- The part of `update_from_snapshot` that fills in what alerts leave out. -/
def noteSnapshotDetails {A : Type} (peer : PeerInfo A) (p : PeerStats) : PeerStats :=
  { p with
    clientName := if peer.client = [] then p.clientName else peer.client
    direction := if p.direction = "unknown" then directionFromPeerInfo peer else p.direction
    transport := if p.transport = "unknown" then transportFromPeerInfo peer else p.transport
    observedFlags := (peerFlagLabels peer).foldl (fun s label => insert label s) p.observedFlags
    observedSources :=
      (peerSourceLabels peer).foldl (fun s label => insert label s) p.observedSources }

/-- The part of `update_from_snapshot` that records byte totals and rates. -/
def noteSnapshotTraffic {A : Type} (peer : PeerInfo A) (p : PeerStats) : PeerStats :=
  { p with
    totalDownloadBytes := peer.totalDownload
    totalUploadBytes := peer.totalUpload
    downloadRateSamples := p.downloadRateSamples ++ [snapshotDownloadRate peer]
    uploadRateSamples := p.uploadRateSamples ++ [snapshotUploadRate peer]
    peakDownloadRateBps :=
      max p.peakDownloadRateBps (max (snapshotDownloadRate peer) (peer.downloadRatePeak : ℚ))
    peakUploadRateBps :=
      max p.peakUploadRateBps (max (snapshotUploadRate peer) (peer.uploadRatePeak : ℚ)) }

/-- The choke transitions of `update_from_snapshot`: the first snapshot only
initialises the remembered flags. -/
def noteSnapshotTransitions (remoteChokedNow localChokedNow : Bool) (p : PeerStats) :
    PeerStats :=
  let known := p.stateFlagsInitialized
  { p with
    chokedCount := p.chokedCount + (known && !p.remoteChoked && remoteChokedNow).toNat
    unchokedCount := p.unchokedCount + (known && p.remoteChoked && !remoteChokedNow).toNat
    weChokedCount := p.weChokedCount + (known && !p.localChoked && localChokedNow).toNat
    weUnchokedCount := p.weUnchokedCount + (known && p.localChoked && !localChokedNow).toNat
    stateFlagsInitialized := true }

/-- The part of `update_from_snapshot` that remembers the connection flags. -/
def noteSnapshotFlags {A : Type} (peer : PeerInfo A) (p : PeerStats) : PeerStats :=
  { p with
    remoteChoked := hasFlag peer.flags .remoteChoked
    localChoked := hasFlag peer.flags .choked
    snubbed := hasFlag peer.flags .snubbed
    interesting := hasFlag peer.flags .interesting
    remoteInterested := hasFlag peer.flags .remoteInterested
    seed := hasFlag peer.flags .seed }

/-- No interaction is known, or the last one is at least a snapshot interval ago. -/
def snapshotInteractionDue (last : Option Int) (snapshotIntervalMs monoNs : Int) : Bool :=
  match last with
  | some lastNs => decide (word (snapshotIntervalMs * 1000000) ≤ monoNs - lastNs)
  | none => true

/-- The interaction that an active snapshot stands for. -/
def noteSnapshotInteraction (ts : TimestampPair) (snapshotIntervalMs : Int) (activeNow : Bool)
    (p : PeerStats) : PeerStats :=
  if activeNow && snapshotInteractionDue p.lastInteractionMonoNs snapshotIntervalMs ts.monoNs
  then p.noteInteraction ts.monoNs
  else p

def updateFromSnapshot {A : Type} (peer : PeerInfo A) (ts : TimestampPair)
    (snapshotIntervalMs : Int) (p : PeerStats) : PeerStats :=
  let p := p.markSeen ts
  let p := p.notePeerId peer.pid
  let p := p.noteSnapshotDetails peer
  let p := p.noteSnapshotTraffic peer
  let p := p.recordOutstandingDepth
    (max (p.outstandingRequests.size : ℚ) (peer.downloadQueueLength : ℚ))
  let p := p.noteSnapshotTransitions (hasFlag peer.flags .remoteChoked)
    (hasFlag peer.flags .choked)
  let p := p.noteSnapshotFlags peer
  let activeNow := peerHasRecentActivity peer (snapshotDownloadRate peer)
    (snapshotUploadRate peer) snapshotIntervalMs
  let p := p.advanceActivityWindow ts.monoNs activeNow
  p.noteSnapshotInteraction ts snapshotIntervalMs activeNow

def finalize (sessionEnd : TimestampPair) (p : PeerStats) : PeerStats :=
  let p := p.flushIncomingRequestBurst
  if p.activeConnection then p.noteDisconnect sessionEnd
  else if p.lastActivityWindowMonoNs.isSome then
    p.advanceActivityWindow sessionEnd.monoNs false
  else p

def resetOutstandingRequests (p : PeerStats) : PeerStats :=
  let p := { p with outstandingRequests := ∅, pendingUploadRequests := ∅ }
  p.recordOutstandingDepth 0

end PeerStats

end BtClient
