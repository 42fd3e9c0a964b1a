import BtClient.PeerCore

/-!
# The part of a record that measures

`RecordFlow` is the part of a `PeerStats` that its measurements come from: the open
requests in both directions, the bursts and gaps of incoming requests and the clocks of
the connection. The operations on a record are described by what they do to this part, so
that nothing about the other fields has to be looked at again.
-/

namespace BtClient

/-- The requests that wait for their block, and the samples taken from them. -/
structure RequestState where
  outstanding : Std.ExtTreeMap RequestKey Int
  latencyMsSamples : List ℚ
  depthSamples : List ℚ

/-- The incoming requests that wait for their upload. -/
structure UploadState where
  pending : Std.ExtTreeMap RequestKey (List Int)
  latencyMsSamples : List ℚ

/-- The bursts of incoming requests. -/
structure BurstState where
  sizeSamples : List ℚ
  durationMsSamples : List ℚ
  idleGapMsSamples : List ℚ
  active : Bool
  size : ℕ
  startMonoNs : Int
  lastMonoNs : Int

/-- The gaps between incoming requests. -/
structure PacingState where
  gapMsSamples : List ℚ
  lastMonoNs : Option Int

/-- The clocks of the connection. -/
structure ActivityState where
  firstSeenMonoNs : Int
  lastSeenMonoNs : Int
  connectedMonoNs : Int
  disconnectedMonoNs : Int
  windowMonoNs : Option Int
  windowActive : Bool
  activeTimeNs : Int
  idleTimeNs : Int

structure RecordFlow where
  active : Bool
  requests : RequestState
  uploads : UploadState
  burst : BurstState
  pacing : PacingState
  activity : ActivityState

def PeerStats.flow (p : PeerStats) : RecordFlow where
  active := p.activeConnection
  requests := ⟨p.outstandingRequests, p.blockLatencyMsSamples, p.outstandingDepthSamples⟩
  uploads := ⟨p.pendingUploadRequests, p.requestToUploadLatencyMsSamples⟩
  burst := ⟨p.incomingRequestBurstSizeSamples, p.incomingRequestBurstDurationMsSamples,
    p.incomingRequestBurstIdleGapMsSamples, p.incomingRequestBurstActive,
    p.currentIncomingRequestBurstSize, p.currentIncomingRequestBurstStartMonoNs,
    p.currentIncomingRequestBurstLastMonoNs⟩
  pacing := ⟨p.incomingRequestGapMsSamples, p.lastIncomingRequestMonoNs⟩
  activity := ⟨p.firstSeenMonoNs, p.lastSeenMonoNs, p.connectedMonoNs, p.disconnectedMonoNs,
    p.lastActivityWindowMonoNs, p.lastActivityWindowActive, p.activeTimeNs, p.idleTimeNs⟩

/-! ### The changes of each part -/

namespace RequestState

def recordDepth (depth : ℚ) (r : RequestState) : RequestState :=
  { r with depthSamples := r.depthSamples ++ [depth] }

/-- The number of outstanding requests is recorded. -/
def recordSize (r : RequestState) : RequestState := r.recordDepth r.outstanding.size

def request (key : RequestKey) (monoNs : Int) (r : RequestState) : RequestState :=
  { r with outstanding := r.outstanding.insert key monoNs }

def answer (key : RequestKey) (monoNs : Int) (r : RequestState) : RequestState :=
  { r with
    latencyMsSamples :=
      r.latencyMsSamples ++ PeerStats.gapSample r.outstanding[key]? monoNs
    outstanding := r.outstanding.erase key }

def cancel (key : RequestKey) (r : RequestState) : RequestState :=
  { r with outstanding := r.outstanding.erase key }

def clear (r : RequestState) : RequestState := { r with outstanding := ∅ }

end RequestState

namespace UploadState

def queue (key : RequestKey) (monoNs : Int) (u : UploadState) : UploadState :=
  { u with pending := u.pending.insert key ((u.pending[key]?).getD [] ++ [monoNs]) }

/-- An upload answers the oldest pending request for its block. -/
def answer (key : RequestKey) (monoNs : Int) (u : UploadState) : UploadState where
  latencyMsSamples := u.latencyMsSamples ++
    match u.pending[key]? with
    | some (requestNs :: _) =>
        if requestNs ≤ monoNs then [nsToMs (monoNs - requestNs)] else []
    | _ => []
  pending :=
    match u.pending[key]? with
    | some (_ :: rest) =>
        if rest.isEmpty then u.pending.erase key else u.pending.insert key rest
    | _ => u.pending

def clear (u : UploadState) : UploadState := { u with pending := ∅ }

end UploadState

namespace BurstState

def flush (b : BurstState) : BurstState :=
  if b.active then
    { b with
      sizeSamples := b.sizeSamples ++ [(b.size : ℚ)]
      durationMsSamples := b.durationMsSamples ++ [nsToMs (b.lastMonoNs - b.startMonoNs)]
      active := false
      size := 0
      startMonoNs := 0
      lastMonoNs := 0 }
  else b

def start (monoNs : Int) (b : BurstState) : BurstState :=
  { b with active := true, size := 1, startMonoNs := monoNs, lastMonoNs := monoNs }

def note (monoNs : Int) (b : BurstState) : BurstState :=
  let gapMs := nsToMs (monoNs - b.lastMonoNs)
  if !b.active then b.start monoNs
  else if gapMs ≤ incomingRequestBurstGapMs then
    { b with size := b.size + 1, lastMonoNs := monoNs }
  else
    { b.flush with idleGapMsSamples := b.flush.idleGapMsSamples ++ [gapMs] }.start monoNs

end BurstState

def PacingState.note (monoNs : Int) (s : PacingState) : PacingState where
  gapMsSamples := s.gapMsSamples ++ PeerStats.gapSample s.lastMonoNs monoNs
  lastMonoNs := some monoNs

namespace ActivityState

def seen (monoNs : Int) (a : ActivityState) : ActivityState :=
  { a with
    firstSeenMonoNs := if a.firstSeenMonoNs = 0 then monoNs else a.firstSeenMonoNs
    lastSeenMonoNs := monoNs }

def connect (monoNs : Int) (a : ActivityState) : ActivityState :=
  { a with
    connectedMonoNs := if a.connectedMonoNs = 0 then monoNs else a.connectedMonoNs
    windowMonoNs := some (a.windowMonoNs.getD monoNs) }

def advance (monoNs : Int) (activeNow : Bool) (a : ActivityState) : ActivityState :=
  let delta := PeerStats.unaccountedNs a.windowMonoNs monoNs
  { a with
    activeTimeNs := a.activeTimeNs + if a.windowActive then delta else 0
    idleTimeNs := a.idleTimeNs + if a.windowActive then 0 else delta
    windowMonoNs := some monoNs
    windowActive := activeNow }

def disconnect (monoNs : Int) (a : ActivityState) : ActivityState :=
  { (a.seen monoNs).advance monoNs false with disconnectedMonoNs := monoNs }

end ActivityState

namespace RecordFlow

def disconnect (monoNs : Int) (f : RecordFlow) : RecordFlow where
  active := false
  requests := f.requests.clear.recordSize
  uploads := f.uploads.clear
  burst := f.burst.flush
  pacing := f.pacing
  activity := f.activity.disconnect monoNs

def reset (f : RecordFlow) : RecordFlow :=
  { f with requests := f.requests.clear.recordSize, uploads := f.uploads.clear }

def finalize (monoNs : Int) (f : RecordFlow) : RecordFlow :=
  if f.active then { f with burst := f.burst.flush }.disconnect monoNs
  else
    { f with
      burst := f.burst.flush
      activity :=
        if f.activity.windowMonoNs.isSome then f.activity.advance monoNs false else f.activity }

end RecordFlow

/-! ### The operations on a record -/

namespace PeerStats

@[simp] theorem flow_markSeen (ts : TimestampPair) (p : PeerStats) :
    (p.markSeen ts).flow = { p.flow with activity := p.flow.activity.seen ts.monoNs } := rfl

@[simp] theorem flow_noteInteraction (monoNs : Int) (p : PeerStats) :
    (p.noteInteraction monoNs).flow = p.flow := rfl

@[simp] theorem flow_notePeerId (pid : PeerId) (p : PeerStats) :
    (p.notePeerId pid).flow = p.flow := rfl

@[simp] theorem flow_setPiecesFinished (n : ℕ) (p : PeerStats) :
    (p.setPiecesFinished n).flow = p.flow := rfl

@[simp] theorem flow_flushIncomingRequestBurst (p : PeerStats) :
    p.flushIncomingRequestBurst.flow = { p.flow with burst := p.flow.burst.flush } := by
  have hactive : p.flow.burst.active = p.incomingRequestBurstActive := rfl
  unfold flushIncomingRequestBurst
  rw [BurstState.flush, hactive]
  split <;> rfl

@[simp] theorem flow_startIncomingRequestBurst (monoNs : Int) (p : PeerStats) :
    (p.startIncomingRequestBurst monoNs).flow =
      { p.flow with burst := p.flow.burst.start monoNs } := rfl

@[simp] theorem flow_noteIncomingRequestBurst (monoNs : Int) (p : PeerStats) :
    (p.noteIncomingRequestBurst monoNs).flow =
      { p.flow with burst := p.flow.burst.note monoNs } := by
  have hactive : p.flow.burst.active = p.incomingRequestBurstActive := rfl
  have hlast : p.flow.burst.lastMonoNs = p.currentIncomingRequestBurstLastMonoNs := rfl
  have hpush : ∀ (gapMs : ℚ) (q : PeerStats), (q.pushIncomingRequestBurstIdleGap gapMs).flow =
      { q.flow with burst := { q.flow.burst with
          idleGapMsSamples := q.flow.burst.idleGapMsSamples ++ [gapMs] } } := fun _ _ => rfl
  simp only [noteIncomingRequestBurst, BurstState.note, hactive, hlast]
  split
  · rfl
  · split
    · rfl
    · rw [flow_startIncomingRequestBurst, hpush, flow_flushIncomingRequestBurst]

@[simp] theorem flow_recordOutstandingDepth (depth : ℚ) (p : PeerStats) :
    (p.recordOutstandingDepth depth).flow =
      { p.flow with requests := p.flow.requests.recordDepth depth } := rfl

@[simp] theorem flow_advanceActivityWindow (monoNs : Int) (activeNow : Bool)
    (p : PeerStats) :
    (p.advanceActivityWindow monoNs activeNow).flow =
      { p.flow with activity := p.flow.activity.advance monoNs activeNow } := rfl

@[simp] theorem flow_paceIncomingRequest (ts : TimestampPair) (p : PeerStats) :
    (p.paceIncomingRequest ts).flow =
      { p.flow with pacing := p.flow.pacing.note ts.monoNs } := rfl

@[simp] theorem flow_queueUploadRequest (ts : TimestampPair) (key : RequestKey)
    (p : PeerStats) :
    (p.queueUploadRequest ts key).flow =
      { p.flow with uploads := p.flow.uploads.queue key ts.monoNs } := rfl

@[simp] theorem flow_matchUploadRequest (ts : TimestampPair) (key : RequestKey)
    (p : PeerStats) :
    (p.matchUploadRequest ts key).flow =
      { p.flow with uploads := p.flow.uploads.answer key ts.monoNs } := rfl

@[simp] theorem flow_guessSocket (direction transport : String) (p : PeerStats) :
    (p.guessSocket direction transport).flow = p.flow := rfl

@[simp] theorem flow_openConnection (ts : TimestampPair) (p : PeerStats) :
    (p.openConnection ts).flow =
      { p.flow with active := true, activity := p.flow.activity.connect ts.monoNs } := rfl

@[simp] theorem flow_setSocket (direction transport : String) (p : PeerStats) :
    (p.setSocket direction transport).flow = p.flow := rfl

@[simp] theorem flow_noteConnect (ts : TimestampPair) (direction transport : String)
    (fromConnectAlert : Bool) (p : PeerStats) :
    (p.noteConnect ts direction transport fromConnectAlert).flow =
      { p.flow with
        active := true
        activity := (p.flow.activity.seen ts.monoNs).connect ts.monoNs } := by
  simp only [noteConnect]
  split
  · split <;> simp
  · split <;> simp

@[simp] theorem flow_noteDisconnect (ts : TimestampPair) (p : PeerStats) :
    (p.noteDisconnect ts).flow = p.flow.disconnect ts.monoNs := by
  have hclose : ∀ q : PeerStats, (recordOutstandingDepth 0 { q with
      disconnectedMonoNs := ts.monoNs
      disconnectedUtc := ts.utcTs
      activeConnection := false
      outstandingRequests := ∅
      pendingUploadRequests := ∅ }).flow =
      { q.flow with
        active := false
        requests := q.flow.requests.clear.recordSize
        uploads := q.flow.uploads.clear
        activity := { q.flow.activity with disconnectedMonoNs := ts.monoNs } } := by
    intro q
    simp [flow, recordOutstandingDepth, RequestState.recordSize, RequestState.recordDepth,
      RequestState.clear, UploadState.clear]
  have hflow := hclose (((p.markSeen ts).flushIncomingRequestBurst).advanceActivityWindow
    ts.monoNs false)
  rw [flow_advanceActivityWindow, flow_flushIncomingRequestBurst, flow_markSeen] at hflow
  exact hflow

@[simp] theorem flow_resetOutstandingRequests (p : PeerStats) :
    p.resetOutstandingRequests.flow = p.flow.reset := by
  simp [flow, resetOutstandingRequests, recordOutstandingDepth, RecordFlow.reset,
    RequestState.recordSize, RequestState.recordDepth, RequestState.clear, UploadState.clear]

@[simp] theorem flow_finalize (sessionEnd : TimestampPair) (p : PeerStats) :
    (p.finalize sessionEnd).flow = p.flow.finalize sessionEnd.monoNs := by
  have hactive : p.flushIncomingRequestBurst.activeConnection = p.flow.active :=
    congrArg RecordFlow.active (flow_flushIncomingRequestBurst p)
  have hwindow : p.flushIncomingRequestBurst.lastActivityWindowMonoNs =
      p.flow.activity.windowMonoNs :=
    congrArg (fun f => f.activity.windowMonoNs) (flow_flushIncomingRequestBurst p)
  simp only [finalize, RecordFlow.finalize, hactive, hwindow]
  split
  · rw [flow_noteDisconnect, flow_flushIncomingRequestBurst]
  · split
    · rw [flow_advanceActivityWindow, flow_flushIncomingRequestBurst]
    · rw [flow_flushIncomingRequestBurst]

theorem flow_noteRequestSent (ts : TimestampPair) (pieceIndex blockIndex : Int)
    (p : PeerStats) :
    (p.noteRequestSent ts pieceIndex blockIndex).flow =
      { p.flow with
        activity := p.flow.activity.seen ts.monoNs
        requests :=
          (p.flow.requests.request ⟨pieceIndex, blockIndex⟩ ts.monoNs).recordSize } := rfl

theorem flow_noteBlockResponse (ts : TimestampPair) (pieceIndex blockIndex : Int)
    (p : PeerStats) :
    (p.noteBlockResponse ts pieceIndex blockIndex).flow =
      { p.flow with
        activity := p.flow.activity.seen ts.monoNs
        requests :=
          (p.flow.requests.answer ⟨pieceIndex, blockIndex⟩ ts.monoNs).recordSize } := rfl

theorem flow_noteTimeout (ts : TimestampPair) (pieceIndex blockIndex : Int) (p : PeerStats) :
    (p.noteTimeout ts pieceIndex blockIndex).flow =
      { p.flow with
        activity := p.flow.activity.seen ts.monoNs
        requests := (p.flow.requests.cancel ⟨pieceIndex, blockIndex⟩).recordSize } := rfl

theorem flow_noteDrop (ts : TimestampPair) (pieceIndex blockIndex : Int) (p : PeerStats) :
    (p.noteDrop ts pieceIndex blockIndex).flow =
      { p.flow with
        activity := p.flow.activity.seen ts.monoNs
        requests := (p.flow.requests.cancel ⟨pieceIndex, blockIndex⟩).recordSize } := rfl

theorem flow_noteIncomingRequest (ts : TimestampPair) (request : PeerRequest)
    (p : PeerStats) :
    (p.noteIncomingRequest ts request).flow =
      { p.flow with
        activity := p.flow.activity.seen ts.monoNs
        pacing := p.flow.pacing.note ts.monoNs
        burst := p.flow.burst.note ts.monoNs
        uploads := p.flow.uploads.queue ⟨request.piece, blockIndexFromRequest request⟩
          ts.monoNs } := by
  simp [noteIncomingRequest]

theorem flow_noteBlockUploaded (ts : TimestampPair) (pieceIndex blockIndex : Int)
    (p : PeerStats) :
    (p.noteBlockUploaded ts pieceIndex blockIndex).flow =
      { p.flow with
        activity := p.flow.activity.seen ts.monoNs
        uploads := p.flow.uploads.answer ⟨pieceIndex, blockIndex⟩ ts.monoNs } := rfl

theorem flow_noteSnubbed (ts : TimestampPair) (p : PeerStats) :
    (p.noteSnubbed ts).flow = { p.flow with activity := p.flow.activity.seen ts.monoNs } := rfl

theorem flow_noteUnsnubbed (ts : TimestampPair) (p : PeerStats) :
    (p.noteUnsnubbed ts).flow =
      { p.flow with activity := p.flow.activity.seen ts.monoNs } := rfl

@[simp] theorem flow_noteSnapshotDetails {A : Type} (peer : PeerInfo A) (p : PeerStats) :
    (p.noteSnapshotDetails peer).flow = p.flow := rfl

@[simp] theorem flow_noteSnapshotTraffic {A : Type} (peer : PeerInfo A) (p : PeerStats) :
    (p.noteSnapshotTraffic peer).flow = p.flow := rfl

@[simp] theorem flow_noteSnapshotTransitions (remoteChokedNow localChokedNow : Bool)
    (p : PeerStats) :
    (p.noteSnapshotTransitions remoteChokedNow localChokedNow).flow = p.flow := rfl

@[simp] theorem flow_noteSnapshotFlags {A : Type} (peer : PeerInfo A) (p : PeerStats) :
    (p.noteSnapshotFlags peer).flow = p.flow := rfl

@[simp] theorem flow_noteSnapshotInteraction (ts : TimestampPair) (snapshotIntervalMs : Int)
    (activeNow : Bool) (p : PeerStats) :
    (p.noteSnapshotInteraction ts snapshotIntervalMs activeNow).flow = p.flow := by
  unfold noteSnapshotInteraction
  split
  · rfl
  · rfl

/-- Whether a snapshot shows activity. -/
def snapshotActive {A : Type} (peer : PeerInfo A) (snapshotIntervalMs : Int) : Bool :=
  peerHasRecentActivity peer (snapshotDownloadRate peer) (snapshotUploadRate peer)
    snapshotIntervalMs

theorem flow_updateFromSnapshot {A : Type} (peer : PeerInfo A) (ts : TimestampPair)
    (snapshotIntervalMs : Int) (p : PeerStats) :
    (p.updateFromSnapshot peer ts snapshotIntervalMs).flow =
      { p.flow with
        requests := p.flow.requests.recordDepth
          (max (p.flow.requests.outstanding.size : ℚ) (peer.downloadQueueLength : ℚ))
        activity := (p.flow.activity.seen ts.monoNs).advance ts.monoNs
          (snapshotActive peer snapshotIntervalMs) } := by
  have houtstanding : ((((p.markSeen ts).notePeerId peer.pid).noteSnapshotDetails
      peer).noteSnapshotTraffic peer).outstandingRequests = p.flow.requests.outstanding := rfl
  simp only [updateFromSnapshot, flow_noteSnapshotInteraction, flow_advanceActivityWindow,
    flow_noteSnapshotFlags, flow_noteSnapshotTransitions, flow_recordOutstandingDepth,
    flow_noteSnapshotTraffic, flow_noteSnapshotDetails, flow_notePeerId, flow_markSeen,
    houtstanding]
  rfl

end PeerStats

end BtClient
