import BtClient.PeerStats

/-!
# The part of a record that identifies a connection and counts its events

`PeerCore` is the part of a `PeerStats` that the session-wide bookkeeping
depends on: the two keys, the connection flags, the eight event counters that
`drain_alerts` advances and the byte totals of the latest snapshot. Every
operation on a record is described here by what it does to the core, so that
the pacing and sample fields never have to be looked at again.

`setPiecesFinished` singles out the one field that is written from outside the
connection's own events; every operation on a record commutes with it.
-/

namespace BtClient

/-- The event counters that one call on a record advances. -/
inductive CounterKind where
  | requestSent | blockResponse | timeout | drop
  | incomingRequest | blockUploaded | snubbed | unsnubbed
  deriving DecidableEq, Repr

/-- The calls that `drain_alerts` makes on the record `note_peer_event` returns. -/
inductive PeerCall where
  | requestSent (pieceIndex blockIndex : Int)
  | blockResponse (pieceIndex blockIndex : Int)
  | timeout (pieceIndex blockIndex : Int)
  | drop (pieceIndex blockIndex : Int)
  | incomingRequest (request : PeerRequest)
  | blockUploaded (pieceIndex blockIndex : Int)
  | snubbed
  | unsnubbed

def PeerCall.kind : PeerCall → CounterKind
  | .requestSent _ _ => .requestSent
  | .blockResponse _ _ => .blockResponse
  | .timeout _ _ => .timeout
  | .drop _ _ => .drop
  | .incomingRequest _ => .incomingRequest
  | .blockUploaded _ _ => .blockUploaded
  | .snubbed => .snubbed
  | .unsnubbed => .unsnubbed

namespace PeerStats

def call (ts : TimestampPair) : PeerCall → PeerStats → PeerStats
  | .requestSent pieceIndex blockIndex => noteRequestSent ts pieceIndex blockIndex
  | .blockResponse pieceIndex blockIndex => noteBlockResponse ts pieceIndex blockIndex
  | .timeout pieceIndex blockIndex => noteTimeout ts pieceIndex blockIndex
  | .drop pieceIndex blockIndex => noteDrop ts pieceIndex blockIndex
  | .incomingRequest request => noteIncomingRequest ts request
  | .blockUploaded pieceIndex blockIndex => noteBlockUploaded ts pieceIndex blockIndex
  | .snubbed => noteSnubbed ts
  | .unsnubbed => noteUnsnubbed ts

/-- The event counter of the given kind. -/
def counter (p : PeerStats) : CounterKind → ℕ
  | .requestSent => p.requestsSent
  | .blockResponse => p.blockResponsesReceived
  | .timeout => p.requestTimeouts
  | .drop => p.requestsDropped
  | .incomingRequest => p.incomingRequestsReceived
  | .blockUploaded => p.blocksUploaded
  | .snubbed => p.snubbedCount
  | .unsnubbed => p.unsnubbedCount

end PeerStats

structure PeerCore where
  peerKey : String
  endpointKey : String
  activeConnection : Bool
  sawConnectAlert : Bool
  counter : CounterKind → ℕ
  totalDownloadBytes : Int
  totalUploadBytes : Int

namespace PeerCore

/-- One more event of the given kind. -/
def bump (c : PeerCore) (kind : CounterKind) : PeerCore :=
  { c with counter := fun k => c.counter k + if k = kind then 1 else 0 }

end PeerCore

namespace PeerStats

def core (p : PeerStats) : PeerCore where
  peerKey := p.peerKey
  endpointKey := p.endpointKey
  activeConnection := p.activeConnection
  sawConnectAlert := p.sawConnectAlert
  counter := p.counter
  totalDownloadBytes := p.totalDownloadBytes
  totalUploadBytes := p.totalUploadBytes

@[simp] theorem core_new (peerKey endpointKey peerIp : String) (peerPort : ℕ)
    (ts : TimestampPair) (direction transport : String) :
    (new peerKey endpointKey peerIp peerPort ts direction transport).core =
      ⟨peerKey, endpointKey, true, false, fun _ => 0, 0, 0⟩ := by
  simp only [core, new, PeerCore.mk.injEq, true_and]
  refine ⟨?_, trivial⟩
  funext k
  cases k <;> rfl

@[simp] theorem core_markSeen (ts : TimestampPair) (p : PeerStats) :
    (p.markSeen ts).core = p.core := rfl

@[simp] theorem core_notePeerId (pid : PeerId) (p : PeerStats) :
    (p.notePeerId pid).core = p.core := rfl

@[simp] theorem core_noteInteraction (monoNs : Int) (p : PeerStats) :
    (p.noteInteraction monoNs).core = p.core := rfl

@[simp] theorem core_flushIncomingRequestBurst (p : PeerStats) :
    p.flushIncomingRequestBurst.core = p.core := by
  unfold flushIncomingRequestBurst
  split <;> rfl

@[simp] theorem core_startIncomingRequestBurst (monoNs : Int) (p : PeerStats) :
    (p.startIncomingRequestBurst monoNs).core = p.core := rfl

@[simp] theorem core_extendIncomingRequestBurst (monoNs : Int) (p : PeerStats) :
    (p.extendIncomingRequestBurst monoNs).core = p.core := rfl

@[simp] theorem core_pushIncomingRequestBurstIdleGap (gapMs : ℚ) (p : PeerStats) :
    (p.pushIncomingRequestBurstIdleGap gapMs).core = p.core := rfl

@[simp] theorem core_noteIncomingRequestBurst (monoNs : Int) (p : PeerStats) :
    (p.noteIncomingRequestBurst monoNs).core = p.core := by
  simp only [noteIncomingRequestBurst]
  split
  · simp
  · split <;> simp

@[simp] theorem core_recordOutstandingDepth (depth : ℚ) (p : PeerStats) :
    (p.recordOutstandingDepth depth).core = p.core := rfl

@[simp] theorem core_advanceActivityWindow (monoNs : Int) (activeNow : Bool) (p : PeerStats) :
    (p.advanceActivityWindow monoNs activeNow).core = p.core := rfl

@[simp] theorem core_queueUploadRequest (ts : TimestampPair) (key : RequestKey)
    (p : PeerStats) : (p.queueUploadRequest ts key).core = p.core := rfl

@[simp] theorem core_matchUploadRequest (ts : TimestampPair) (key : RequestKey)
    (p : PeerStats) : (p.matchUploadRequest ts key).core = p.core := rfl

@[simp] theorem core_resetOutstandingRequests (p : PeerStats) :
    p.resetOutstandingRequests.core = p.core := rfl

/-- A record that differs from `p` by one event of the given kind, read field by
field. -/
theorem core_eq_bump {p q : PeerStats} {kind : CounterKind}
    (hkey : q.peerKey = p.peerKey) (hendpoint : q.endpointKey = p.endpointKey)
    (hactive : q.activeConnection = p.activeConnection)
    (hsaw : q.sawConnectAlert = p.sawConnectAlert)
    (hcounter : ∀ k, q.counter k = p.counter k + if k = kind then 1 else 0)
    (hdown : q.totalDownloadBytes = p.totalDownloadBytes)
    (hup : q.totalUploadBytes = p.totalUploadBytes) :
    q.core = p.core.bump kind := by
  have hfun : q.counter = fun k => p.counter k + if k = kind then 1 else 0 := by
    funext k
    exact hcounter k
  simp only [core, PeerCore.bump, hkey, hendpoint, hactive, hsaw, hfun, hdown, hup]

theorem core_noteRequestSent (ts : TimestampPair) (pieceIndex blockIndex : Int)
    (p : PeerStats) :
    (p.noteRequestSent ts pieceIndex blockIndex).core = p.core.bump .requestSent :=
  core_eq_bump rfl rfl rfl rfl (fun k => by cases k <;> rfl) rfl rfl

theorem core_noteBlockResponse (ts : TimestampPair) (pieceIndex blockIndex : Int)
    (p : PeerStats) :
    (p.noteBlockResponse ts pieceIndex blockIndex).core = p.core.bump .blockResponse :=
  core_eq_bump rfl rfl rfl rfl (fun k => by cases k <;> rfl) rfl rfl

theorem core_noteTimeout (ts : TimestampPair) (pieceIndex blockIndex : Int) (p : PeerStats) :
    (p.noteTimeout ts pieceIndex blockIndex).core = p.core.bump .timeout :=
  core_eq_bump rfl rfl rfl rfl (fun k => by cases k <;> rfl) rfl rfl

theorem core_noteDrop (ts : TimestampPair) (pieceIndex blockIndex : Int) (p : PeerStats) :
    (p.noteDrop ts pieceIndex blockIndex).core = p.core.bump .drop :=
  core_eq_bump rfl rfl rfl rfl (fun k => by cases k <;> rfl) rfl rfl

theorem core_noteIncomingRequest (ts : TimestampPair) (request : PeerRequest)
    (p : PeerStats) :
    (p.noteIncomingRequest ts request).core = p.core.bump .incomingRequest := by
  simp only [noteIncomingRequest, core_queueUploadRequest, core_noteIncomingRequestBurst]
  exact core_eq_bump rfl rfl rfl rfl (fun k => by cases k <;> rfl) rfl rfl

theorem core_noteBlockUploaded (ts : TimestampPair) (pieceIndex blockIndex : Int)
    (p : PeerStats) :
    (p.noteBlockUploaded ts pieceIndex blockIndex).core = p.core.bump .blockUploaded := by
  simp only [noteBlockUploaded, core_matchUploadRequest]
  exact core_eq_bump rfl rfl rfl rfl (fun k => by cases k <;> rfl) rfl rfl

theorem core_noteSnubbed (ts : TimestampPair) (p : PeerStats) :
    (p.noteSnubbed ts).core = p.core.bump .snubbed :=
  core_eq_bump rfl rfl rfl rfl (fun k => by cases k <;> rfl) rfl rfl

theorem core_noteUnsnubbed (ts : TimestampPair) (p : PeerStats) :
    (p.noteUnsnubbed ts).core = p.core.bump .unsnubbed :=
  core_eq_bump rfl rfl rfl rfl (fun k => by cases k <;> rfl) rfl rfl

/-- A call on the record counts one event of its kind and leaves the rest of the
core alone. -/
@[simp] theorem core_call (ts : TimestampPair) (c : PeerCall) (p : PeerStats) :
    (p.call ts c).core = p.core.bump c.kind := by
  cases c with
  | requestSent pieceIndex blockIndex => exact core_noteRequestSent ts pieceIndex blockIndex p
  | blockResponse pieceIndex blockIndex =>
      exact core_noteBlockResponse ts pieceIndex blockIndex p
  | timeout pieceIndex blockIndex => exact core_noteTimeout ts pieceIndex blockIndex p
  | drop pieceIndex blockIndex => exact core_noteDrop ts pieceIndex blockIndex p
  | incomingRequest request => exact core_noteIncomingRequest ts request p
  | blockUploaded pieceIndex blockIndex =>
      exact core_noteBlockUploaded ts pieceIndex blockIndex p
  | snubbed => exact core_noteSnubbed ts p
  | unsnubbed => exact core_noteUnsnubbed ts p

@[simp] theorem core_guessSocket (direction transport : String) (p : PeerStats) :
    (p.guessSocket direction transport).core = p.core := rfl

@[simp] theorem core_openConnection (ts : TimestampPair) (p : PeerStats) :
    (p.openConnection ts).core = { p.core with activeConnection := true } := rfl

@[simp] theorem core_setSocket (direction transport : String) (p : PeerStats) :
    (p.setSocket direction transport).core = { p.core with sawConnectAlert := true } := rfl

/-- The connect alert marks the record as connected and as seen by the alert. -/
@[simp] theorem core_noteConnect (ts : TimestampPair) (direction transport : String)
    (p : PeerStats) :
    (p.noteConnect ts direction transport true).core =
      { p.core with activeConnection := true, sawConnectAlert := true } := by
  have hguess : (if !true || !(p.markSeen ts).sawConnectAlert then
      (p.markSeen ts).guessSocket direction transport else p.markSeen ts).core = p.core := by
    split <;> simp
  simp only [noteConnect, if_true, core_setSocket, core_openConnection, hguess]

@[simp] theorem core_noteDisconnect (ts : TimestampPair) (p : PeerStats) :
    (p.noteDisconnect ts).core = { p.core with activeConnection := false } := by
  have hwindow : (((p.markSeen ts).flushIncomingRequestBurst).advanceActivityWindow
      ts.monoNs false).core = p.core := by simp
  rw [← hwindow]
  rfl

/-- The finished record is inactive. -/
@[simp] theorem core_finalize (sessionEnd : TimestampPair) (p : PeerStats) :
    (p.finalize sessionEnd).core = { p.core with activeConnection := false } := by
  have hflush : p.flushIncomingRequestBurst.core = p.core := core_flushIncomingRequestBurst p
  have hactive : p.flushIncomingRequestBurst.activeConnection = p.core.activeConnection :=
    congrArg PeerCore.activeConnection hflush
  unfold finalize
  simp only [hactive]
  cases h : p.core.activeConnection with
  | true => simp
  | false =>
      have hsame : p.core = { p.core with activeConnection := false } := by
        rw [← h]
      simp only [Bool.false_eq_true, if_false]
      split
      · rw [core_advanceActivityWindow, hflush]
        exact hsame
      · rw [hflush]
        exact hsame

@[simp] theorem core_noteSnapshotDetails {A : Type} (peer : PeerInfo A) (p : PeerStats) :
    (p.noteSnapshotDetails peer).core = p.core := rfl

@[simp] theorem core_noteSnapshotTraffic {A : Type} (peer : PeerInfo A) (p : PeerStats) :
    (p.noteSnapshotTraffic peer).core =
      { p.core with
        totalDownloadBytes := peer.totalDownload
        totalUploadBytes := peer.totalUpload } := rfl

@[simp] theorem core_noteSnapshotTransitions (remoteChokedNow localChokedNow : Bool)
    (p : PeerStats) :
    (p.noteSnapshotTransitions remoteChokedNow localChokedNow).core = p.core := rfl

@[simp] theorem core_noteSnapshotFlags {A : Type} (peer : PeerInfo A) (p : PeerStats) :
    (p.noteSnapshotFlags peer).core = p.core := rfl

@[simp] theorem core_noteSnapshotInteraction (ts : TimestampPair) (snapshotIntervalMs : Int)
    (activeNow : Bool) (p : PeerStats) :
    (p.noteSnapshotInteraction ts snapshotIntervalMs activeNow).core = p.core := by
  simp only [noteSnapshotInteraction]
  split <;> rfl

/-- A snapshot overwrites the byte totals and leaves the rest of the core alone. -/
@[simp] theorem core_updateFromSnapshot {A : Type} (peer : PeerInfo A) (ts : TimestampPair)
    (snapshotIntervalMs : Int) (p : PeerStats) :
    (p.updateFromSnapshot peer ts snapshotIntervalMs).core =
      { p.core with
        totalDownloadBytes := peer.totalDownload
        totalUploadBytes := peer.totalUpload } := by
  simp [updateFromSnapshot]

/-! ### The counter of finished pieces

No operation on a record reads `piecesFinished`, so setting it commutes with all
of them.
-/

def setPiecesFinished (n : ℕ) (p : PeerStats) : PeerStats :=
  { p with piecesFinished := n }

@[simp] theorem setPiecesFinished_setPiecesFinished (m n : ℕ) (p : PeerStats) :
    (p.setPiecesFinished m).setPiecesFinished n = p.setPiecesFinished n := rfl

@[simp] theorem setPiecesFinished_new (peerKey endpointKey peerIp : String) (peerPort : ℕ)
    (ts : TimestampPair) (direction transport : String) :
    (new peerKey endpointKey peerIp peerPort ts direction transport).setPiecesFinished 0 =
      new peerKey endpointKey peerIp peerPort ts direction transport := rfl

@[simp] theorem core_setPiecesFinished (n : ℕ) (p : PeerStats) :
    (p.setPiecesFinished n).core = p.core := by
  simp only [core, setPiecesFinished, PeerCore.mk.injEq, true_and, and_true]
  funext k
  cases k <;> rfl

theorem flushIncomingRequestBurst_setPiecesFinished (n : ℕ) (p : PeerStats) :
    (p.setPiecesFinished n).flushIncomingRequestBurst =
      p.flushIncomingRequestBurst.setPiecesFinished n := by
  unfold flushIncomingRequestBurst
  rw [apply_ite (setPiecesFinished n)]
  rfl

theorem noteIncomingRequestBurst_setPiecesFinished (monoNs : Int) (n : ℕ) (p : PeerStats) :
    (p.setPiecesFinished n).noteIncomingRequestBurst monoNs =
      (p.noteIncomingRequestBurst monoNs).setPiecesFinished n := by
  have hflush := flushIncomingRequestBurst_setPiecesFinished n p
  simp only [noteIncomingRequestBurst, hflush]
  rw [apply_ite (setPiecesFinished n), apply_ite (setPiecesFinished n)]
  rfl

theorem noteConnect_setPiecesFinished (ts : TimestampPair) (direction transport : String)
    (n : ℕ) (p : PeerStats) :
    (p.setPiecesFinished n).noteConnect ts direction transport true =
      (p.noteConnect ts direction transport true).setPiecesFinished n := by
  have hguess : (if !true || !(p.markSeen ts).sawConnectAlert then
        ((p.markSeen ts).setPiecesFinished n).guessSocket direction transport
      else (p.markSeen ts).setPiecesFinished n) =
      (if !true || !(p.markSeen ts).sawConnectAlert then
        (p.markSeen ts).guessSocket direction transport
      else p.markSeen ts).setPiecesFinished n := by
    rw [apply_ite (setPiecesFinished n)]
    rfl
  have hconnect := congrArg
    (fun q => (openConnection ts q).setSocket direction transport) hguess
  exact hconnect

theorem noteDisconnect_setPiecesFinished (ts : TimestampPair) (n : ℕ) (p : PeerStats) :
    (p.setPiecesFinished n).noteDisconnect ts = (p.noteDisconnect ts).setPiecesFinished n := by
  have hflush := flushIncomingRequestBurst_setPiecesFinished n (p.markSeen ts)
  have hseen : (p.setPiecesFinished n).markSeen ts = (p.markSeen ts).setPiecesFinished n := rfl
  simp only [noteDisconnect, hseen, hflush]
  rfl

theorem finalize_setPiecesFinished (sessionEnd : TimestampPair) (n : ℕ) (p : PeerStats) :
    (p.setPiecesFinished n).finalize sessionEnd =
      (p.finalize sessionEnd).setPiecesFinished n := by
  simp only [finalize, flushIncomingRequestBurst_setPiecesFinished]
  generalize p.flushIncomingRequestBurst = q
  rw [noteDisconnect_setPiecesFinished, apply_ite (setPiecesFinished n),
    apply_ite (setPiecesFinished n)]
  rfl

theorem noteSnapshotInteraction_setPiecesFinished (ts : TimestampPair)
    (snapshotIntervalMs : Int) (activeNow : Bool) (n : ℕ) (p : PeerStats) :
    (p.setPiecesFinished n).noteSnapshotInteraction ts snapshotIntervalMs activeNow =
      (p.noteSnapshotInteraction ts snapshotIntervalMs activeNow).setPiecesFinished n := by
  unfold noteSnapshotInteraction
  rw [apply_ite (setPiecesFinished n)]
  rfl

theorem updateFromSnapshot_setPiecesFinished {A : Type} (peer : PeerInfo A)
    (ts : TimestampPair) (snapshotIntervalMs : Int) (n : ℕ) (p : PeerStats) :
    (p.setPiecesFinished n).updateFromSnapshot peer ts snapshotIntervalMs =
      (p.updateFromSnapshot peer ts snapshotIntervalMs).setPiecesFinished n := by
  simp only [updateFromSnapshot]
  rw [← noteSnapshotInteraction_setPiecesFinished]
  rfl

theorem call_setPiecesFinished (ts : TimestampPair) (c : PeerCall) (n : ℕ) (p : PeerStats) :
    (p.setPiecesFinished n).call ts c = (p.call ts c).setPiecesFinished n := by
  cases c with
  | requestSent pieceIndex blockIndex => rfl
  | blockResponse pieceIndex blockIndex => rfl
  | timeout pieceIndex blockIndex => rfl
  | drop pieceIndex blockIndex => rfl
  | incomingRequest request =>
      have hburst := noteIncomingRequestBurst_setPiecesFinished ts.monoNs n
        (((p.markSeen ts).noteInteraction ts.monoNs).paceIncomingRequest ts)
      have hqueue := congrArg
        (queueUploadRequest ts ⟨request.piece, blockIndexFromRequest request⟩) hburst
      exact hqueue
  | blockUploaded pieceIndex blockIndex => rfl
  | snubbed => rfl
  | unsnubbed => rfl

end PeerStats

end BtClient
