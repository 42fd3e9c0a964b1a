import BtClient.RecordOps

/-!
# The part of a record that describes the peer

`PeerFace` is the part of a `PeerStats` that says who the peer is and in which state the
connection was last seen: the keys and the address, the socket, and the choke flags of the
snapshots with the counts of their changes. Only connects and snapshots touch it; every
other operation on a record leaves it as it is.
-/

namespace BtClient

structure PeerFace where
  peerKey : String
  endpointKey : String
  peerIp : String
  peerPort : ℕ
  direction : String
  transport : String
  sawConnectAlert : Bool
  stateFlagsInitialized : Bool
  remoteChoked : Bool
  localChoked : Bool
  chokedCount : ℕ
  unchokedCount : ℕ
  weChokedCount : ℕ
  weUnchokedCount : ℕ

namespace PeerFace

def guessSocket (direction transport : String) (f : PeerFace) : PeerFace :=
  { f with
    direction := if direction ≠ "" ∧ f.direction = "unknown" then direction else f.direction
    transport := if transport ≠ "" ∧ f.transport = "unknown" then transport else f.transport }

def setSocket (direction transport : String) (f : PeerFace) : PeerFace :=
  { f with sawConnectAlert := true, direction := direction, transport := transport }

def connect (direction transport : String) (fromConnectAlert : Bool) (f : PeerFace) :
    PeerFace :=
  let f := if !fromConnectAlert || !f.sawConnectAlert then f.guessSocket direction transport
    else f
  if fromConnectAlert then f.setSocket direction transport else f

/-- A snapshot fills in the socket where it is unknown. -/
def fillSocket {A : Type} (peer : PeerInfo A) (f : PeerFace) : PeerFace :=
  { f with
    direction :=
      if f.direction = "unknown" then PeerStats.directionFromPeerInfo peer else f.direction
    transport := if f.transport = "unknown" then transportFromPeerInfo peer else f.transport }

/-- A snapshot counts the changes of the flags since the snapshot before. -/
def countTransitions (remoteChokedNow localChokedNow : Bool) (f : PeerFace) : PeerFace :=
  let known := f.stateFlagsInitialized
  { f with
    chokedCount := f.chokedCount + (known && !f.remoteChoked && remoteChokedNow).toNat
    unchokedCount := f.unchokedCount + (known && f.remoteChoked && !remoteChokedNow).toNat
    weChokedCount := f.weChokedCount + (known && !f.localChoked && localChokedNow).toNat
    weUnchokedCount := f.weUnchokedCount + (known && f.localChoked && !localChokedNow).toNat
    stateFlagsInitialized := true }

def setFlags (remoteChokedNow localChokedNow : Bool) (f : PeerFace) : PeerFace :=
  { f with remoteChoked := remoteChokedNow, localChoked := localChokedNow }

def snapshot {A : Type} (peer : PeerInfo A) (f : PeerFace) : PeerFace :=
  ((f.fillSocket peer).countTransitions (hasFlag peer.flags .remoteChoked)
    (hasFlag peer.flags .choked)).setFlags (hasFlag peer.flags .remoteChoked)
      (hasFlag peer.flags .choked)

end PeerFace

namespace PeerStats

def face (p : PeerStats) : PeerFace where
  peerKey := p.peerKey
  endpointKey := p.endpointKey
  peerIp := p.peerIp
  peerPort := p.peerPort
  direction := p.direction
  transport := p.transport
  sawConnectAlert := p.sawConnectAlert
  stateFlagsInitialized := p.stateFlagsInitialized
  remoteChoked := p.remoteChoked
  localChoked := p.localChoked
  chokedCount := p.chokedCount
  unchokedCount := p.unchokedCount
  weChokedCount := p.weChokedCount
  weUnchokedCount := p.weUnchokedCount

@[simp] theorem face_markSeen (ts : TimestampPair) (p : PeerStats) :
    (p.markSeen ts).face = p.face := rfl

@[simp] theorem face_flushIncomingRequestBurst (p : PeerStats) :
    p.flushIncomingRequestBurst.face = p.face := by
  unfold flushIncomingRequestBurst
  split <;> rfl

@[simp] theorem face_noteIncomingRequestBurst (monoNs : Int) (p : PeerStats) :
    (p.noteIncomingRequestBurst monoNs).face = p.face := by
  simp only [noteIncomingRequestBurst]
  split
  · rfl
  · split
    · rfl
    · exact face_flushIncomingRequestBurst p

@[simp] theorem face_noteConnect (ts : TimestampPair) (direction transport : String)
    (fromConnectAlert : Bool) (p : PeerStats) :
    (p.noteConnect ts direction transport fromConnectAlert).face =
      p.face.connect direction transport fromConnectAlert := by
  cases fromConnectAlert with
  | false => rfl
  | true =>
      simp only [noteConnect, PeerFace.connect, if_true]
      split <;> split <;> rfl

@[simp] theorem face_noteDisconnect (ts : TimestampPair) (p : PeerStats) :
    (p.noteDisconnect ts).face = p.face := by
  have hflush : (p.markSeen ts).flushIncomingRequestBurst.face = p.face :=
    face_flushIncomingRequestBurst _
  exact hflush

@[simp] theorem face_notePeerId (pid : PeerId) (p : PeerStats) :
    (p.notePeerId pid).face = p.face := rfl

@[simp] theorem face_call (ts : TimestampPair) (c : PeerCall) (p : PeerStats) :
    (p.call ts c).face = p.face := by
  cases c with
  | incomingRequest request =>
      have hburst := face_noteIncomingRequestBurst ts.monoNs
        (((p.markSeen ts).noteInteraction ts.monoNs).paceIncomingRequest ts)
      exact hburst
  | _ => rfl

@[simp] theorem face_noteSnapshotInteraction (ts : TimestampPair) (snapshotIntervalMs : Int)
    (activeNow : Bool) (p : PeerStats) :
    (p.noteSnapshotInteraction ts snapshotIntervalMs activeNow).face = p.face := by
  simp only [noteSnapshotInteraction]
  split <;> rfl

@[simp] theorem face_noteSnapshotDetails {A : Type} (peer : PeerInfo A) (p : PeerStats) :
    (p.noteSnapshotDetails peer).face = p.face.fillSocket peer := rfl

@[simp] theorem face_noteSnapshotTraffic {A : Type} (peer : PeerInfo A) (p : PeerStats) :
    (p.noteSnapshotTraffic peer).face = p.face := rfl

@[simp] theorem face_recordOutstandingDepth (depth : ℚ) (p : PeerStats) :
    (p.recordOutstandingDepth depth).face = p.face := rfl

@[simp] theorem face_noteSnapshotTransitions (remoteChokedNow localChokedNow : Bool)
    (p : PeerStats) :
    (p.noteSnapshotTransitions remoteChokedNow localChokedNow).face =
      p.face.countTransitions remoteChokedNow localChokedNow := rfl

@[simp] theorem face_noteSnapshotFlags {A : Type} (peer : PeerInfo A) (p : PeerStats) :
    (p.noteSnapshotFlags peer).face = p.face.setFlags (hasFlag peer.flags .remoteChoked)
      (hasFlag peer.flags .choked) := rfl

@[simp] theorem face_advanceActivityWindow (monoNs : Int) (activeNow : Bool) (p : PeerStats) :
    (p.advanceActivityWindow monoNs activeNow).face = p.face := rfl

@[simp] theorem face_updateFromSnapshot {A : Type} (peer : PeerInfo A) (ts : TimestampPair)
    (snapshotIntervalMs : Int) (p : PeerStats) :
    (p.updateFromSnapshot peer ts snapshotIntervalMs).face = p.face.snapshot peer := by
  simp only [updateFromSnapshot, face_noteSnapshotInteraction, face_advanceActivityWindow,
    face_noteSnapshotFlags, face_noteSnapshotTransitions, face_recordOutstandingDepth,
    face_noteSnapshotTraffic, face_noteSnapshotDetails, face_notePeerId, face_markSeen]
  rfl

@[simp] theorem face_finalize (sessionEnd : TimestampPair) (p : PeerStats) :
    (p.finalize sessionEnd).face = p.face := by
  have hflush := face_flushIncomingRequestBurst p
  simp only [finalize]
  split
  · rw [face_noteDisconnect, hflush]
  · split
    · exact hflush
    · exact hflush

end PeerStats

namespace RecordOp

variable {A : Type}

/-- What the operation does to the description of the peer. -/
def face (f : PeerFace) : RecordOp A → PeerFace
  | .connect _ direction transport fromConnectAlert =>
      f.connect direction transport fromConnectAlert
  | .snapshot peer _ _ => f.snapshot peer
  | _ => f

theorem face_apply (op : RecordOp A) (p : PeerStats) : (op.apply p).face = op.face p.face := by
  cases op with
  | connect ts direction transport fromConnectAlert =>
      exact PeerStats.face_noteConnect ts direction transport fromConnectAlert p
  | disconnect ts => exact PeerStats.face_noteDisconnect ts p
  | call ts c => exact PeerStats.face_call ts c p
  | snapshot peer ts snapshotIntervalMs =>
      exact PeerStats.face_updateFromSnapshot peer ts snapshotIntervalMs p
  | finalize sessionEnd => exact PeerStats.face_finalize sessionEnd p
  | _ => rfl

/-- No operation changes the keys and the address. -/
theorem identity_face (op : RecordOp A) (f : PeerFace) :
    (op.face f).peerKey = f.peerKey ∧ (op.face f).endpointKey = f.endpointKey ∧
      (op.face f).peerIp = f.peerIp ∧ (op.face f).peerPort = f.peerPort := by
  cases op with
  | connect ts direction transport fromConnectAlert =>
      simp only [face, PeerFace.connect]
      split <;> split <;> exact ⟨rfl, rfl, rfl, rfl⟩
  | _ => exact ⟨rfl, rfl, rfl, rfl⟩

end RecordOp

end BtClient
