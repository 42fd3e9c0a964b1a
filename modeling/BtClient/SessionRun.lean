import BtClient.Library.Generations
import BtClient.SessionStats

/-!
# Runs of the session statistics and the history of each endpoint

`SessionOp` lists the calls that `drain_alerts` and `capture_snapshots` make on
`SessionStats`. Every call about a peer opens a record for its endpoint unless
one is active, changes that record and, for a disconnect, closes it; on the
records of one endpoint this is the step `PeerOp.history` on a `Generations`.

`Represents s v` says that the maps of `s` store exactly the generations `v e` of
each endpoint `e`, up to the finished pieces, which are credited from outside. It
holds initially and after each operation, so what happens to the records of an
endpoint can be read off its history alone.
-/

namespace BtClient

/-- The piece that a call credits to the record: `drain_alerts` writes
`last_piece_peer_key` after a block response. -/
def PeerHandle.call (ts : TimestampPair) (c : PeerCall) (h : PeerHandle) : PeerHandle :=
  let h := h.modify (PeerStats.call ts c)
  match c with
  | .blockResponse pieceIndex _ => h.creditPiece pieceIndex
  | _ => h

/-- The calls about one peer. An event is followed by at most one call on the
record. -/
inductive PeerOp (A : Type) where
  | connect (endpoint : Endpoint A) (pid : PeerId) (ts : TimestampPair)
      (direction transport : String)
  | event (endpoint : Endpoint A) (pid : PeerId) (ts : TimestampPair) (call : Option PeerCall)
  | disconnect (endpoint : Endpoint A) (pid : PeerId) (ts : TimestampPair)
  | snapshot (peer : PeerInfo A) (ts : TimestampPair) (snapshotIntervalMs : Int)

inductive SessionOp (A : Type) where
  | peer (op : PeerOp A)
  | pieceFinished (pieceIndex : Int)
  | torrentState (state : TorrentState)
  | sessionSnapshot (status : TorrentStatus)
  | alertLoss (droppedAlertTypeBits : ℕ)
  | initialTotals (status : TorrentStatus)

namespace PeerOp

variable {A : Type}

def endpoint : PeerOp A → Endpoint A
  | .connect endpoint _ _ _ _ => endpoint
  | .event endpoint _ _ _ => endpoint
  | .disconnect endpoint _ _ => endpoint
  | .snapshot peer _ _ => peer.ip

/-- The operation changes the record in this way. -/
def change : PeerOp A → PeerStats → PeerStats
  | .connect _ pid ts direction transport, p =>
      (p.noteConnect ts direction transport true).notePeerId pid
  | .event _ pid ts none, p => (p.markSeen ts).notePeerId pid
  | .event _ pid ts (some c), p => ((p.markSeen ts).notePeerId pid).call ts c
  | .disconnect _ pid ts, p => ((p.markSeen ts).notePeerId pid).noteDisconnect ts
  | .snapshot peer ts snapshotIntervalMs, p => p.updateFromSnapshot peer ts snapshotIntervalMs

def closes : PeerOp A → Bool
  | .disconnect _ _ _ => true
  | _ => false

variable [Address A]

def endpointKey (op : PeerOp A) : String := endpointToString op.endpoint

def newRecord (endpoint : Endpoint A) (ts : TimestampPair) (direction transport : String)
    (n : ℕ) : PeerStats :=
  PeerStats.new (numberedPeerKey (endpointToString endpoint) n) (endpointToString endpoint)
    (Address.toString endpoint.address) endpoint.port.toNat ts direction transport

/-- The record that the operation opens as number `n` of its endpoint when none
is active. -/
def opened : PeerOp A → ℕ → PeerStats
  | .connect endpoint _ ts direction transport => newRecord endpoint ts direction transport
  | .event endpoint _ ts _ => newRecord endpoint ts "unknown" "unknown"
  | .disconnect endpoint _ ts => newRecord endpoint ts "unknown" "unknown"
  | .snapshot peer ts _ =>
      newRecord peer.ip ts (PeerStats.directionFromPeerInfo peer) (transportFromPeerInfo peer)

/-- The operation on the session; the result refers to the record it was about. -/
def apply (s : SessionStats) : PeerOp A → PeerHandle
  | .connect endpoint pid ts direction transport =>
      s.notePeerConnect endpoint pid ts direction transport
  | .event endpoint pid ts none => s.notePeerEvent endpoint pid ts "unknown" "unknown"
  | .event endpoint pid ts (some c) =>
      (s.notePeerEvent endpoint pid ts "unknown" "unknown").call ts c
  | .disconnect endpoint pid ts => s.notePeerDisconnect endpoint pid ts
  | .snapshot peer ts snapshotIntervalMs => s.notePeerSnapshot peer ts snapshotIntervalMs

/-- The operation on the records of its endpoint. -/
def history (op : PeerOp A) (g : Generations PeerStats) : Generations PeerStats :=
  let g := (g.ensureOpen op.opened).update op.change
  if op.closes then g.close else g

end PeerOp

namespace SessionOp

variable {A : Type} [Address A]

def apply (s : SessionStats) : SessionOp A → SessionStats
  | .peer op => (op.apply s).stats
  | .pieceFinished pieceIndex => s.notePieceFinished pieceIndex
  | .torrentState state => s.noteTorrentState state
  | .sessionSnapshot status => s.recordSessionSnapshot status
  | .alertLoss droppedAlertTypeBits => s.noteAlertLoss droppedAlertTypeBits
  | .initialTotals status => s.setInitialTotals status

/-- What the operation does to the records of the endpoint `e`. -/
def history (e : String) (op : SessionOp A) (g : Generations PeerStats) :
    Generations PeerStats :=
  match op with
  | .peer op => if op.endpointKey = e then op.history g else g
  | .alertLoss _ => g.map PeerStats.resetOutstandingRequests
  | _ => g

end SessionOp

namespace SessionStats

variable {A : Type} [Address A]

/-- The state after a sequence of operations. -/
def run (s : SessionStats) (ops : List (SessionOp A)) : SessionStats :=
  ops.foldl SessionOp.apply s

end SessionStats

/-! ### What an operation does to the core of a record -/

namespace PeerOp

variable {A : Type}

/-- The core after the operation. -/
def changeCore : PeerOp A → PeerCore → PeerCore
  | .connect _ _ _ _ _, c => { c with activeConnection := true, sawConnectAlert := true }
  | .event _ _ _ none, c => c
  | .event _ _ _ (some call), c => c.bump call.kind
  | .disconnect _ _ _, c => { c with activeConnection := false }
  | .snapshot peer _ _, c =>
      { c with totalDownloadBytes := peer.totalDownload, totalUploadBytes := peer.totalUpload }

@[simp] theorem core_change (op : PeerOp A) (p : PeerStats) :
    (op.change p).core = op.changeCore p.core := by
  cases op with
  | connect endpoint pid ts direction transport => simp [change, changeCore]
  | event endpoint pid ts call =>
      cases call with
      | none => simp [change, changeCore]
      | some c => simp [change, changeCore]
  | disconnect endpoint pid ts => simp [change, changeCore]
  | snapshot peer ts snapshotIntervalMs => simp [change, changeCore]

@[simp] theorem peerKey_changeCore (op : PeerOp A) (c : PeerCore) :
    (op.changeCore c).peerKey = c.peerKey := by
  unfold changeCore
  split <;> rfl

@[simp] theorem endpointKey_changeCore (op : PeerOp A) (c : PeerCore) :
    (op.changeCore c).endpointKey = c.endpointKey := by
  unfold changeCore
  split <;> rfl

/-- The kind of the event that the operation counts. -/
def kind? : PeerOp A → Option CounterKind
  | .event _ _ _ (some c) => some c.kind
  | _ => none

theorem counter_change (op : PeerOp A) (p : PeerStats) (k : CounterKind) :
    (op.change p).counter k = p.counter k + if op.kind? = some k then 1 else 0 := by
  have hcore := congrArg PeerCore.counter (op.core_change p)
  have hchange : (op.changeCore p.core).counter k =
      p.counter k + if op.kind? = some k then 1 else 0 := by
    unfold changeCore kind?
    split <;> simp [PeerCore.bump, PeerStats.core, eq_comm]
  exact (congrFun hcore k).trans hchange

/-- Only a disconnect leaves the record inactive. -/
theorem activeConnection_changeCore (op : PeerOp A) {c : PeerCore}
    (h : c.activeConnection = true) :
    (op.changeCore c).activeConnection = !op.closes := by
  unfold changeCore
  split <;> simp_all [closes, PeerCore.bump]

/-- No operation reads the finished pieces. -/
theorem change_setPiecesFinished (op : PeerOp A) (n : ℕ) (p : PeerStats) :
    op.change (p.setPiecesFinished n) = (op.change p).setPiecesFinished n := by
  cases op with
  | connect endpoint pid ts direction transport =>
      simp only [change, PeerStats.noteConnect_setPiecesFinished]
      rfl
  | event endpoint pid ts call =>
      cases call with
      | none => rfl
      | some c =>
          have hcall := PeerStats.call_setPiecesFinished ts c n ((p.markSeen ts).notePeerId pid)
          exact hcall
  | disconnect endpoint pid ts =>
      have hdisconnect :=
        PeerStats.noteDisconnect_setPiecesFinished ts n ((p.markSeen ts).notePeerId pid)
      exact hdisconnect
  | snapshot peer ts snapshotIntervalMs =>
      exact PeerStats.updateFromSnapshot_setPiecesFinished peer ts snapshotIntervalMs n p

variable [Address A]

@[simp] theorem core_newRecord (endpoint : Endpoint A) (ts : TimestampPair)
    (direction transport : String) (n : ℕ) :
    (newRecord endpoint ts direction transport n).core =
      ⟨numberedPeerKey (endpointToString endpoint) n, endpointToString endpoint, true, false,
        fun _ => 0, 0, 0⟩ :=
  PeerStats.core_new _ _ _ _ _ _ _

@[simp] theorem core_opened (op : PeerOp A) (n : ℕ) :
    (op.opened n).core =
      ⟨numberedPeerKey op.endpointKey n, op.endpointKey, true, false, fun _ => 0, 0, 0⟩ := by
  cases op with
  | connect endpoint pid ts direction transport => exact core_newRecord _ _ _ _ _
  | event endpoint pid ts call => exact core_newRecord _ _ _ _ _
  | disconnect endpoint pid ts => exact core_newRecord _ _ _ _ _
  | snapshot peer ts snapshotIntervalMs => exact core_newRecord _ _ _ _ _

end PeerOp

/-- A connection that comes and goes. -/
def sampleVisit : List (SessionOp AddressV4) :=
  [.peer (.connect ⟨⟨10, 0, 0, 1⟩, 6881⟩ (Vector.replicate 20 7) ⟨"", 1000⟩ "outbound" "tcp"),
    .peer (.disconnect ⟨⟨10, 0, 0, 1⟩, 6881⟩ (Vector.replicate 20 7) ⟨"", 2000⟩)]

end BtClient
