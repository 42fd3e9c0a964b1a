import BtClient.LogSteps
import BtClient.PeerFace

/-!
# Records replayed from the log

The lines that name a record carry its socket, and its snapshot lines carry what libtorrent
said of the peer. `LoggedPeer.read` takes one line more into account, as a reader of the log
would who has nothing else. Replaying the lines of a record gives the part of it that
`PeerStats.logged` selects.
-/

namespace BtClient

/-! ### The flags and their labels -/

/-- The label under which `peer_flag_labels` reports a flag. -/
def PeerFlag.label : PeerFlag → String
  | .interesting => "interesting"
  | .choked => "we_choked_peer"
  | .remoteInterested => "peer_interested"
  | .remoteChoked => "peer_choked_us"
  | .supportsExtensions => "supports_extensions"
  | .outgoingConnection => "outgoing_connection"
  | .handshake => "handshake"
  | .connecting => "connecting"
  | .onParole => "on_parole"
  | .seed => "seed"
  | .optimisticUnchoke => "optimistic_unchoke"
  | .snubbed => "snubbed"
  | .uploadOnly => "upload_only"
  | .endgameMode => "endgame_mode"
  | .holepunched => "holepunched"
  | .i2pSocket => "i2p_socket"
  | .utpSocket => "utp_socket"
  | .sslSocket => "ssl_socket"
  | .rc4Encrypted => "rc4_encrypted"
  | .plaintextEncrypted => "plaintext_encrypted"

/-- The labels tell the flags of a peer. -/
theorem label_mem_peerFlagLabels {A : Type} (peer : PeerInfo A) (flag : PeerFlag) :
    flag.label ∈ peerFlagLabels peer ↔ hasFlag peer.flags flag = true := by
  cases flag <;> simp [peerFlagLabels, PeerFlag.label]

theorem decide_label_mem {A : Type} (peer : PeerInfo A) (flag : PeerFlag) :
    decide (flag.label ∈ peerFlagLabels peer) = hasFlag peer.flags flag := by
  rw [Bool.eq_iff_iff, decide_eq_true_eq, label_mem_peerFlagLabels]

/-! ### Reading a payload -/

namespace Json

def textAt (key : String) (v : Json) : String := ((v.find key).bind asText?).getD ""

def stringAt (key : String) (v : Json) : ByteString :=
  match v.find key with
  | some (.string s) => s
  | _ => []

def integerAt (key : String) (v : Json) : Int :=
  match v.find key with
  | some (.integer n) => n
  | _ => 0

def textsAt (key : String) (v : Json) : List String :=
  match v.find key with
  | some (.array items) => items.filterMap asText?
  | _ => []

theorem asText?_text (s : String) : (text s).asText? = some s := ByteString.toText?_ofString s

theorem filterMap_asText?_text (labels : List String) :
    (labels.map text).filterMap asText? = labels := by
  rw [List.filterMap_map]
  have hsome : (asText? ∘ text) = some := funext asText?_text
  rw [hsome, List.filterMap_some]

end Json

/-- What the snapshots and the snubs of a peer say of it. -/
structure ObservedPeer where
  clientName : ByteString := []
  observedFlags : Finset String := ∅
  observedSources : Finset String := ∅
  totalDownloadBytes : Int := 0
  totalUploadBytes : Int := 0
  downloadRateSamples : List ℚ := []
  uploadRateSamples : List ℚ := []
  stateFlagsInitialized : Bool := false
  remoteChoked : Bool := false
  localChoked : Bool := false
  snubbed : Bool := false
  interesting : Bool := false
  remoteInterested : Bool := false
  seed : Bool := false
  chokedCount : ℕ := 0
  unchokedCount : ℕ := 0
  weChokedCount : ℕ := 0
  weUnchokedCount : ℕ := 0
  snubbedCount : ℕ := 0
  unsnubbedCount : ℕ := 0

namespace ObservedPeer

/-- The client, the flags and the sources of a snapshot. -/
def readDetails (client : ByteString) (flags sources : List String) (v : ObservedPeer) :
    ObservedPeer :=
  { v with
    clientName := if client = [] then v.clientName else client
    observedFlags := flags.foldl (fun s label => insert label s) v.observedFlags
    observedSources := sources.foldl (fun s label => insert label s) v.observedSources }

def readTraffic (totalDownload totalUpload : Int) (downloadRate uploadRate : ℚ)
    (v : ObservedPeer) : ObservedPeer :=
  { v with
    totalDownloadBytes := totalDownload
    totalUploadBytes := totalUpload
    downloadRateSamples := v.downloadRateSamples ++ [downloadRate]
    uploadRateSamples := v.uploadRateSamples ++ [uploadRate] }

/-- The changes of the choke flags; the first snapshot tells none. -/
def readTransitions (remoteChokedNow localChokedNow : Bool) (v : ObservedPeer) : ObservedPeer :=
  let known := v.stateFlagsInitialized
  { v with
    chokedCount := v.chokedCount + (known && !v.remoteChoked && remoteChokedNow).toNat
    unchokedCount := v.unchokedCount + (known && v.remoteChoked && !remoteChokedNow).toNat
    weChokedCount := v.weChokedCount + (known && !v.localChoked && localChokedNow).toNat
    weUnchokedCount := v.weUnchokedCount + (known && v.localChoked && !localChokedNow).toNat
    stateFlagsInitialized := true }

def readFlags (flags : List String) (v : ObservedPeer) : ObservedPeer :=
  { v with
    remoteChoked := decide ("peer_choked_us" ∈ flags)
    localChoked := decide ("we_choked_peer" ∈ flags)
    snubbed := decide ("snubbed" ∈ flags)
    interesting := decide ("interesting" ∈ flags)
    remoteInterested := decide ("peer_interested" ∈ flags)
    seed := decide ("seed" ∈ flags) }

/-- The rate of a snapshot: that of the payload, or the whole rate when there is none. -/
def rateOf (payloadSpeed speed : Int) : ℚ := if 0 < payloadSpeed then payloadSpeed else speed

/-- The payload of a `peer_snapshot` line. -/
def readSnapshot (payload : Json) (v : ObservedPeer) : ObservedPeer :=
  let flags := payload.textsAt "flags"
  let v := v.readDetails (payload.stringAt "client") flags (payload.textsAt "sources")
  let v := v.readTraffic
    (payload.integerAt "total_download_bytes") (payload.integerAt "total_upload_bytes")
    (rateOf (payload.integerAt "payload_down_speed_Bps") (payload.integerAt "down_speed_Bps"))
    (rateOf (payload.integerAt "payload_up_speed_Bps") (payload.integerAt "up_speed_Bps"))
  let v := v.readTransitions (decide ("peer_choked_us" ∈ flags))
    (decide ("we_choked_peer" ∈ flags))
  v.readFlags flags

/-- What a line with the given event type and payload adds. -/
def readEvent (eventType : String) (payload : Json) (v : ObservedPeer) : ObservedPeer :=
  if eventType = "peer_snapshot" then v.readSnapshot payload
  else if eventType = "peer_snubbed" then
    { v with snubbed := true, snubbedCount := v.snubbedCount + 1 }
  else if eventType = "peer_unsnubbed" then
    { v with snubbed := false, unsnubbedCount := v.unsnubbedCount + 1 }
  else v

end ObservedPeer

/-- What the log tells of a record: its socket as the last line names it, and what has been
observed of the peer. -/
structure LoggedPeer where
  context : Option EventPeerContext := none
  observed : ObservedPeer := {}

namespace LoggedPeer

/-- The socket that a line names. -/
def contextOf (line : Json) : EventPeerContext where
  peerKey := line.textAt "peer_key"
  peerIp := line.textAt "peer_ip"
  peerPort := (line.integerAt "peer_port").toNat
  direction := line.textAt "direction"
  transport := line.textAt "transport"

/-- One line more. -/
def read (v : LoggedPeer) (line : Json) : LoggedPeer where
  context := some (contextOf line)
  observed := v.observed.readEvent (line.textAt "event_type")
    ((line.find "payload").getD .null)

end LoggedPeer

namespace PeerStats

def observed (p : PeerStats) : ObservedPeer where
  clientName := p.clientName
  observedFlags := p.observedFlags
  observedSources := p.observedSources
  totalDownloadBytes := p.totalDownloadBytes
  totalUploadBytes := p.totalUploadBytes
  downloadRateSamples := p.downloadRateSamples
  uploadRateSamples := p.uploadRateSamples
  stateFlagsInitialized := p.stateFlagsInitialized
  remoteChoked := p.remoteChoked
  localChoked := p.localChoked
  snubbed := p.snubbed
  interesting := p.interesting
  remoteInterested := p.remoteInterested
  seed := p.seed
  chokedCount := p.chokedCount
  unchokedCount := p.unchokedCount
  weChokedCount := p.weChokedCount
  weUnchokedCount := p.weUnchokedCount
  snubbedCount := p.snubbedCount
  unsnubbedCount := p.unsnubbedCount

/-- The part of a record that the log tells. -/
def logged (p : PeerStats) : LoggedPeer where
  context := some p.eventContext
  observed := p.observed

end PeerStats

/-! ### Lines that the client writes -/

/-- A line under the socket of a record. -/
theorem LoggedPeer.read_event (writer : EventWriter) (ts : TimestampPair) (eventType : String)
    (payload : Json) (context : EventPeerContext) (v : LoggedPeer) :
    v.read (writer.event ts eventType payload (some context)) =
      ⟨some context, v.observed.readEvent eventType payload⟩ := by
  have hmembers : ∀ key value, (key, value) ∈ [("event_type", Json.text eventType),
      ("payload", payload), ("peer_key", Json.text context.peerKey),
      ("peer_ip", Json.text context.peerIp), ("peer_port", .integer context.peerPort),
      ("direction", Json.text context.direction),
      ("transport", Json.text context.transport)] →
      (writer.event ts eventType payload (some context)).find key = some value := by
    intro key value hmember
    simp only [List.mem_cons, List.not_mem_nil, or_false, Prod.mk.injEq] at hmember
    obtain ⟨rfl, rfl⟩ | ⟨rfl, rfl⟩ | ⟨rfl, rfl⟩ | ⟨rfl, rfl⟩ | ⟨rfl, rfl⟩ | ⟨rfl, rfl⟩ |
      ⟨rfl, rfl⟩ := hmember <;>
      simp [EventWriter.event, Json.find, Json.Members.lookup_set, Json.Members.ofList]
  have htype := hmembers "event_type" (Json.text eventType) (by simp)
  have hpayload := hmembers "payload" payload (by simp)
  have hkey := hmembers "peer_key" (Json.text context.peerKey) (by simp)
  have hip := hmembers "peer_ip" (Json.text context.peerIp) (by simp)
  have hport := hmembers "peer_port" (.integer context.peerPort) (by simp)
  have hdirection := hmembers "direction" (Json.text context.direction) (by simp)
  have htransport := hmembers "transport" (Json.text context.transport) (by simp)
  simp only [read, contextOf, Json.textAt, Json.integerAt, htype, hpayload, hkey, hip, hport,
    hdirection, htransport, Option.bind_some, Json.asText?_text, Option.getD_some,
    Int.toNat_natCast]

/-- A payload that `capture_snapshots` has written. -/
theorem ObservedPeer.readSnapshot_peerSnapshotPayload {A : Type} (peer : PeerInfo A)
    (v : ObservedPeer) :
    v.readSnapshot (peerSnapshotPayload peer) =
      (((v.readDetails peer.client (peerFlagLabels peer) (peerSourceLabels peer)).readTraffic
        peer.totalDownload peer.totalUpload (PeerStats.snapshotDownloadRate peer)
        (PeerStats.snapshotUploadRate peer)).readTransitions
          (hasFlag peer.flags .remoteChoked) (hasFlag peer.flags .choked)).readFlags
        (peerFlagLabels peer) := by
  have hfind : ∀ key, (peerSnapshotPayload peer).find key = _ := Json.find_obj_eq_reverse _
  have hflags : (peerSnapshotPayload peer).textsAt "flags" = peerFlagLabels peer := by
    rw [Json.textsAt, hfind]
    exact Json.filterMap_asText?_text _
  have hsources : (peerSnapshotPayload peer).textsAt "sources" = peerSourceLabels peer := by
    rw [Json.textsAt, hfind]
    exact Json.filterMap_asText?_text _
  have hclient : (peerSnapshotPayload peer).stringAt "client" = peer.client := by
    rw [Json.stringAt, hfind]
    rfl
  have hinteger : ∀ key n, (peerSnapshotPayload peer).find key = some (.integer n) →
      (peerSnapshotPayload peer).integerAt key = n := by
    intro key n hkey
    rw [Json.integerAt, hkey]
  have hdownload := hinteger "total_download_bytes" peer.totalDownload (hfind _)
  have hupload := hinteger "total_upload_bytes" peer.totalUpload (hfind _)
  have hpayloadDown := hinteger "payload_down_speed_Bps" peer.payloadDownSpeed (hfind _)
  have hpayloadUp := hinteger "payload_up_speed_Bps" peer.payloadUpSpeed (hfind _)
  have hdown := hinteger "down_speed_Bps" peer.downSpeed (hfind _)
  have hup := hinteger "up_speed_Bps" peer.upSpeed (hfind _)
  have hremote : decide ("peer_choked_us" ∈ peerFlagLabels peer) =
      hasFlag peer.flags .remoteChoked := decide_label_mem peer .remoteChoked
  have hlocal : decide ("we_choked_peer" ∈ peerFlagLabels peer) =
      hasFlag peer.flags .choked := decide_label_mem peer .choked
  simp only [readSnapshot, hflags, hsources, hclient, hdownload, hupload, hpayloadDown,
    hpayloadUp, hdown, hup, hremote, hlocal]
  rfl

/-! ### What an operation does to it -/

namespace PeerStats

@[simp] theorem observed_markSeen (ts : TimestampPair) (p : PeerStats) :
    (p.markSeen ts).observed = p.observed := rfl

@[simp] theorem observed_notePeerId (pid : PeerId) (p : PeerStats) :
    (p.notePeerId pid).observed = p.observed := rfl

@[simp] theorem observed_flushIncomingRequestBurst (p : PeerStats) :
    p.flushIncomingRequestBurst.observed = p.observed := by
  unfold flushIncomingRequestBurst
  split <;> rfl

@[simp] theorem observed_noteIncomingRequestBurst (monoNs : Int) (p : PeerStats) :
    (p.noteIncomingRequestBurst monoNs).observed = p.observed := by
  simp only [noteIncomingRequestBurst]
  split
  · rfl
  · split
    · rfl
    · exact observed_flushIncomingRequestBurst p

@[simp] theorem observed_noteConnect (ts : TimestampPair) (direction transport : String)
    (fromConnectAlert : Bool) (p : PeerStats) :
    (p.noteConnect ts direction transport fromConnectAlert).observed = p.observed := by
  cases fromConnectAlert with
  | false => rfl
  | true =>
      simp only [noteConnect, if_true]
      split <;> rfl

@[simp] theorem observed_noteDisconnect (ts : TimestampPair) (p : PeerStats) :
    (p.noteDisconnect ts).observed = p.observed := by
  have hflush : (p.markSeen ts).flushIncomingRequestBurst.observed = p.observed :=
    observed_flushIncomingRequestBurst _
  exact hflush

/-- Of the calls on a record, only the snubs are observed. -/
theorem observed_call {c : PeerCall} (hsnubbed : c.kind ≠ .snubbed)
    (hunsnubbed : c.kind ≠ .unsnubbed) (ts : TimestampPair) (p : PeerStats) :
    (p.call ts c).observed = p.observed := by
  cases c with
  | incomingRequest request =>
      have hburst := observed_noteIncomingRequestBurst ts.monoNs
        (((p.markSeen ts).noteInteraction ts.monoNs).paceIncomingRequest ts)
      exact hburst
  | snubbed => exact absurd rfl hsnubbed
  | unsnubbed => exact absurd rfl hunsnubbed
  | _ => rfl

@[simp] theorem observed_noteSnapshotInteraction (ts : TimestampPair) (snapshotIntervalMs : Int)
    (activeNow : Bool) (p : PeerStats) :
    (p.noteSnapshotInteraction ts snapshotIntervalMs activeNow).observed = p.observed := by
  simp only [noteSnapshotInteraction]
  split <;> rfl

@[simp] theorem observed_noteSnapshotDetails {A : Type} (peer : PeerInfo A) (p : PeerStats) :
    (p.noteSnapshotDetails peer).observed =
      p.observed.readDetails peer.client (peerFlagLabels peer) (peerSourceLabels peer) := rfl

@[simp] theorem observed_noteSnapshotTraffic {A : Type} (peer : PeerInfo A) (p : PeerStats) :
    (p.noteSnapshotTraffic peer).observed =
      p.observed.readTraffic peer.totalDownload peer.totalUpload (snapshotDownloadRate peer)
        (snapshotUploadRate peer) := rfl

@[simp] theorem observed_recordOutstandingDepth (depth : ℚ) (p : PeerStats) :
    (p.recordOutstandingDepth depth).observed = p.observed := rfl

@[simp] theorem observed_noteSnapshotTransitions (remoteChokedNow localChokedNow : Bool)
    (p : PeerStats) :
    (p.noteSnapshotTransitions remoteChokedNow localChokedNow).observed =
      p.observed.readTransitions remoteChokedNow localChokedNow := rfl

@[simp] theorem observed_noteSnapshotFlags {A : Type} (peer : PeerInfo A) (p : PeerStats) :
    (p.noteSnapshotFlags peer).observed = p.observed.readFlags (peerFlagLabels peer) := by
  have hflag := decide_label_mem peer
  simp only [noteSnapshotFlags, observed, ObservedPeer.readFlags]
  rw [← hflag .remoteChoked, ← hflag .choked, ← hflag .snubbed, ← hflag .interesting,
    ← hflag .remoteInterested, ← hflag .seed]
  rfl

@[simp] theorem observed_advanceActivityWindow (monoNs : Int) (activeNow : Bool)
    (p : PeerStats) : (p.advanceActivityWindow monoNs activeNow).observed = p.observed := rfl

/-- A snapshot is told by its payload. -/
theorem observed_updateFromSnapshot {A : Type} (peer : PeerInfo A) (ts : TimestampPair)
    (snapshotIntervalMs : Int) (p : PeerStats) :
    (p.updateFromSnapshot peer ts snapshotIntervalMs).observed =
      p.observed.readSnapshot (peerSnapshotPayload peer) := by
  rw [ObservedPeer.readSnapshot_peerSnapshotPayload]
  simp only [updateFromSnapshot, observed_noteSnapshotInteraction,
    observed_advanceActivityWindow, observed_noteSnapshotFlags, observed_noteSnapshotTransitions,
    observed_recordOutstandingDepth, observed_noteSnapshotTraffic, observed_noteSnapshotDetails,
    observed_notePeerId, observed_markSeen]

@[simp] theorem observed_finalize (sessionEnd : TimestampPair) (p : PeerStats) :
    (p.finalize sessionEnd).observed = p.observed := by
  have hflush := observed_flushIncomingRequestBurst p
  simp only [finalize]
  split
  · rw [observed_noteDisconnect, hflush]
  · split
    · exact hflush
    · exact hflush

end PeerStats

/-- The line of an operation tells what the operation has done to the record. -/
theorem PeerOp.observed_change {A : Type} {op : PeerOp A} {eventType : String} {payload : Json}
    (h : op.Describes eventType payload) (p : PeerStats) :
    (op.change p).observed = p.observed.readEvent eventType payload := by
  have hsnubbed : eventType = "peer_snubbed" ↔ op.kind? = some .snubbed := h.logsAs.kind .snubbed
  have hunsnubbed : eventType = "peer_unsnubbed" ↔ op.kind? = some .unsnubbed :=
    h.logsAs.kind .unsnubbed
  have hunread : (∀ peer ts snapshotIntervalMs, op ≠ .snapshot peer ts snapshotIntervalMs) →
      op.kind? ≠ some .snubbed → op.kind? ≠ some .unsnubbed →
      p.observed.readEvent eventType payload = p.observed := by
    intro hother hsnub hunsnub
    rw [ObservedPeer.readEvent, if_neg (h.other hother), if_neg (mt hsnubbed.mp hsnub),
      if_neg (mt hunsnubbed.mp hunsnub)]
  cases op with
  | snapshot peer ts snapshotIntervalMs =>
      obtain ⟨rfl, rfl⟩ := h.snapshot peer ts snapshotIntervalMs rfl
      exact PeerStats.observed_updateFromSnapshot peer ts snapshotIntervalMs p
  | connect endpoint pid ts direction transport =>
      rw [hunread (by simp) (by simp [kind?]) (by simp [kind?])]
      exact PeerStats.observed_noteConnect ts direction transport true p
  | disconnect endpoint pid ts =>
      rw [hunread (by simp) (by simp [kind?]) (by simp [kind?])]
      exact PeerStats.observed_noteDisconnect ts _
  | event endpoint pid ts call =>
      cases call with
      | none =>
          rw [hunread (by simp) (by simp [kind?]) (by simp [kind?])]
          rfl
      | some c =>
          by_cases hsnub : c.kind = .snubbed
          · cases c <;> cases hsnub
            rw [hsnubbed.mpr rfl]
            rfl
          · by_cases hunsnub : c.kind = .unsnubbed
            · cases c <;> cases hunsnub
              rw [hunsnubbed.mpr rfl]
              rfl
            · rw [hunread (by simp) (by simpa [kind?] using hsnub)
                (by simpa [kind?] using hunsnub)]
              exact PeerStats.observed_call hsnub hunsnub ts _

/-- Closing a record at the end of the session keeps what the log tells of it. -/
theorem PeerStats.logged_finalize (sessionEnd : TimestampPair) (p : PeerStats) :
    (p.finalize sessionEnd).logged = p.logged := by
  have hface := PeerStats.face_finalize sessionEnd p
  have hcontext : (p.finalize sessionEnd).eventContext = p.eventContext := by
    rw [PeerStats.eventContext, PeerStats.eventContext, EventPeerContext.mk.injEq]
    exact ⟨congrArg PeerFace.peerKey hface, congrArg PeerFace.peerIp hface,
      congrArg PeerFace.peerPort hface, congrArg PeerFace.direction hface,
      congrArg PeerFace.transport hface⟩
  rw [PeerStats.logged, PeerStats.logged, hcontext, PeerStats.observed_finalize]

/-! ### The other operations on the session -/

section Session

theorem logged_creditFinishedPiece (s : SessionStats) (key k : String) :
    ((s.creditFinishedPiece key).peersByKey[k]?).map PeerStats.logged =
      (s.peersByKey[k]?).map PeerStats.logged := by
  unfold SessionStats.creditFinishedPiece
  split
  · next p hp =>
      simp only [PeerHandle.modify, Std.ExtTreeMap.getElem?_insert]
      split
      · next heq =>
          rw [← Std.LawfulEqCmp.compare_eq_iff_eq.mp heq, hp]
          rfl
      · rfl
  · rfl

variable {A : Type} [Address A]

/-- An operation that is not about a peer keeps what the log tells of the records. -/
theorem SessionOp.logged_apply_of_not_peer (op : SessionOp A) (s : SessionStats)
    (h : ∀ op', op ≠ .peer op') (k : String) :
    ((op.apply s).peersByKey[k]?).map PeerStats.logged =
      (s.peersByKey[k]?).map PeerStats.logged := by
  cases op with
  | peer op => exact absurd rfl (h op)
  | pieceFinished pieceIndex =>
      simp only [apply, SessionStats.notePieceFinished]
      split
      · rfl
      · split
        · rfl
        · exact logged_creditFinishedPiece _ _ k
  | alertLoss bits =>
      simp only [apply, SessionStats.noteAlertLoss, SessionStats.mapPeers,
        Std.ExtTreeMap.getElem?_map, Option.map_map]
      rfl
  | torrentState state => rfl
  | sessionSnapshot status => rfl
  | initialTotals status => rfl

end Session

/-! ### Replaying the lines of a record -/

/-- The lines that name the record `k`. -/
def linesOfKey (k : String) (lines : List Json) : List Json :=
  lines.filter fun line => line.loggedKey = some k

theorem linesOfKey_append_of_ne {k : String} {line : Json} (h : line.loggedKey ≠ some k)
    (lines : List Json) : linesOfKey k (lines ++ [line]) = linesOfKey k lines := by
  rw [linesOfKey, List.filter_append, List.filter_singleton, decide_eq_false h]
  exact List.append_nil _

theorem linesOfKey_append_self {k : String} {line : Json} (h : line.loggedKey = some k)
    (lines : List Json) : linesOfKey k (lines ++ [line]) = linesOfKey k lines ++ [line] := by
  rw [linesOfKey, List.filter_append, List.filter_singleton, decide_eq_true h]
  rfl

/-- What the log tells of the record `k`. -/
def replay (k : String) (lines : List Json) : LoggedPeer :=
  (linesOfKey k lines).foldl LoggedPeer.read {}

theorem replay_append_of_ne {k : String} {line : Json} (h : line.loggedKey ≠ some k)
    (lines : List Json) : replay k (lines ++ [line]) = replay k lines := by
  rw [replay, linesOfKey_append_of_ne h, replay]

theorem replay_append_self {k : String} {line : Json} (h : line.loggedKey = some k)
    (lines : List Json) : replay k (lines ++ [line]) = (replay k lines).read line := by
  rw [replay, linesOfKey_append_self h, List.foldl_append]
  rfl

/-- The records are what the log tells of them, and a key that is not in use has no lines. -/
structure Replays (s : SessionStats) (lines : List Json) : Prop where
  represents : ∃ v, Represents s v
  fresh : ∀ k : String, s.peersByKey[k]? = none → linesOfKey k lines = []
  replayed : ∀ (k : String) (p : PeerStats), s.peersByKey[k]? = some p →
    p.logged = replay k lines

namespace Replays

variable {s s' : SessionStats} {lines : List Json}

/-- The parts of the records that the log does not tell do not matter. -/
theorem of_logged (h : Replays s lines) (hrep : ∃ v, Represents s' v)
    (hlogged : ∀ k : String, (s'.peersByKey[k]?).map PeerStats.logged =
      (s.peersByKey[k]?).map PeerStats.logged) : Replays s' lines where
  represents := hrep
  fresh k hk := by
    have hkey := hlogged k
    rw [hk, Option.map_none, eq_comm, Option.map_eq_none_iff] at hkey
    exact h.fresh k hkey
  replayed k p hp := by
    have hkey := hlogged k
    rw [hp, Option.map_some, eq_comm, Option.map_eq_some_iff] at hkey
    obtain ⟨p', hp', heq⟩ := hkey
    rw [← heq]
    exact h.replayed k p' hp'

/-- A line that names no record. -/
theorem line (h : Replays s lines) {line : Json} (hkey : line.loggedKey = none) :
    Replays s (lines ++ [line]) where
  represents := h.represents
  fresh k hk := by
    rw [linesOfKey_append_of_ne (by rw [hkey]; simp)]
    exact h.fresh k hk
  replayed k p hp := by
    rw [replay_append_of_ne (by rw [hkey]; simp)]
    exact h.replayed k p hp

end Replays

section Operations

variable {A : Type} [Address A]

/-- The record that an operation is about, before the operation, also when the operation
creates it. -/
theorem Replays.observed_ensured {s : SessionStats} {lines : List Json} (h : Replays s lines)
    (op : PeerOp A) :
    (op.ensured s).peer.observed = (replay (op.ensured s).key lines).observed := by
  obtain ⟨v, hrep⟩ := h.represents
  rcases op.ensured_cases hrep with ⟨hsome, -⟩ | ⟨hnone, ⟨n, hpeer⟩, -⟩
  · exact congrArg LoggedPeer.observed (h.replayed _ _ hsome)
  · rw [hpeer, replay, h.fresh _ hnone]
    cases op <;> rfl

/-- An operation on a record with its line. -/
theorem Replays.peer {s : SessionStats} {lines : List Json} (h : Replays s lines)
    (op : PeerOp A) (writer : EventWriter) (writeTs : TimestampPair) {eventType : String}
    {payload : Json} (hdescribes : op.Describes eventType payload) :
    Replays (op.apply s).stats (lines ++
      [writer.event writeTs eventType payload (some (op.apply s).peer.eventContext)]) := by
  obtain ⟨v, hrep⟩ := h.represents
  have hget := op.getElem?_apply_key s
  have hpeer : (op.apply s).peer = op.change (op.ensured s).peer :=
    Option.some.inj ((op.apply s).getElem?_key.symm.trans hget)
  have hkey : (writer.event writeTs eventType payload
      (some (op.apply s).peer.eventContext)).loggedKey = some (op.apply s).key := by
    rw [loggedKey_event]
    exact congrArg some (op.peerKey_apply hrep)
  refine ⟨⟨_, op.represents_apply hrep⟩, fun k hk => ?_, fun k p hp => ?_⟩
  · by_cases hself : (op.apply s).key = k
    · rw [← hself, hget] at hk
      cases hk
    · rw [op.getElem?_apply_of_ne hrep hself] at hk
      rw [linesOfKey_append_of_ne (by rw [hkey]; exact fun heq => hself (Option.some.inj heq))]
      exact h.fresh k hk
  · by_cases hself : (op.apply s).key = k
    · rw [← hself, hget] at hp
      cases hp
      rw [← hself, replay_append_self hkey, LoggedPeer.read_event, ← hpeer, op.key_ensured,
        ← h.observed_ensured op, ← PeerOp.observed_change hdescribes, ← hpeer]
      rfl
    · rw [op.getElem?_apply_of_ne hrep hself] at hp
      rw [replay_append_of_ne (by rw [hkey]; exact fun heq => hself (Option.some.inj heq))]
      exact h.replayed k p hp

theorem Replays.step {before after : SessionStats × List Json} (hstep : LogStep A before after)
    (h : Replays before.1 before.2) : Replays after.1 after.2 := by
  obtain ⟨v, hrep⟩ := h.represents
  cases hstep with
  | count s lines body =>
      exact h.of_logged ⟨v, hrep.countAlert body⟩ fun k => by
        rw [peersByKey_countAlert]
  | session s lines op hop =>
      exact h.of_logged ⟨_, op.represents_apply hrep⟩ (op.logged_apply_of_not_peer s hop)
  | line s lines line hkey => exact h.line hkey
  | peer s lines op writer writeTs eventType payload hdescribes =>
      exact h.peer op writer writeTs hdescribes

theorem Replays.steps {before after : SessionStats × List Json}
    (hsteps : LogSteps A before after) (h : Replays before.1 before.2) :
    Replays after.1 after.2 := by
  induction hsteps with
  | refl => exact h
  | tail _ hstep ih => exact ih.step hstep

omit [Address A] in
theorem replays_new (runId sessionId : ByteString) (start : TimestampPair) :
    Replays (SessionStats.new runId sessionId start) [] where
  represents := ⟨_, represents_new runId sessionId start⟩
  fresh _ _ := rfl
  replayed k p hp := by simp [SessionStats.new] at hp

end Operations

end BtClient
