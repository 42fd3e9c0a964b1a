import BtClient.Logging
import BtClient.SessionRun

/-!
# The dispatch of alerts and the snapshots

`drain_alerts` and `capture_snapshots` of `main.cpp`. Handling an alert changes
the statistics and asks for at most one line in the event log; `handleAlert` is
the chain of `alert_cast` branches. A batch is handled alert by alert and ends
early when a line cannot be written. Each alert and each line come with the
timestamp that the client captures for them.
-/

namespace BtClient

/-- `tracker_event_name` -/
def trackerEventName : TrackerEvent → String
  | .completed => "completed"
  | .started => "started"
  | .stopped => "stopped"
  | .paused => "paused"
  | .none => "none"

/-- `peer_connect_direction_name` -/
def peerConnectDirectionName : ConnectDirection → String
  | .inward => "inbound"
  | .outward => "outbound"

/-- `is_connection_failure_operation` -/
def isConnectionFailureOperation (operation : Operation) : Bool :=
  match operation.kind with
  | .connect | .sockOpen | .sslHandshake | .sockBind | .sockAccept => true
  | .other => false

/-- The arguments of one `write_event`. -/
structure LogRequest where
  eventType : String
  payload : Json
  peerContext : Option EventPeerContext := none

section Dispatch

variable {A : Type}

/-- `base_alert_payload` -/
def baseAlertPayload (alert : Alert A) : Json.Members :=
  Json.Members.ofList [("alert_name", .string alert.what), ("message", .string alert.message)]

def blockPayload (alert : Alert A) (pieceIndex blockIndex : Int) : Json :=
  .object (((baseAlertPayload alert).set "piece" (.integer pieceIndex)).set
    "block" (.integer blockIndex))

variable [Address A]

/-- The branches about an event of a peer: note the event, make the call on the
record, and log it under the record's keys. -/
def handlePeerCall (stats : SessionStats) (ts : TimestampPair) (endpoint : Endpoint A)
    (pid : PeerId) (call : PeerCall) (eventType : String) (payload : Json) :
    SessionStats × Option LogRequest :=
  let h := (stats.notePeerEvent endpoint pid ts "unknown" "unknown").call ts call
  (h.stats, some ⟨eventType, payload, some h.peer.eventContext⟩)

/-- The body of the loop of `drain_alerts`. -/
def handleAlert (stats : SessionStats) (ts : TimestampPair) (alert : Alert A) :
    SessionStats × Option LogRequest :=
  let payload := baseAlertPayload alert
  match alert.body with
  | .listenSucceeded address port socketType =>
      (stats, some ⟨"listen_succeeded",
        .object (((payload.set "address" (Json.text (Address.toString address))).set
          "port" (.integer port)).set
          "socket_type" (Json.text (socketTypeLabel socketType))), none⟩)
  | .listenFailed address port op error socketType =>
      (stats, some ⟨"listen_failed",
        .object (((((payload.set "address" (Json.text (Address.toString address))).set
          "port" (.integer port)).set
          "operation" (.string op.name)).set
          "error" (.string error)).set
          "socket_type" (Json.text (socketTypeLabel socketType))), none⟩)
  | .trackerAnnounce trackerUrl event =>
      ({ stats with trackerAnnounces := stats.trackerAnnounces + 1 },
        some ⟨"tracker_announce",
          .object ((payload.set "tracker_url" (.string trackerUrl)).set
            "event" (Json.text (trackerEventName event))), none⟩)
  | .trackerReply trackerUrl numPeers =>
      ({ stats with trackerReplies := stats.trackerReplies + 1 },
        some ⟨"tracker_reply",
          .object ((payload.set "tracker_url" (.string trackerUrl)).set
            "num_peers" (.integer numPeers)), none⟩)
  | .trackerError trackerUrl timesInRow error op failureReason =>
      ({ stats with trackerErrors := stats.trackerErrors + 1 },
        some ⟨"tracker_error",
          .object (((((payload.set "tracker_url" (.string trackerUrl)).set
            "times_in_row" (.integer timesInRow)).set
            "error" (.string error)).set
            "operation" (.string op.name)).set
            "failure_reason" (.string failureReason)), none⟩)
  | .trackerWarning trackerUrl warningMessage =>
      ({ stats with trackerWarnings := stats.trackerWarnings + 1 },
        some ⟨"tracker_warning",
          .object ((payload.set "tracker_url" (.string trackerUrl)).set
            "warning" (.string warningMessage)), none⟩)
  | .stateChanged state prevState =>
      (stats.noteTorrentState state,
        some ⟨"torrent_state_changed",
          .object ((payload.set "previous_state" (Json.text (stateName prevState))).set
            "state" (Json.text (stateName state))), none⟩)
  | .torrentFinished => (stats, some ⟨"torrent_finished", .object payload, none⟩)
  | .peerConnect endpoint pid direction socketType =>
      let h := stats.notePeerConnect endpoint pid ts (peerConnectDirectionName direction)
        (transportFromSocketType socketType)
      (h.stats, some ⟨"peer_connected",
        .object ((payload.set "peer_id_hex" (Json.text (peerIdToHex pid))).set
          "socket_type" (Json.text (socketTypeLabel socketType))), some h.peer.eventContext⟩)
  | .peerError endpoint pid op error =>
      let stats := { stats with
        peerErrorCount := stats.peerErrorCount + 1
        connectionFailures := stats.connectionFailures +
          if isConnectionFailureOperation op then 1 else 0 }
      let h := stats.notePeerEvent endpoint pid ts "unknown" "unknown"
      (h.stats, some ⟨"peer_error",
        .object ((payload.set "error" (.string error)).set "operation" (.string op.name)),
        some h.peer.eventContext⟩)
  | .peerDisconnected endpoint pid op error reason socketType =>
      let h := stats.notePeerDisconnect endpoint pid ts
      (h.stats, some ⟨"peer_disconnected",
        .object ((((payload.set "error" (.string error)).set
          "operation" (.string op.name)).set
          "close_reason" (.integer reason)).set
          "socket_type" (Json.text (socketTypeLabel socketType))), some h.peer.eventContext⟩)
  | .incomingConnection endpoint socketType =>
      ({ stats with incomingConnectionCount := stats.incomingConnectionCount + 1 },
        some ⟨"incoming_connection",
          .object ((((payload.set "peer_ip"
              (Json.text (Address.toString endpoint.address))).set
            "peer_port" (.integer endpoint.port.toNat)).set
            "socket_type" (Json.text (socketTypeLabel socketType))).set
            "transport" (Json.text (transportFromSocketType socketType))), none⟩)
  | .peerSnubbed endpoint pid =>
      handlePeerCall stats ts endpoint pid .snubbed "peer_snubbed" (.object payload)
  | .peerUnsnubbed endpoint pid =>
      handlePeerCall stats ts endpoint pid .unsnubbed "peer_unsnubbed" (.object payload)
  | .blockDownloading endpoint pid pieceIndex blockIndex =>
      handlePeerCall stats ts endpoint pid (.requestSent pieceIndex blockIndex)
        "block_request_sent" (blockPayload alert pieceIndex blockIndex)
  | .blockFinished endpoint pid pieceIndex blockIndex =>
      handlePeerCall stats ts endpoint pid (.blockResponse pieceIndex blockIndex)
        "block_response_received" (blockPayload alert pieceIndex blockIndex)
  | .blockTimeout endpoint pid pieceIndex blockIndex =>
      handlePeerCall stats ts endpoint pid (.timeout pieceIndex blockIndex)
        "block_timeout" (blockPayload alert pieceIndex blockIndex)
  | .requestDropped endpoint pid pieceIndex blockIndex =>
      handlePeerCall stats ts endpoint pid (.drop pieceIndex blockIndex)
        "request_dropped" (blockPayload alert pieceIndex blockIndex)
  | .incomingRequest endpoint pid req =>
      handlePeerCall stats ts endpoint pid (.incomingRequest req) "incoming_request"
        (.object (((payload.set "piece" (.integer req.piece)).set
          "start" (.integer req.start)).set
          "length" (.integer req.length)))
  | .blockUploaded endpoint pid pieceIndex blockIndex =>
      handlePeerCall stats ts endpoint pid (.blockUploaded pieceIndex blockIndex)
        "block_uploaded" (blockPayload alert pieceIndex blockIndex)
  | .pieceFinished pieceIndex =>
      (stats.notePieceFinished pieceIndex,
        some ⟨"piece_finished", .object (payload.set "piece" (.integer pieceIndex)), none⟩)
  | .peerLog endpoint pid eventType direction logMessage =>
      let h := stats.notePeerEvent endpoint pid ts "unknown" "unknown"
      (h.stats, some ⟨"peer_log",
        .object (((payload.set "peer_log_event" (.string eventType)).set
          "direction" (.integer direction)).set
          "log_message" (.string logMessage)), some h.peer.eventContext⟩)
  | .alertsDropped droppedCount =>
      (stats.noteAlertLoss droppedCount,
        some ⟨"alerts_dropped",
          .object (payload.set "dropped_alert_type_bits" (.integer droppedCount)), none⟩)
  | .unhandled => (stats, none)

/-- An alert of a batch, with the timestamps captured while it is handled and while
its line is written. -/
structure TimedAlert (A : Type) where
  ts : TimestampPair
  writeTs : TimestampPair
  alert : Alert A

/-- The statistics and the event log of a run. -/
structure Recording where
  stats : SessionStats
  writer : EventWriter

namespace Recording

/-- One round of the loop of `drain_alerts`. -/
def recordAlert (r : Recording) (timed : TimedAlert A) : Except Failure Recording :=
  match handleAlert r.stats timed.ts timed.alert with
  | (stats, none) => .ok { r with stats := stats }
  | (stats, some request) =>
      match r.writer.writeEvent timed.writeTs request.eventType request.payload
          request.peerContext with
      | .ok writer => .ok ⟨stats, writer⟩
      | .error failure => .error failure

def drainAlerts (r : Recording) : List (TimedAlert A) → Except Failure Recording
  | [] => .ok r
  | timed :: rest =>
      match r.recordAlert timed with
      | .ok r => r.drainAlerts rest
      | .error failure => .error failure

/-- Successive calls of `drain_alerts`, one for each batch. -/
def drainBatches (r : Recording) : List (List (TimedAlert A)) → Except Failure Recording
  | [] => .ok r
  | batch :: rest =>
      match r.drainAlerts batch with
      | .ok r => r.drainBatches rest
      | .error failure => .error failure

end Recording

/-- The payload of a `peer_snapshot` line. -/
def peerSnapshotPayload (peer : PeerInfo A) : Json :=
  Json.obj [
    ("client", .string peer.client),
    ("payload_down_speed_Bps", .integer peer.payloadDownSpeed),
    ("payload_up_speed_Bps", .integer peer.payloadUpSpeed),
    ("down_speed_Bps", .integer peer.downSpeed),
    ("up_speed_Bps", .integer peer.upSpeed),
    ("total_download_bytes", .integer peer.totalDownload),
    ("total_upload_bytes", .integer peer.totalUpload),
    ("download_queue_length", .integer peer.downloadQueueLength),
    ("upload_queue_length", .integer peer.uploadQueueLength),
    ("timed_out_requests", .integer peer.timedOutRequests),
    ("busy_requests", .integer peer.busyRequests),
    ("requests_in_buffer", .integer peer.requestsInBuffer),
    ("queue_bytes", .integer peer.queueBytes),
    ("request_timeout", .integer peer.requestTimeout),
    ("last_active_ms", .integer (totalMilliseconds peer.lastActive)),
    ("last_request_ms", .integer (totalMilliseconds peer.lastRequest)),
    ("flags", .array ((peerFlagLabels peer).map Json.text)),
    ("sources", .array ((peerSourceLabels peer).map Json.text)),
    ("peer_id_hex", Json.text (peerIdToHex peer.pid)),
    ("downloading_piece", .integer peer.downloadingPieceIndex),
    ("downloading_block", .integer peer.downloadingBlockIndex),
    ("downloading_progress", .integer peer.downloadingProgress),
    ("downloading_total", .integer peer.downloadingTotal)]

/-- What `capture_snapshots` reads from libtorrent and from the clock. -/
structure SnapshotInput (A : Type) where
  ts : TimestampPair
  status : TorrentStatus
  isListening : Bool
  listenPort : Int
  sessionWriteTs : TimestampPair
  torrentWriteTs : TimestampPair
  peers : List (TimestampPair × PeerInfo A)

def sessionSnapshotPayload (input : SnapshotInput A) : Json :=
  Json.obj [
    ("num_peers", .integer input.status.numPeers),
    ("is_listening", .bool input.isListening),
    ("listen_port", .integer input.listenPort)]

def torrentSnapshotPayload (status : TorrentStatus) : Json :=
  Json.obj [
    ("state", Json.text (stateName status.state)),
    ("progress", .real (status.progress * 100)),
    ("num_peers", .integer status.numPeers),
    ("num_seeds", .integer status.numSeeds),
    ("total_done", .integer status.totalDone),
    ("total_upload", .integer status.totalUpload),
    ("download_rate_Bps", .integer status.downloadRate),
    ("upload_rate_Bps", .integer status.uploadRate)]

namespace Recording

/-- One round of the loop over the peers of a snapshot. -/
def recordPeerSnapshot (r : Recording) (ts writeTs : TimestampPair) (peer : PeerInfo A) :
    Except Failure Recording :=
  let h := r.stats.notePeerSnapshot peer ts r.writer.config.snapshotIntervalMs
  match r.writer.writeEvent writeTs "peer_snapshot" (peerSnapshotPayload peer)
      (some h.peer.eventContext) with
  | .ok writer => .ok ⟨h.stats, writer⟩
  | .error failure => .error failure

def recordPeerSnapshots (r : Recording) (ts : TimestampPair) :
    List (TimestampPair × PeerInfo A) → Except Failure Recording
  | [] => .ok r
  | (writeTs, peer) :: rest =>
      match r.recordPeerSnapshot ts writeTs peer with
      | .ok r => r.recordPeerSnapshots ts rest
      | .error failure => .error failure

def captureSnapshots (r : Recording) (input : SnapshotInput A) : Except Failure Recording :=
  match r.writer.writeEvent input.sessionWriteTs "session_snapshot"
      (sessionSnapshotPayload input) none with
  | .error failure => .error failure
  | .ok writer =>
      match writer.writeEvent input.torrentWriteTs "torrent_snapshot"
          (torrentSnapshotPayload input.status) none with
      | .error failure => .error failure
      | .ok writer =>
          (Recording.mk (r.stats.recordSessionSnapshot input.status)
            writer).recordPeerSnapshots input.ts input.peers

end Recording

end Dispatch

end BtClient
