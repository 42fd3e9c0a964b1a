import BtClient.Drain
import BtClient.Representation

/-!
# The operation behind an alert

Handling an alert advances the session-wide counters of its kind, makes at most
one operation on the statistics, and asks for one line of a fixed event type. An
alert about a peer logs its line under the key of the record that the operation
was about.
-/

namespace BtClient

section Alerts

variable {A : Type}

/-- The session-wide counters that `drain_alerts` advances itself. -/
def SessionStats.countAlert (s : SessionStats) : AlertBody A → SessionStats
  | .trackerAnnounce _ _ => { s with trackerAnnounces := s.trackerAnnounces + 1 }
  | .trackerReply _ _ => { s with trackerReplies := s.trackerReplies + 1 }
  | .trackerError _ _ _ _ _ => { s with trackerErrors := s.trackerErrors + 1 }
  | .trackerWarning _ _ => { s with trackerWarnings := s.trackerWarnings + 1 }
  | .peerError _ _ op _ =>
      { s with
        peerErrorCount := s.peerErrorCount + 1
        connectionFailures := s.connectionFailures +
          if isConnectionFailureOperation op then 1 else 0 }
  | .incomingConnection _ _ =>
      { s with incomingConnectionCount := s.incomingConnectionCount + 1 }
  | _ => s

namespace AlertBody

/-- The operation that handling the alert makes. -/
def op? (ts : TimestampPair) : AlertBody A → Option (SessionOp A)
  | .stateChanged state _ => some (.torrentState state)
  | .peerConnect endpoint pid direction socketType =>
      some (.peer (.connect endpoint pid ts (peerConnectDirectionName direction)
        (transportFromSocketType socketType)))
  | .peerError endpoint pid _ _ => some (.peer (.event endpoint pid ts none))
  | .peerDisconnected endpoint pid _ _ _ _ => some (.peer (.disconnect endpoint pid ts))
  | .peerSnubbed endpoint pid => some (.peer (.event endpoint pid ts (some .snubbed)))
  | .peerUnsnubbed endpoint pid => some (.peer (.event endpoint pid ts (some .unsnubbed)))
  | .blockDownloading endpoint pid pieceIndex blockIndex =>
      some (.peer (.event endpoint pid ts (some (.requestSent pieceIndex blockIndex))))
  | .blockFinished endpoint pid pieceIndex blockIndex =>
      some (.peer (.event endpoint pid ts (some (.blockResponse pieceIndex blockIndex))))
  | .blockTimeout endpoint pid pieceIndex blockIndex =>
      some (.peer (.event endpoint pid ts (some (.timeout pieceIndex blockIndex))))
  | .requestDropped endpoint pid pieceIndex blockIndex =>
      some (.peer (.event endpoint pid ts (some (.drop pieceIndex blockIndex))))
  | .incomingRequest endpoint pid req =>
      some (.peer (.event endpoint pid ts (some (.incomingRequest req))))
  | .blockUploaded endpoint pid pieceIndex blockIndex =>
      some (.peer (.event endpoint pid ts (some (.blockUploaded pieceIndex blockIndex))))
  | .pieceFinished pieceIndex => some (.pieceFinished pieceIndex)
  | .peerLog endpoint pid _ _ _ => some (.peer (.event endpoint pid ts none))
  | .alertsDropped droppedCount => some (.alertLoss droppedCount)
  | _ => none

/-- The event type of the line that handling the alert writes. -/
def eventType? : AlertBody A → Option String
  | .listenSucceeded _ _ _ => some "listen_succeeded"
  | .listenFailed _ _ _ _ _ => some "listen_failed"
  | .trackerAnnounce _ _ => some "tracker_announce"
  | .trackerReply _ _ => some "tracker_reply"
  | .trackerError _ _ _ _ _ => some "tracker_error"
  | .trackerWarning _ _ => some "tracker_warning"
  | .stateChanged _ _ => some "torrent_state_changed"
  | .torrentFinished => some "torrent_finished"
  | .peerConnect _ _ _ _ => some "peer_connected"
  | .peerError _ _ _ _ => some "peer_error"
  | .peerDisconnected _ _ _ _ _ _ => some "peer_disconnected"
  | .incomingConnection _ _ => some "incoming_connection"
  | .peerSnubbed _ _ => some "peer_snubbed"
  | .peerUnsnubbed _ _ => some "peer_unsnubbed"
  | .blockDownloading _ _ _ _ => some "block_request_sent"
  | .blockFinished _ _ _ _ => some "block_response_received"
  | .blockTimeout _ _ _ _ => some "block_timeout"
  | .requestDropped _ _ _ _ => some "request_dropped"
  | .incomingRequest _ _ _ => some "incoming_request"
  | .blockUploaded _ _ _ _ => some "block_uploaded"
  | .pieceFinished _ => some "piece_finished"
  | .peerLog _ _ _ _ _ => some "peer_log"
  | .alertsDropped _ => some "alerts_dropped"
  | .unhandled => none

end AlertBody

variable [Address A]

/-- An operation that may be missing. -/
def SessionOp.applyOption (s : SessionStats) : Option (SessionOp A) → SessionStats
  | some op => op.apply s
  | none => s

/-- The key under which the operation's line is logged. -/
def SessionOp.loggedKey (s : SessionStats) : Option (SessionOp A) → Option String
  | some (.peer op) => some (op.apply s).peer.peerKey
  | _ => none

theorem handleAlert_stats (s : SessionStats) (ts : TimestampPair) (alert : Alert A) :
    (handleAlert s ts alert).1 =
      SessionOp.applyOption (s.countAlert alert.body) (alert.body.op? ts) := by
  obtain ⟨what, message, body⟩ := alert
  cases body <;> rfl

theorem handleAlert_request (s : SessionStats) (ts : TimestampPair) (alert : Alert A) :
    (handleAlert s ts alert).2.map (fun request =>
        (request.eventType, request.peerContext.map EventPeerContext.peerKey)) =
      alert.body.eventType?.map (fun eventType =>
        (eventType, SessionOp.loggedKey (s.countAlert alert.body) (alert.body.op? ts))) := by
  obtain ⟨what, message, body⟩ := alert
  cases body <;> rfl

omit [Address A] in
/-- Only the counters change. -/
theorem Represents.countAlert {s : SessionStats} {v : String → Generations PeerStats}
    (h : Represents s v) (body : AlertBody A) : Represents (s.countAlert body) v := by
  cases body <;> exact h.of_maps_eq rfl rfl rfl rfl

omit [Address A] in
theorem counts_countAlert (s : SessionStats) (body : AlertBody A) :
    (s.countAlert body).counts = s.counts := by
  cases body <;> rfl

/-- What a missing or present operation does to the records of an endpoint. -/
def SessionOp.historyOption (e : String) (op : Option (SessionOp A))
    (g : Generations PeerStats) : Generations PeerStats :=
  match op with
  | some op => op.history e g
  | none => g

theorem represents_handleAlert {s : SessionStats} {v : String → Generations PeerStats}
    (h : Represents s v) (ts : TimestampPair) (alert : Alert A) :
    Represents (handleAlert s ts alert).1
      (fun e => SessionOp.historyOption e (alert.body.op? ts) (v e)) := by
  rw [handleAlert_stats]
  cases hop : alert.body.op? ts with
  | none => exact h.countAlert alert.body
  | some op => exact op.represents_apply (h.countAlert alert.body)

/-! ### Batches of alerts -/

/-- The statistics after handling the alerts one after the other. -/
def SessionStats.handleAlerts (s : SessionStats) (alerts : List (TimedAlert A)) :
    SessionStats :=
  alerts.foldl (fun s timed => (handleAlert s timed.ts timed.alert).1) s

/-- What the alerts do to the records of the endpoint `e`. -/
def alertHistory (e : String) (alerts : List (TimedAlert A)) (g : Generations PeerStats) :
    Generations PeerStats :=
  alerts.foldl (fun g timed => SessionOp.historyOption e (timed.alert.body.op? timed.ts) g) g

theorem recordAlert_stats {r r' : Recording} {timed : TimedAlert A}
    (h : r.recordAlert timed = .ok r') :
    r'.stats = (handleAlert r.stats timed.ts timed.alert).1 := by
  unfold Recording.recordAlert at h
  split at h
  · next stats heq =>
      cases h
      rw [heq]
  · next stats request heq =>
      split at h
      · cases h
        rw [heq]
      · cases h

theorem drainAlerts_stats {r r' : Recording} {alerts : List (TimedAlert A)}
    (h : r.drainAlerts alerts = .ok r') : r'.stats = r.stats.handleAlerts alerts := by
  induction alerts generalizing r with
  | nil =>
      cases h
      rfl
  | cons timed rest ih =>
      unfold Recording.drainAlerts at h
      split at h
      · next r₁ hr₁ =>
          rw [ih h, recordAlert_stats hr₁]
          rfl
      · cases h

/-- However the alerts are split into batches, they are handled in their order. -/
theorem drainBatches_stats {r r' : Recording} {batches : List (List (TimedAlert A))}
    (h : r.drainBatches batches = .ok r') :
    r'.stats = r.stats.handleAlerts batches.flatten := by
  induction batches generalizing r with
  | nil =>
      cases h
      rfl
  | cons batch rest ih =>
      unfold Recording.drainBatches at h
      split at h
      · next r₁ hr₁ =>
          rw [ih h, drainAlerts_stats hr₁]
          simp [SessionStats.handleAlerts]
      · cases h

theorem represents_handleAlerts {s : SessionStats} {v : String → Generations PeerStats}
    (h : Represents s v) (alerts : List (TimedAlert A)) :
    Represents (s.handleAlerts alerts) (fun e => alertHistory e alerts (v e)) := by
  induction alerts generalizing s v with
  | nil => exact h
  | cons timed rest ih => exact ih (represents_handleAlert h timed.ts timed.alert)

theorem SessionOp.activeLast_historyOption (op : Option (SessionOp A)) (e : String)
    {g : Generations PeerStats} (h : ActiveLast g) :
    ActiveLast (SessionOp.historyOption e op g) := by
  cases op with
  | none => exact h
  | some op => exact op.activeLast_history e h

theorem activeLast_alertHistory (e : String) (alerts : List (TimedAlert A))
    {g : Generations PeerStats} (h : ActiveLast g) : ActiveLast (alertHistory e alerts g) := by
  induction alerts generalizing g with
  | nil => exact h
  | cons timed rest ih => exact ih (SessionOp.activeLast_historyOption _ e h)

end Alerts

/-! ### A sample peer -/

/-- A peer on a fixed address. -/
def samplePeer : Endpoint AddressV4 := ⟨⟨10, 0, 0, 1⟩, 6881⟩

def samplePid : PeerId := Vector.replicate 20 7

/-- An alert about the sample peer, some nanoseconds into the run. -/
def sampleAlert (ns : Int) (body : AlertBody AddressV4) : TimedAlert AddressV4 where
  ts := ⟨"2024-01-01T00:00:00Z", ns⟩
  writeTs := ⟨"2024-01-01T00:00:00Z", ns + 1⟩
  alert := ⟨"alert", "message", body⟩

def sampleConnect (ns : Int) : TimedAlert AddressV4 :=
  sampleAlert ns (.peerConnect samplePeer samplePid .outward .tcp)

def sampleError (ns : Int) : TimedAlert AddressV4 :=
  sampleAlert ns (.peerError samplePeer samplePid {} "connection reset by peer")

def sampleDisconnect (ns : Int) : TimedAlert AddressV4 :=
  sampleAlert ns (.peerDisconnected samplePeer samplePid {} "end of file" 0 .tcp)

def sampleRequest (ns : Int) : TimedAlert AddressV4 :=
  sampleAlert ns (.blockDownloading samplePeer samplePid 3 5)

def sampleStart : Recording :=
  ⟨SessionStats.new "run" "session" ⟨"2024-01-01T00:00:00Z", 1⟩, { config := {} }⟩

end BtClient
