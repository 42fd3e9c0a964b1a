import BtClient.Session

/-!
# The totals of a session replayed from the log

Some values of the summary are not numbers of lines: the rates and the bytes of the torrent,
the pieces by heading, the alerts that were lost. `SessionTotals.read` takes one line more
into account. The state and the bytes of the torrent at its start are not in the log; they
are what the reading starts from.
-/

namespace BtClient

/-- The state that a name stands for. -/
def stateOfName (name : String) : Option TorrentState :=
  [.queuedForChecking, .checkingFiles, .downloadingMetadata, .downloading, .finished, .seeding,
    .allocating, .checkingResumeData].find? fun state => stateName state = name

theorem stateOfName_stateName (state : TorrentState) :
    stateOfName (stateName state) = some state := by
  cases state <;> decide

/-- The values of a session that are read off its log line by line. -/
structure SessionTotals where
  latestTorrentState : TorrentState
  initialTotalDoneBytes : Int
  totalDownloadBytes : Int
  maxPeersObserved : Int
  maxSeedsObserved : Int
  downloadRateSamples : List ℚ
  uploadRateSamples : List ℚ
  pieceCompletions : ℕ
  verificationPieceCompletions : ℕ
  alertLossDetected : Bool
  alertsDroppedTypeBitsTotal : ℕ

/-- The totals when the torrent has been added. -/
def SessionTotals.start (status : TorrentStatus) : SessionTotals where
  latestTorrentState := status.state
  initialTotalDoneBytes := status.totalDone
  totalDownloadBytes := 0
  maxPeersObserved := 0
  maxSeedsObserved := 0
  downloadRateSamples := []
  uploadRateSamples := []
  pieceCompletions := 0
  verificationPieceCompletions := 0
  alertLossDetected := false
  alertsDroppedTypeBitsTotal := 0

def SessionStats.totals (s : SessionStats) : SessionTotals where
  latestTorrentState := s.latestTorrentState
  initialTotalDoneBytes := s.initialTotalDoneBytes
  totalDownloadBytes := s.totalDownloadBytes
  maxPeersObserved := s.maxPeersObserved
  maxSeedsObserved := s.maxSeedsObserved
  downloadRateSamples := s.sessionDownloadRateSamples
  uploadRateSamples := s.sessionUploadRateSamples
  pieceCompletions := s.pieceCompletions
  verificationPieceCompletions := s.verificationPieceCompletions
  alertLossDetected := s.alertLossDetected
  alertsDroppedTypeBitsTotal := s.alertsDroppedTypeBitsTotal

namespace SessionTotals

def readState (payload : Json) (v : SessionTotals) : SessionTotals :=
  { v with
    latestTorrentState := (stateOfName (payload.textAt "state")).getD v.latestTorrentState }

/-- A finished piece, under the heading of the state that the log has told last. -/
def readPiece (v : SessionTotals) : SessionTotals :=
  if stateImpliesNetworkPieceCompletion v.latestTorrentState then
    { v with pieceCompletions := v.pieceCompletions + 1 }
  else { v with verificationPieceCompletions := v.verificationPieceCompletions + 1 }

def readLoss (payload : Json) (v : SessionTotals) : SessionTotals :=
  { v with
    alertLossDetected := true
    alertsDroppedTypeBitsTotal :=
      v.alertsDroppedTypeBitsTotal + (payload.integerAt "dropped_alert_type_bits").toNat }

def readSnapshot (payload : Json) (v : SessionTotals) : SessionTotals :=
  let v := v.readState payload
  { v with
    totalDownloadBytes := max 0 (payload.integerAt "total_done" - v.initialTotalDoneBytes)
    maxPeersObserved := max v.maxPeersObserved (payload.integerAt "num_peers")
    maxSeedsObserved := max v.maxSeedsObserved (payload.integerAt "num_seeds")
    downloadRateSamples := v.downloadRateSamples ++ [(payload.integerAt "download_rate_Bps" : ℚ)]
    uploadRateSamples := v.uploadRateSamples ++ [(payload.integerAt "upload_rate_Bps" : ℚ)] }

/-- What a line with the given event type and payload adds. -/
def readEvent (eventType : String) (payload : Json) (v : SessionTotals) : SessionTotals :=
  if eventType = "torrent_snapshot" then v.readSnapshot payload
  else if eventType = "torrent_state_changed" then v.readState payload
  else if eventType = "piece_finished" then v.readPiece
  else if eventType = "alerts_dropped" then v.readLoss payload
  else v

/-- One line more. -/
def read (v : SessionTotals) (line : Json) : SessionTotals :=
  v.readEvent (line.textAt "event_type") ((line.find "payload").getD .null)

theorem readEvent_of_ne {eventType : String} (payload : Json) (v : SessionTotals)
    (hsnapshot : eventType ≠ "torrent_snapshot") (hstate : eventType ≠ "torrent_state_changed")
    (hpiece : eventType ≠ "piece_finished") (hloss : eventType ≠ "alerts_dropped") :
    v.readEvent eventType payload = v := by
  rw [readEvent, if_neg hsnapshot, if_neg hstate, if_neg hpiece, if_neg hloss]

end SessionTotals

theorem find_event_payload (writer : EventWriter) (ts : TimestampPair) (eventType : String)
    (payload : Json) (peerContext : Option EventPeerContext) :
    (writer.event ts eventType payload peerContext).find "payload" = some payload := by
  cases peerContext <;>
    simp [EventWriter.event, Json.find, Json.Members.lookup_set, Json.Members.ofList]

/-- A line that the client writes. -/
theorem SessionTotals.read_event (writer : EventWriter) (ts : TimestampPair)
    (eventType : String) (payload : Json) (peerContext : Option EventPeerContext)
    (v : SessionTotals) :
    v.read (writer.event ts eventType payload peerContext) = v.readEvent eventType payload := by
  have htype : (writer.event ts eventType payload peerContext).textAt "event_type" =
      eventType := by
    rw [Json.textAt, find_event_event_type, Option.bind_some, Json.asText?_text]
    rfl
  rw [read, htype, find_event_payload]
  rfl

theorem textAt_of_find {k t : String} {v : Json} (h : v.find k = some (Json.text t)) :
    v.textAt k = t := by
  rw [Json.textAt, h, Option.bind_some, Json.asText?_text]
  rfl

theorem integerAt_of_find {k : String} {n : Int} {v : Json}
    (h : v.find k = some (.integer n)) : v.integerAt k = n := by
  rw [Json.integerAt, h]

/-- A payload that `capture_snapshots` has written for the torrent. -/
theorem totals_recordSessionSnapshot (s : SessionStats) (status : TorrentStatus) :
    (s.recordSessionSnapshot status).totals =
      s.totals.readEvent "torrent_snapshot" (torrentSnapshotPayload status) := by
  have hfind : ∀ key, (torrentSnapshotPayload status).find key = _ :=
    Json.find_obj_eq_reverse _
  have hstate := textAt_of_find (hfind "state")
  have hdone := integerAt_of_find (n := status.totalDone) (hfind "total_done")
  have hpeers := integerAt_of_find (n := status.numPeers) (hfind "num_peers")
  have hseeds := integerAt_of_find (n := status.numSeeds) (hfind "num_seeds")
  have hdown := integerAt_of_find (n := status.downloadRate) (hfind "download_rate_Bps")
  have hup := integerAt_of_find (n := status.uploadRate) (hfind "upload_rate_Bps")
  rw [SessionTotals.readEvent, if_pos rfl, SessionTotals.readSnapshot, SessionTotals.readState,
    hstate, stateOfName_stateName, hdone, hpeers, hseeds, hdown, hup]
  rfl

/-! ### The operations that leave the totals alone -/

section Operations

theorem PeerHandle.totals_modify (f : PeerStats → PeerStats) (h : PeerHandle) :
    (h.modify f).stats.totals = h.stats.totals := rfl

theorem PeerHandle.totals_call (ts : TimestampPair) (c : PeerCall) (h : PeerHandle) :
    (h.call ts c).stats.totals = h.stats.totals := by
  cases c <;> rfl

theorem PeerHandle.totals_close (h : PeerHandle) :
    h.eraseActive.countDisconnect.stats.totals = h.stats.totals := rfl

theorem totals_creditFinishedPiece (s : SessionStats) (key : String) :
    (s.creditFinishedPiece key).totals = s.totals := by
  unfold SessionStats.creditFinishedPiece
  split <;> rfl

/-- A finished piece is filed as the reader files it. -/
theorem totals_notePieceFinished (s : SessionStats) (pieceIndex : Int) :
    (s.notePieceFinished pieceIndex).totals = s.totals.readPiece := by
  unfold SessionStats.notePieceFinished SessionTotals.readPiece
  have hstate : s.totals.latestTorrentState = s.latestTorrentState := rfl
  rw [hstate]
  cases stateImpliesNetworkPieceCompletion s.latestTorrentState with
  | false => rfl
  | true =>
      simp only [Bool.not_true, Bool.false_eq_true, if_false, if_true]
      split
      · rfl
      · exact totals_creditFinishedPiece _ _

theorem totals_finalize (s : SessionStats) (finish : TimestampPair) :
    (s.finalize finish).totals = s.totals := rfl

variable {A : Type}

theorem totals_countAlert (s : SessionStats) (body : AlertBody A) :
    (s.countAlert body).totals = s.totals := by
  cases body <;> rfl

variable [Address A]

theorem totals_ensure (s : SessionStats) (endpoint : Endpoint A) (ts : TimestampPair)
    (direction transport : String) :
    (s.ensurePeerForEndpoint endpoint ts direction transport).stats.totals = s.totals := by
  unfold SessionStats.ensurePeerForEndpoint
  simp only
  split <;> rfl

theorem PeerOp.totals_apply (op : PeerOp A) (s : SessionStats) :
    (op.apply s).stats.totals = s.totals := by
  cases op with
  | connect endpoint pid ts direction transport =>
      simp only [apply, SessionStats.notePeerConnect, PeerHandle.totals_modify]
      split
      · exact totals_ensure s endpoint ts direction transport
      · exact totals_ensure s endpoint ts direction transport
  | event endpoint pid ts call =>
      cases call with
      | none =>
          simp only [apply, SessionStats.notePeerEvent, PeerHandle.totals_modify, totals_ensure]
      | some c =>
          simp only [apply, SessionStats.notePeerEvent, PeerHandle.totals_call,
            PeerHandle.totals_modify, totals_ensure]
  | disconnect endpoint pid ts =>
      simp only [apply, SessionStats.notePeerDisconnect, SessionStats.notePeerEvent,
        PeerHandle.totals_close, PeerHandle.totals_modify, totals_ensure]
  | snapshot peer ts snapshotIntervalMs =>
      simp only [apply, SessionStats.notePeerSnapshot, PeerHandle.totals_modify, totals_ensure]

/-- What an alert does to the totals is told by its line. -/
theorem totals_handleAlert (s : SessionStats) (ts : TimestampPair) (alert : Alert A) :
    (handleAlert s ts alert).1.totals =
      (handleAlert s ts alert).2.elim s.totals fun request =>
        s.totals.readEvent request.eventType request.payload := by
  have hother : ∀ request : LogRequest, (handleAlert s ts alert).2 = some request →
      request.eventType ≠ "torrent_snapshot" → request.eventType ≠ "torrent_state_changed" →
      request.eventType ≠ "piece_finished" → request.eventType ≠ "alerts_dropped" →
      (handleAlert s ts alert).1.totals = s.totals →
      (handleAlert s ts alert).1.totals =
        (handleAlert s ts alert).2.elim s.totals fun request =>
          s.totals.readEvent request.eventType request.payload := by
    intro request hrequest hsnapshot hstate hpiece hloss htotals
    rw [htotals, hrequest, Option.elim_some,
      SessionTotals.readEvent_of_ne _ _ hsnapshot hstate hpiece hloss]
  have hpeer : ∀ op, alert.body.op? ts = some (.peer op) →
      (handleAlert s ts alert).1.totals = s.totals := by
    intro op hop
    rw [handleAlert_stats, hop, SessionOp.applyOption, SessionOp.apply, op.totals_apply,
      totals_countAlert]
  obtain ⟨what, message, body⟩ := alert
  cases body with
  | stateChanged state prevState =>
      have hstate := textAt_of_find (t := stateName state) (k := "state")
        (v := .object (((baseAlertPayload ⟨what, message,
          AlertBody.stateChanged (A := A) state prevState⟩).set "previous_state"
            (Json.text (stateName prevState))).set "state" (Json.text (stateName state))))
        (by rw [Json.find, Json.Members.lookup_set, if_pos rfl])
      simp only [handleAlert, Option.elim_some, SessionTotals.readEvent, SessionTotals.readState,
        hstate, stateOfName_stateName]
      rfl
  | pieceFinished pieceIndex => exact totals_notePieceFinished s pieceIndex
  | alertsDropped droppedCount =>
      have hbits := integerAt_of_find (n := droppedCount) (k := "dropped_alert_type_bits")
        (v := .object ((baseAlertPayload ⟨what, message,
          AlertBody.alertsDropped (A := A) droppedCount⟩).set "dropped_alert_type_bits"
            (.integer droppedCount)))
        (by rw [Json.find, Json.Members.lookup_set, if_pos rfl])
      simp only [handleAlert, Option.elim_some, SessionTotals.readEvent, SessionTotals.readLoss,
        hbits, Int.toNat_natCast]
      rfl
  | unhandled => rfl
  | peerConnect | peerError | peerDisconnected | peerSnubbed | peerUnsnubbed | blockDownloading
  | blockFinished | blockTimeout | requestDropped | incomingRequest | blockUploaded | peerLog =>
      exact hother _ rfl (by simp) (by simp) (by simp) (by simp) (hpeer _ rfl)
  | listenSucceeded | listenFailed | trackerAnnounce | trackerReply | trackerError
  | trackerWarning | torrentFinished | incomingConnection =>
      exact hother _ rfl (by simp) (by simp) (by simp) (by simp) rfl

end Operations

/-! ### Runs -/

/-- The totals are those at which a reader of the lines arrives from `v`. -/
def Recording.TotalsRead (v : SessionTotals) (r : Recording) : Prop :=
  r.stats.totals = r.writer.lines.foldl SessionTotals.read v

theorem foldl_read_writeEvent {writer writer' : EventWriter} {ts : TimestampPair}
    {eventType : String} {payload : Json} {peerContext : Option EventPeerContext}
    (h : writer.writeEvent ts eventType payload peerContext = .ok writer') (v : SessionTotals) :
    writer'.lines.foldl SessionTotals.read v =
      (writer.lines.foldl SessionTotals.read v).readEvent eventType payload := by
  rw [writeEvent_ok h, List.foldl_append, List.foldl_cons, List.foldl_nil,
    SessionTotals.read_event]

namespace Recording.TotalsRead

variable {A : Type} [Address A] {v : SessionTotals} {r r' : Recording}

theorem recordAlert {timed : TimedAlert A} (h : r.TotalsRead v)
    (hr : r.recordAlert timed = .ok r') : r'.TotalsRead v := by
  have htotals := totals_handleAlert r.stats timed.ts timed.alert
  unfold Recording.recordAlert at hr
  split at hr
  · next stats heq =>
      cases hr
      rw [heq] at htotals
      exact htotals.trans h
  · next stats request heq =>
      rw [heq] at htotals
      split at hr
      · next writer hwrite =>
          cases hr
          have hread := foldl_read_writeEvent hwrite v
          rw [← h] at hread
          exact htotals.trans hread.symm
      · cases hr

theorem drainAlerts {batch : List (TimedAlert A)} (h : r.TotalsRead v)
    (hr : r.drainAlerts batch = .ok r') : r'.TotalsRead v := by
  induction batch generalizing r with
  | nil =>
      cases hr
      exact h
  | cons timed rest ih =>
      unfold Recording.drainAlerts at hr
      split at hr
      · next r₁ hr₁ => exact ih (h.recordAlert hr₁) hr
      · cases hr

theorem recordPeerSnapshots {ts : TimestampPair} {peers : List (TimestampPair × PeerInfo A)}
    (h : r.TotalsRead v) (hr : r.recordPeerSnapshots ts peers = .ok r') : r'.TotalsRead v := by
  induction peers generalizing r with
  | nil =>
      cases hr
      exact h
  | cons entry rest ih =>
      obtain ⟨writeTs, peer⟩ := entry
      unfold Recording.recordPeerSnapshots at hr
      split at hr
      · next r₁ hr₁ =>
          unfold Recording.recordPeerSnapshot at hr₁
          simp only at hr₁
          split at hr₁
          · next writer hwrite =>
              cases hr₁
              have hread := foldl_read_writeEvent hwrite v
              rw [SessionTotals.readEvent_of_ne _ _ (by simp) (by simp) (by simp) (by simp),
                ← h] at hread
              have hpeer := PeerOp.totals_apply
                (.snapshot peer ts r.writer.config.snapshotIntervalMs) r.stats
              refine ih ?_ hr
              exact hpeer.trans hread.symm
          · cases hr₁
      · cases hr

theorem captureSnapshots {input : SnapshotInput A} (h : r.TotalsRead v)
    (hr : r.captureSnapshots input = .ok r') : r'.TotalsRead v := by
  unfold Recording.captureSnapshots at hr
  split at hr
  · cases hr
  · next writer hwrite =>
      split at hr
      · cases hr
      · next writer' hwrite' =>
          have hread := foldl_read_writeEvent hwrite v
          rw [SessionTotals.readEvent_of_ne _ _ (by simp) (by simp) (by simp) (by simp),
            ← h] at hread
          have hread' := foldl_read_writeEvent hwrite' v
          rw [hread] at hread'
          have hsnapshot := totals_recordSessionSnapshot r.stats input.status
          refine recordPeerSnapshots ?_ hr
          exact hsnapshot.trans hread'.symm

theorem run {steps : List (RunStep A)} (h : r.TotalsRead v) (hr : r.run steps = .ok r') :
    r'.TotalsRead v := by
  induction steps generalizing r with
  | nil =>
      cases hr
      exact h
  | cons step rest ih =>
      unfold Recording.run at hr
      split at hr
      · next r₁ hr₁ =>
          refine ih ?_ hr
          cases step with
          | drainAlerts batch => exact h.drainAlerts hr₁
          | captureSnapshots input => exact h.captureSnapshots hr₁
      · cases hr

end Recording.TotalsRead

section Sessions

variable {config : RuntimeConfig} {outputPaths : OutputPaths} {input : SessionInput}
variable {A : Type} [Address A]

theorem totalsRead_openRecording {r : Recording}
    (h : openRecording config outputPaths input = .ok r) :
    r.TotalsRead (.start input.initialStatus) := by
  obtain ⟨hstats, -, hlines⟩ := openRecording_ok h
  have hother : ∀ eventType ∈ ["session_started", "session_config", "torrent_added"],
      ∀ payload (v : SessionTotals), v.readEvent eventType payload = v := by
    intro eventType htype payload v
    simp only [List.mem_cons, List.not_mem_nil, or_false] at htype
    obtain rfl | rfl | rfl := htype <;>
      exact SessionTotals.readEvent_of_ne _ _ (by simp) (by simp) (by simp) (by simp)
  rw [Recording.TotalsRead, hstats, hlines, List.foldl_cons, List.foldl_cons, List.foldl_cons,
    List.foldl_nil, SessionTotals.read_event, SessionTotals.read_event, SessionTotals.read_event,
    hother _ (by simp), hother _ (by simp), hother _ (by simp)]
  rfl

/-- The totals at the end of a session are read off its log. -/
theorem totals_recordSession {sqrt : ℚ → ℚ} {exitReason : String} {calls : List (RunStep A)}
    {recorded : RecordedSession}
    (h : recordSession config outputPaths input sqrt exitReason calls = .ok recorded) :
    recorded.stats.totals =
      recorded.lines.foldl SessionTotals.read (.start input.initialStatus) := by
  obtain ⟨r₀, r, hopen, hrun, hfinish⟩ := recordSession_ok h
  obtain ⟨hstats, hlines, -⟩ := finishRecording_ok hfinish
  have hread : r.TotalsRead (.start input.initialStatus) :=
    (totalsRead_openRecording hopen).run hrun
  rw [hstats, hlines, List.foldl_append, List.foldl_cons, List.foldl_nil,
    SessionTotals.read_event,
    SessionTotals.readEvent_of_ne _ _ (by simp) (by simp) (by simp) (by simp), totals_finalize]
  exact hread

end Sessions

end BtClient
