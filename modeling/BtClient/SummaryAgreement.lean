import BtClient.PeerKeys
import BtClient.SessionReplay

/-!
# The summary agrees with the log

The metrics of the summary, computed from the lines of the log alone. A reader of the log has
to know only the state and the bytes of the torrent when it was added; the other values of
`loggedMetrics` are counts of lines, totals over the records that the lines name, and what the
last snapshots say.
-/

namespace BtClient

/-- The keys that the log names, each once. -/
def seenKeys (lines : List Json) : List String := (loggedKeys lines).dedup

theorem nodup_seenKeys (lines : List Json) : (seenKeys lines).Nodup := List.nodup_dedup _

/-- The log shows that blocks or bytes went to or came from the record. -/
def hadLoggedActivity (lines : List Json) (k : String) : Bool :=
  decide (0 < (keyLines "block_request_sent" k lines).length) ||
    decide (0 < (keyLines "block_response_received" k lines).length) ||
    decide (0 < (keyLines "incoming_request" k lines).length) ||
    decide (0 < (keyLines "block_uploaded" k lines).length) ||
    decide (0 < (replay k lines).observed.totalDownloadBytes) ||
    decide (0 < (replay k lines).observed.totalUploadBytes)

def isLoggedFingerprintable (lines : List Json) (k : String) : Bool :=
  decide (100 ≤ (keyLines "block_request_sent" k lines).length +
    (keyLines "incoming_request" k lines).length) && hadLoggedActivity lines k

/-- The address and the port that the lines of the record name. -/
def loggedEndpoint (lines : List Json) (k : String) : Option (String × ℕ) :=
  (replay k lines).context.map fun context => (context.peerIp, context.peerPort)

/-- The metrics of the summary as a reader of the log computes them. -/
def loggedMetrics (sqrt : ℚ → ℚ) (status : TorrentStatus) (lines : List Json) :
    List (String × Json) :=
  let keys := seenKeys lines
  let totals := lines.foldl SessionTotals.read (.start status)
  let downloadRateSummary := summarizeSamples sqrt totals.downloadRateSamples
  let uploadRateSummary := summarizeSamples sqrt totals.uploadRateSamples
  let endpoints := (keys.map (loggedEndpoint lines)).dedup
  let count eventType := Json.integer (linesOfType eventType lines).length
  [("total_bytes_down",
      .integer (keys.map fun k => (replay k lines).observed.totalDownloadBytes).sum),
    ("total_bytes_up",
      .integer (keys.map fun k => (replay k lines).observed.totalUploadBytes).sum),
    ("file_completed_bytes", .integer totals.totalDownloadBytes),
    ("mean_download_rate_Bps", optionalDouble downloadRateSummary.mean),
    ("mean_upload_rate_Bps", optionalDouble uploadRateSummary.mean),
    ("download_rate_summary", distributionSummaryToJson downloadRateSummary),
    ("upload_rate_summary", distributionSummaryToJson uploadRateSummary),
    ("unique_peers_seen", .integer endpoints.length),
    ("unique_peer_endpoints_seen", .integer endpoints.length),
    ("peer_connections_observed", .integer keys.length),
    ("active_peer_connections", .integer (keys.countP (hadLoggedActivity lines))),
    ("fingerprintable_peer_connections", .integer (keys.countP (isLoggedFingerprintable lines))),
    ("successful_peer_connects",
      .integer (seenKeys (linesOfType "peer_connected" lines)).length),
    ("disconnect_count", count "peer_disconnected"),
    ("peer_error_count", count "peer_error"),
    ("tracker_announces", count "tracker_announce"),
    ("tracker_replies", count "tracker_reply"),
    ("tracker_errors", count "tracker_error"),
    ("tracker_warnings", count "tracker_warning"),
    ("piece_completions", .integer totals.pieceCompletions),
    ("verification_piece_completions", .integer totals.verificationPieceCompletions),
    ("incoming_connections", count "incoming_connection"),
    ("alerts_dropped_notifications", count "alerts_dropped"),
    ("alerts_dropped_type_bits_total", .integer totals.alertsDroppedTypeBitsTotal),
    ("alert_loss_detected", .bool totals.alertLossDetected)]

/-- The members of `torrent` that say what the session has transferred and seen. -/
def loggedTorrent (status : TorrentStatus) (lines : List Json) : List (String × Json) :=
  let keys := seenKeys lines
  let totals := lines.foldl SessionTotals.read (.start status)
  let downloaded :=
    Json.integer (keys.map fun k => (replay k lines).observed.totalDownloadBytes).sum
  let uploaded := Json.integer (keys.map fun k => (replay k lines).observed.totalUploadBytes).sum
  [("session_completed_bytes", .integer totals.totalDownloadBytes),
    ("session_network_downloaded_bytes", downloaded),
    ("session_network_uploaded_bytes", uploaded),
    ("session_downloaded_bytes", downloaded),
    ("session_uploaded_bytes", uploaded),
    ("total_peers_observed", .integer totals.maxPeersObserved),
    ("total_seeds_observed", .integer totals.maxSeedsObserved)]

/-! ### The statistics at the end of a session -/

/-- What the statistics and the log have in common at the end of a session. -/
structure EndsWith (A : Type) [Address A] (s : SessionStats) (lines : List Json) : Prop where
  keyed : ∀ (k : String) (p : PeerStats), s.peersByKey[k]? = some p → p.peerKey = k
  agrees : LogAgrees s lines
  counters : ∀ (k : String) (p : PeerStats) (kind : CounterKind), s.peersByKey[k]? = some p →
    p.counter kind = (keyLines kind.eventName k lines).length
  replayed : ∀ (k : String) (p : PeerStats), s.peersByKey[k]? = some p →
    p.logged = replay k lines
  endpoint : ∀ (k : String) (p : PeerStats), s.peersByKey[k]? = some p →
    ∃ endpoint : Endpoint A, p.endpointKey = endpointToString endpoint ∧
      p.peerIp = Address.toString endpoint.address ∧ p.peerPort = endpoint.port.toNat
  unique : ∀ e : String, e ∈ s.uniquePeerEndpoints ↔
    ∃ (k : String) (p : PeerStats), s.peersByKey[k]? = some p ∧ p.endpointKey = e

section Sessions

variable {config : RuntimeConfig} {outputPaths : OutputPaths} {input : SessionInput}
variable {A : Type} [Address A]

theorem LogInvariant.setInitialTotals {s : SessionStats} {lines : List Json}
    (h : LogInvariant s lines) (status : TorrentStatus) :
    LogInvariant (s.setInitialTotals status) lines := by
  obtain ⟨v, hrep, hactive⟩ := h.history
  refine ⟨⟨v, hrep.of_maps_eq rfl rfl rfl rfl, hactive⟩, h.counted.of_eq rfl rfl,
    h.peers.of_core fun k => rfl, ?_⟩
  exact h.session

/-- A line that names no record and that no counter is about. -/
theorem LogInvariant.line {s : SessionStats} {lines : List Json} (h : LogInvariant s lines)
    (writer : EventWriter) (ts : TimestampPair) {eventType : String} (payload : Json)
    (hdisc : eventType ≠ "peer_disconnected")
    (hsession : ∀ event : SessionEvent, event.eventName ≠ eventType) :
    LogInvariant s (lines ++ [writer.event ts eventType payload none]) := by
  have htype := loggedType_event writer ts eventType payload none
  refine ⟨h.history, h.counted, h.peers.append (loggedKey_event _ _ _ _ _) ?_, ?_⟩
  · rw [htype]
    exact fun heq => hdisc (Option.some.inj heq)
  · intro event
    rw [linesOfType_append, htype,
      if_neg fun heq => hsession event (Option.some.inj heq).symm, List.append_nil]
    exact h.session event

theorem logInvariant_openRecording {r : Recording}
    (h : openRecording config outputPaths input = .ok r) :
    LogInvariant r.stats r.writer.lines := by
  obtain ⟨hstats, -, hlines⟩ := openRecording_ok h
  have hunread : ∀ eventType ∈ ["session_started", "session_config", "torrent_added"],
      eventType ≠ "peer_disconnected" ∧
        ∀ event : SessionEvent, event.eventName ≠ eventType := by
    intro eventType htype
    simp only [List.mem_cons, List.not_mem_nil, or_false] at htype
    obtain rfl | rfl | rfl := htype <;>
      exact ⟨by simp, fun event => by cases event <;> simp [SessionEvent.eventName]⟩
  have hnew := (logInvariant_new config.runId config.sessionId input.sessionStart).setInitialTotals
    input.initialStatus
  have hstarted := hnew.line { config := config } input.startedTs
    (sessionStartedPayload outputPaths input) (hunread "session_started" (by simp)).1
    (hunread "session_started" (by simp)).2
  have hconfig := hstarted.line { config := config } input.configTs
    (sessionConfigPayload config input) (hunread "session_config" (by simp)).1
    (hunread "session_config" (by simp)).2
  have hadded := hconfig.line { config := config, infoHash := input.initialInfoHash }
    input.addedTs (torrentAddedPayload config input) (hunread "torrent_added" (by simp)).1
    (hunread "torrent_added" (by simp)).2
  rw [hstats, hlines]
  exact hadded

/-- The records of a closed session are the closed records. -/
theorem getElem?_finalize (s : SessionStats) (finish : TimestampPair) (k : String) :
    (s.finalize finish).peersByKey[k]? = (s.peersByKey[k]?).map (PeerStats.finalize finish) := by
  rw [SessionStats.finalize, SessionStats.mapPeers, Std.ExtTreeMap.getElem?_map]

theorem exists_of_finalize {s : SessionStats} {finish : TimestampPair} {k : String}
    {p : PeerStats} (hp : (s.finalize finish).peersByKey[k]? = some p) :
    ∃ p', s.peersByKey[k]? = some p' ∧ p = p'.finalize finish := by
  rw [getElem?_finalize, Option.map_eq_some_iff] at hp
  obtain ⟨p', hp', heq⟩ := hp
  exact ⟨p', hp', heq.symm⟩

/-- Closing the records keeps their agreement with the log. -/
theorem LogAgrees.finalize {s : SessionStats} {lines : List Json} (h : LogAgrees s lines)
    (finish : TimestampPair) : LogAgrees (s.finalize finish) lines where
  keys k := by
    rw [← h.keys k, Std.ExtTreeMap.mem_iff_isSome_getElem?, getElem?_finalize,
      Option.isSome_map, ← Std.ExtTreeMap.mem_iff_isSome_getElem?]
  counters k p kind hp := by
    obtain ⟨p', hp', rfl⟩ := exists_of_finalize hp
    have hcounter := congrArg PeerCore.counter (PeerStats.core_finalize finish p')
    exact (congrFun hcounter kind).trans (h.counters k p' kind hp')
  connects := h.connects
  disconnects := h.disconnects
  disconnectKeys := h.disconnectKeys
  session event := by
    rw [← h.session event]
    cases event <;> rfl

/-- The records before the closing, as traces. -/
theorem represents_beforeFinish {r₀ r : Recording} {calls : List (RunStep A)}
    (hopen : openRecording config outputPaths input = .ok r₀) (hrun : r₀.run calls = .ok r) :
    Represents r.stats fun e =>
      (tracesOf e (.initialTotals input.initialStatus ::
        opsOf config.snapshotIntervalMs calls)).map RecordTrace.replay := by
  obtain ⟨hstats, hconfig, -⟩ := openRecording_ok hopen
  have hnew : Represents
      (SessionStats.new config.runId config.sessionId input.sessionStart)
      fun e => (tracesOf e ([] : List (SessionOp A))).map RecordTrace.replay :=
    represents_new config.runId config.sessionId input.sessionStart
  have htotals := SessionOp.represents_append (.initialTotals input.initialStatus) hnew
  have hstart : Represents r₀.stats fun e =>
      (tracesOf e [SessionOp.initialTotals (A := A) input.initialStatus]).map
        RecordTrace.replay := by
    rw [hstats]
    exact htotals
  have hend := followsOps_represents.run hstart hrun
  rw [hconfig] at hend
  exact hend

theorem endsWith_recordSession {sqrt : ℚ → ℚ} {exitReason : String} {calls : List (RunStep A)}
    {recorded : RecordedSession}
    (h : recordSession config outputPaths input sqrt exitReason calls = .ok recorded) :
    EndsWith A recorded.stats recorded.lines := by
  obtain ⟨r₀, r, hopen, hrun, hfinish⟩ := recordSession_ok h
  obtain ⟨hstats, hlines, -⟩ := finishRecording_ok hfinish
  have hrep := represents_beforeFinish hopen hrun
  have hinvariant : LogInvariant r.stats recorded.lines := by
    rw [hlines]
    exact LogInvariant.line (LogInvariant.run (logInvariant_openRecording hopen) hrun) _ _ _
      (by simp) (fun event => by cases event <;> simp [SessionEvent.eventName])
  have hreplays : Replays r.stats recorded.lines := by
    rw [hlines]
    exact ((replays_new config.runId config.sessionId input.sessionStart).steps
      ((logSteps_openRecording (A := A) hopen).trans (logSteps_run hrun))).line
        (loggedKey_event _ _ _ _ _)
  rw [hstats]
  constructor
  · intro k p hp
    obtain ⟨p', hp', rfl⟩ := exists_of_finalize hp
    obtain ⟨-, -, hkey, -⟩ := hrep.key_eq hp'
    exact (congrArg PeerFace.peerKey (PeerStats.face_finalize input.sessionEnd p')).trans hkey
  · exact hinvariant.agrees.finalize input.sessionEnd
  · intro k p kind hp
    obtain ⟨p', hp', rfl⟩ := exists_of_finalize hp
    have hcounter := congrArg PeerCore.counter (PeerStats.core_finalize input.sessionEnd p')
    exact (congrFun hcounter kind).trans (hinvariant.peers.counters k p' kind hp')
  · intro k p hp
    obtain ⟨p', hp', rfl⟩ := exists_of_finalize hp
    rw [PeerStats.logged_finalize]
    exact hreplays.replayed k p' hp'
  · intro k p hp
    obtain ⟨p', hp', rfl⟩ := exists_of_finalize hp
    obtain ⟨n, t, -, ht, hreplay⟩ := hrep.exists_trace hp'
    obtain ⟨endpoint, hendpoint, hip, hport⟩ := tracesOf_induction
      (fun op n => op.knowsEndpoint_opened n) (fun _ ops h => h.extend ops) ht
    rw [← hreplay] at hendpoint hip hport
    have hface := PeerStats.face_finalize input.sessionEnd p'
    exact ⟨endpoint, (congrArg PeerFace.endpointKey hface).trans hendpoint,
      (congrArg PeerFace.peerIp hface).trans hip, (congrArg PeerFace.peerPort hface).trans hport⟩
  · intro e
    have hkey : ∀ p' : PeerStats, (p'.finalize input.sessionEnd).endpointKey = p'.endpointKey :=
      fun p' => congrArg PeerFace.endpointKey (PeerStats.face_finalize input.sessionEnd p')
    have hunique : e ∈ r.stats.uniquePeerEndpoints ↔ _ := hrep.unique_iff e
    refine hunique.trans ⟨?_, ?_⟩
    · rintro ⟨k, p', hp', rfl⟩
      exact ⟨k, p'.finalize input.sessionEnd, by rw [getElem?_finalize, hp']; rfl, hkey p'⟩
    · rintro ⟨k, p, hp, rfl⟩
      obtain ⟨p', hp', rfl⟩ := exists_of_finalize hp
      exact ⟨k, p', hp', (hkey p').symm⟩

end Sessions

/-! ### Totals over the keys of the log -/

namespace EndsWith

variable {A : Type} [Address A] {s : SessionStats} {lines : List Json}

theorem mem_seenKeys (h : EndsWith A s lines) (k : String) :
    k ∈ seenKeys lines ↔ k ∈ s.peersByKey := by
  rw [seenKeys, List.mem_dedup, loggedKeys, List.mem_filterMap, h.agrees.keys]

/-- A total over the records is one over the keys of the log. -/
theorem total_eq_sum (h : EndsWith A s lines) {M : Type} [AddCommMonoid M] (f : PeerStats → M)
    (g : String → M) (hfg : ∀ k p, s.peersByKey[k]? = some p → f p = g k) :
    MapTotal.total f s.peersByKey = ((seenKeys lines).map g).sum := by
  have hkeys : ∀ k, k ∈ (seenKeys lines).toFinset ↔ k ∈ s.peersByKey := by
    intro k
    rw [List.mem_toFinset, h.mem_seenKeys]
  rw [MapTotal.total_eq_sum f s.peersByKey hkeys, List.sum_toFinset _ (nodup_seenKeys lines)]
  congr 1
  apply List.map_congr_left
  intro k hk
  obtain ⟨p, hp⟩ := Option.isSome_iff_exists.mp
    (Std.ExtTreeMap.mem_iff_isSome_getElem?.mp ((h.mem_seenKeys k).mp hk))
  rw [hp, ← hfg k p hp]
  rfl

theorem tally_eq_countP (h : EndsWith A s lines) (q : PeerStats → Bool) (q' : String → Bool)
    (hq : ∀ k p, s.peersByKey[k]? = some p → q p = q' k) :
    MapTotal.tally q s.peersByKey = (seenKeys lines).countP q' := by
  rw [MapTotal.tally, h.total_eq_sum _ (fun k => if q' k then 1 else 0)
    (fun k p hp => by rw [hq k p hp])]
  induction seenKeys lines with
  | nil => rfl
  | cons k rest ih => rw [List.map_cons, List.sum_cons, List.countP_cons, ih, add_comm]

theorem size_eq_length (h : EndsWith A s lines) :
    s.peersByKey.size = (seenKeys lines).length := by
  have hsize : MapTotal.tally (fun _ => true) s.peersByKey = s.peersByKey.size := by
    simp [MapTotal.tally, MapTotal.total]
  rw [← hsize, h.tally_eq_countP (fun _ => true) (fun _ => true) (fun _ _ _ => rfl)]
  exact congrFun List.countP_true _

theorem loggedEndpoint_eq (h : EndsWith A s lines) {k : String} {p : PeerStats}
    (hp : s.peersByKey[k]? = some p) : loggedEndpoint lines k = some (p.peerIp, p.peerPort) := by
  rw [loggedEndpoint, ← h.replayed k p hp]
  rfl

/-- The key of an endpoint, from the address and the port that the log tells. -/
def endpointKeyOf (endpoint : Option (String × ℕ)) : String :=
  (endpoint.map fun e => e.1 ++ ":" ++ toString e.2).getD ""

/-- Different endpoints differ in what the log tells of them. -/
theorem card_unique_eq (h : EndsWith A s lines) :
    s.uniquePeerEndpoints.card = ((seenKeys lines).map (loggedEndpoint lines)).dedup.length := by
  have hknown : ∀ endpoint ∈ (seenKeys lines).map (loggedEndpoint lines),
      ∃ e : Endpoint A, endpoint = some (Address.toString e.address, e.port.toNat) ∧
        endpointKeyOf endpoint = endpointToString e ∧
        ∃ (k : String) (p : PeerStats), s.peersByKey[k]? = some p ∧
          p.endpointKey = endpointToString e := by
    intro endpoint hmem
    obtain ⟨k, hk, rfl⟩ := List.mem_map.mp hmem
    obtain ⟨p, hp⟩ := Option.isSome_iff_exists.mp
      (Std.ExtTreeMap.mem_iff_isSome_getElem?.mp ((h.mem_seenKeys k).mp hk))
    obtain ⟨e, hkey, hip, hport⟩ := h.endpoint k p hp
    rw [h.loggedEndpoint_eq hp, hip, hport]
    exact ⟨e, rfl, rfl, k, p, hp, hkey⟩
  have himage : s.uniquePeerEndpoints =
      ((seenKeys lines).map (loggedEndpoint lines)).toFinset.image endpointKeyOf := by
    ext e
    rw [h.unique, Finset.mem_image]
    constructor
    · rintro ⟨k, p, hp, rfl⟩
      refine ⟨loggedEndpoint lines k, ?_, ?_⟩
      · rw [List.mem_toFinset]
        exact List.mem_map_of_mem ((h.mem_seenKeys k).mpr
          (Std.ExtTreeMap.mem_iff_isSome_getElem?.mpr (by rw [hp]; rfl)))
      · obtain ⟨e, hkey, hip, hport⟩ := h.endpoint k p hp
        rw [h.loggedEndpoint_eq hp, hip, hport, hkey]
        rfl
    · rintro ⟨endpoint, hmem, rfl⟩
      obtain ⟨e, -, hkey, k, p, hp, hpe⟩ := hknown endpoint (List.mem_toFinset.mp hmem)
      exact ⟨k, p, hp, hpe.trans hkey.symm⟩
  rw [himage, Finset.card_image_of_injOn, List.card_toFinset]
  intro endpoint hmem endpoint' hmem' heq
  obtain ⟨e, rfl, hkey, -⟩ := hknown endpoint (List.mem_toFinset.mp hmem)
  obtain ⟨e', rfl, hkey', -⟩ := hknown endpoint' (List.mem_toFinset.mp hmem')
  have hsame : e = e' := endpointToString_injective ((hkey.symm.trans heq).trans hkey')
  rw [hsame]

theorem hadProtocolActivity_eq (h : EndsWith A s lines) (k : String) (p : PeerStats)
    (hp : s.peersByKey[k]? = some p) : p.hadProtocolActivity = hadLoggedActivity lines k := by
  have hrequests : p.requestsSent = _ := h.counters k p .requestSent hp
  have hresponses : p.blockResponsesReceived = _ := h.counters k p .blockResponse hp
  have hincoming : p.incomingRequestsReceived = _ := h.counters k p .incomingRequest hp
  have huploads : p.blocksUploaded = _ := h.counters k p .blockUploaded hp
  have hobserved := congrArg LoggedPeer.observed (h.replayed k p hp)
  have hdown : p.totalDownloadBytes = _ := congrArg ObservedPeer.totalDownloadBytes hobserved
  have hup : p.totalUploadBytes = _ := congrArg ObservedPeer.totalUploadBytes hobserved
  rw [PeerStats.hadProtocolActivity, hrequests, hresponses, hincoming, huploads, hdown, hup]
  rfl

theorem isFingerprintable_eq (h : EndsWith A s lines) (k : String) (p : PeerStats)
    (hp : s.peersByKey[k]? = some p) :
    p.isFingerprintable = isLoggedFingerprintable lines k := by
  have hrequests : p.requestsSent = _ := h.counters k p .requestSent hp
  have hincoming : p.incomingRequestsReceived = _ := h.counters k p .incomingRequest hp
  rw [PeerStats.isFingerprintable, hrequests, hincoming, h.hadProtocolActivity_eq k p hp]
  rfl

/-- The counts of the loop over the records, from the log. -/
theorem peerObservationCounts_eq (h : EndsWith A s lines) :
    peerObservationCounts s =
      ⟨((seenKeys lines).map (loggedEndpoint lines)).dedup.length, (seenKeys lines).length,
        (seenKeys lines).countP (hadLoggedActivity lines),
        (seenKeys lines).countP (isLoggedFingerprintable lines)⟩ := by
  rw [BtClient.peerObservationCounts_eq, h.card_unique_eq, h.size_eq_length,
    h.tally_eq_countP _ _ h.hadProtocolActivity_eq, h.tally_eq_countP _ _ h.isFingerprintable_eq]

theorem peerNetworkByteTotals_eq (h : EndsWith A s lines) :
    peerNetworkByteTotals s =
      ⟨((seenKeys lines).map fun k => (replay k lines).observed.totalDownloadBytes).sum,
        ((seenKeys lines).map fun k => (replay k lines).observed.totalUploadBytes).sum⟩ := by
  have hobserved := fun k p hp => congrArg LoggedPeer.observed (h.replayed k p hp)
  rw [BtClient.peerNetworkByteTotals_eq,
    h.total_eq_sum PeerStats.totalDownloadBytes _
      (fun k p hp => congrArg ObservedPeer.totalDownloadBytes (hobserved k p hp)),
    h.total_eq_sum PeerStats.totalUploadBytes _
      (fun k p hp => congrArg ObservedPeer.totalUploadBytes (hobserved k p hp))]

end EndsWith

/-- The member of a part of the summary. -/
def Json.memberOf (part key : String) (summary : Json) : Option Json :=
  (summary.find part).bind (Json.find key)

theorem metric_sessionSummary (summaryInput : SummaryInput) (s : SessionStats) (sqrt : ℚ → ℚ)
    (key : String) :
    (sessionSummary summaryInput s sqrt).memberOf "global_metrics" key =
      (globalMetricsJson summaryInput s sqrt).find key := by
  have hroot : (sessionSummary summaryInput s sqrt).find "global_metrics" =
      some (globalMetricsJson summaryInput s sqrt) := by
    rw [sessionSummary, Json.find_obj_eq_reverse]
    rfl
  rw [Json.memberOf, hroot, Option.bind_some]

theorem torrent_sessionSummary (summaryInput : SummaryInput) (s : SessionStats) (sqrt : ℚ → ℚ)
    (key : String) :
    (sessionSummary summaryInput s sqrt).memberOf "torrent" key =
      (torrentJson summaryInput s).find key := by
  have hroot : (sessionSummary summaryInput s sqrt).find "torrent" =
      some (torrentJson summaryInput s) := by
    rw [sessionSummary, Json.find_obj_eq_reverse]
    rfl
  rw [Json.memberOf, hroot, Option.bind_some]

/-- The members of `global_metrics`, from the log. -/
theorem EndsWith.find_loggedMetrics {A : Type} [Address A] {s : SessionStats}
    {lines : List Json} {status : TorrentStatus} (hend : EndsWith A s lines)
    (htotals : s.totals = lines.foldl SessionTotals.read (.start status))
    (summaryInput : SummaryInput) (sqrt : ℚ → ℚ) :
    ∀ metric ∈ loggedMetrics sqrt status lines,
      (globalMetricsJson summaryInput s sqrt).find metric.1 = some metric.2 := by
  have hcounts := hend.peerObservationCounts_eq
  have hbytes := hend.peerNetworkByteTotals_eq
  have hfind : ∀ key, (globalMetricsJson summaryInput s sqrt).find key = _ := fun key => by
    rw [globalMetricsJson, Json.find_obj_eq_reverse, hcounts, hbytes]
  intro metric hmem
  have hdown := congrArg SessionTotals.totalDownloadBytes htotals
  have hdownRates := congrArg SessionTotals.downloadRateSamples htotals
  have hupRates := congrArg SessionTotals.uploadRateSamples htotals
  have hpieces := congrArg SessionTotals.pieceCompletions htotals
  have hverified := congrArg SessionTotals.verificationPieceCompletions htotals
  have hloss := congrArg SessionTotals.alertLossDetected htotals
  have hbits := congrArg SessionTotals.alertsDroppedTypeBitsTotal htotals
  have hconnects : s.successfulPeerConnects =
      (seenKeys (linesOfType "peer_connected" lines)).length := hend.agrees.connects
  have hdisconnects := hend.agrees.disconnects
  have hcount : ∀ event, (linesOfType event.eventName lines).length = s.sessionCounter event :=
    fun event => (hend.agrees.session event).symm
  have herrors : (linesOfType "peer_error" lines).length = _ := hcount .peerError
  have hannounces : (linesOfType "tracker_announce" lines).length = _ := hcount .trackerAnnounce
  have hreplies : (linesOfType "tracker_reply" lines).length = _ := hcount .trackerReply
  have htrackerErrors : (linesOfType "tracker_error" lines).length = _ := hcount .trackerError
  have hwarnings : (linesOfType "tracker_warning" lines).length = _ := hcount .trackerWarning
  have hincoming : (linesOfType "incoming_connection" lines).length = _ :=
    hcount .incomingConnection
  have hdropped : (linesOfType "alerts_dropped" lines).length = _ := hcount .alertsDropped
  simp only [loggedMetrics, List.mem_cons, List.not_mem_nil, or_false, ← hdown, ← hdownRates,
    ← hupRates, ← hpieces, ← hverified, ← hloss, ← hbits, ← hconnects, ← hdisconnects, herrors,
    hannounces, hreplies, htrackerErrors, hwarnings, hincoming, hdropped] at hmem
  obtain rfl | rfl | rfl | rfl | rfl | rfl | rfl | rfl | rfl | rfl | rfl | rfl | rfl | rfl |
    rfl | rfl | rfl | rfl | rfl | rfl | rfl | rfl | rfl | rfl | rfl := hmem
  all_goals
    rw [hfind]
    rfl

/-- The members of `torrent`, from the log. -/
theorem EndsWith.find_loggedTorrent {A : Type} [Address A] {s : SessionStats}
    {lines : List Json} {status : TorrentStatus} (hend : EndsWith A s lines)
    (htotals : s.totals = lines.foldl SessionTotals.read (.start status))
    (summaryInput : SummaryInput) :
    ∀ member ∈ loggedTorrent status lines,
      (torrentJson summaryInput s).find member.1 = some member.2 := by
  have hbytes := hend.peerNetworkByteTotals_eq
  have hfind : ∀ key, (torrentJson summaryInput s).find key = _ := fun key => by
    rw [torrentJson, Json.find_obj_eq_reverse, hbytes]
  have hdown := congrArg SessionTotals.totalDownloadBytes htotals
  have hpeers := congrArg SessionTotals.maxPeersObserved htotals
  have hseeds := congrArg SessionTotals.maxSeedsObserved htotals
  intro member hmem
  simp only [loggedTorrent, List.mem_cons, List.not_mem_nil, or_false, ← hdown, ← hpeers,
    ← hseeds] at hmem
  obtain rfl | rfl | rfl | rfl | rfl | rfl | rfl := hmem
  all_goals
    rw [hfind]
    rfl

/-- The metrics of the summary, and what it says of the torrent's transfers, can be computed
from the lines of the log, for a reader who knows the state and the bytes of the torrent at
its start. -/
theorem loggedMetrics_recordSession {A : Type} [Address A] (config : RuntimeConfig)
    (outputPaths : OutputPaths) (input : SessionInput) (sqrt : ℚ → ℚ) (exitReason : String)
    (calls : List (RunStep A)) (recorded : RecordedSession)
    (h : recordSession config outputPaths input sqrt exitReason calls = .ok recorded) :
    (∀ metric ∈ loggedMetrics sqrt input.initialStatus recorded.lines,
        recorded.summary.memberOf "global_metrics" metric.1 = some metric.2) ∧
      ∀ member ∈ loggedTorrent input.initialStatus recorded.lines,
        recorded.summary.memberOf "torrent" member.1 = some member.2 := by
  have hend := endsWith_recordSession h
  have htotals := totals_recordSession h
  obtain ⟨_, _, -, -, hfinish⟩ := recordSession_ok h
  obtain ⟨-, -, hsummary⟩ := finishRecording_ok hfinish
  constructor
  · intro metric hmem
    rw [hsummary, metric_sessionSummary]
    exact hend.find_loggedMetrics htotals _ sqrt metric hmem
  · intro member hmem
    rw [hsummary, torrent_sessionSummary]
    exact hend.find_loggedTorrent htotals _ member hmem

/-- The paths of a session in `/artifacts`. -/
def sampleSessionPaths : OutputPaths where
  artifactDir := "/artifacts/pending/session"
  stateJsonPath := "/artifacts/pending/session/state.json"
  eventLogPath := "/artifacts/pending/session/session_events.ndjson"
  summaryJsonPath := "/artifacts/pending/session/session_summary.json"

/-- A session with one peer. -/
theorem loggedMetrics_recordSession_sampleSteps :
    ∃ recorded, recordSession {} sampleSessionPaths {} id "signal" sampleSteps = .ok recorded ∧
      (∀ metric ∈ loggedMetrics id {} recorded.lines,
          recorded.summary.memberOf "global_metrics" metric.1 = some metric.2) ∧
        ∀ member ∈ loggedTorrent {} recorded.lines,
          recorded.summary.memberOf "torrent" member.1 = some member.2 := by
  obtain ⟨recorded, h⟩ := exists_of_isOk
    (x := recordSession {} sampleSessionPaths {} id "signal" sampleSteps) (by decide +kernel)
  exact ⟨recorded, h, loggedMetrics_recordSession {} sampleSessionPaths {} id "signal"
    sampleSteps recorded h⟩

end BtClient
