import BtClient.CaptureSession
import BtClient.PeerSummary
import BtClient.SummaryWriter

/-!
# The summary of a session

The value that `write_session_summary` of `summary_writer.cpp` builds: the metadata of the
run, its configuration, the final state of the torrent, the metrics over all records and one
row for each record.
-/

namespace BtClient

structure PeerObservationCounts where
  uniquePeerEndpointsSeen : ℕ := 0
  peerConnectionsObserved : ℕ := 0
  activePeerConnections : ℕ := 0
  fingerprintablePeerConnections : ℕ := 0

namespace PeerStats

/-- `had_protocol_activity` -/
def hadProtocolActivity (p : PeerStats) : Bool :=
  decide (0 < p.requestsSent) || decide (0 < p.blockResponsesReceived) ||
    decide (0 < p.incomingRequestsReceived) || decide (0 < p.blocksUploaded) ||
    decide (0 < p.totalDownloadBytes) || decide (0 < p.totalUploadBytes)

/-- The second test of `peer_observation_counts`. -/
def isFingerprintable (p : PeerStats) : Bool :=
  decide (100 ≤ p.requestsSent + p.incomingRequestsReceived) && p.hadProtocolActivity

end PeerStats

/-- `peer_observation_counts` -/
def peerObservationCounts (s : SessionStats) : PeerObservationCounts :=
  s.peersByKey.foldl (fun counts _ peer =>
    let counts := if peer.hadProtocolActivity then
        { counts with activePeerConnections := counts.activePeerConnections + 1 }
      else counts
    if peer.isFingerprintable then
      { counts with fingerprintablePeerConnections := counts.fingerprintablePeerConnections + 1 }
    else counts)
    { uniquePeerEndpointsSeen := s.uniquePeerEndpoints.card
      peerConnectionsObserved := s.peersByKey.size }

/-- What `main` hands to `write_session_summary` next to the statistics, with what the
function asks the system for. -/
structure SummaryInput where
  config : RuntimeConfig
  outputPaths : OutputPaths
  finalStatus : TorrentStatus
  infoHash : ByteString
  exitReason : String
  actualListenPort : Int
  isListening : Bool
  hostname : ByteString
  libtorrentVersion : String
  absoluteSavePath : Path

section Summary

variable (input : SummaryInput) (s : SessionStats)

/-- `build_session_json` -/
def buildSessionJson : Json :=
  Json.obj [
    ("run_id", .string input.config.runId),
    ("session_id", .string input.config.sessionId),
    ("started_utc", Json.text s.startedUtc),
    ("ended_utc", Json.text s.endedUtc),
    ("duration_ms", .real (nsToMs (s.endMonoNs - s.startMonoNs))),
    ("hostname", optionalString input.hostname),
    ("client_version", Json.text clientVersion),
    ("client_label", optionalString input.config.clientLabel),
    ("profile_id", optionalString input.config.profileId),
    ("destination_url", optionalString input.config.destinationUrl),
    ("libtorrent_version", Json.text input.libtorrentVersion),
    ("exit_reason", Json.text input.exitReason)]

/-- `runtime_config` -/
def runtimeConfigJson : Json :=
  Json.obj [
    ("listen_port", .integer input.config.listenPort),
    ("listen_port_actual", .integer input.actualListenPort),
    ("announce_ip", optionalString input.config.announceIp),
    ("dht_enabled", .bool input.config.enableDht),
    ("lsd_enabled", .bool input.config.enableLsd),
    ("upnp_enabled", .bool input.config.enableUpnp),
    ("natpmp_enabled", .bool input.config.enableNatpmp),
    ("runtime_seconds_requested", .integer input.config.runtimeSeconds),
    ("run_forever", .bool (input.config.runtimeSeconds == 0)),
    ("snapshot_interval_ms", .integer input.config.snapshotIntervalMs),
    ("console_status_enabled", .bool input.config.consoleStatus),
    ("node_role", .string input.config.nodeRole),
    ("torrent_source_type", .string input.config.torrentSourceType),
    ("destination_url", optionalString input.config.destinationUrl),
    ("save_path", .string input.absoluteSavePath.bytes),
    ("artifacts_dir", .string input.outputPaths.artifactDir.bytes)]

def torrentJson : Json :=
  let networkBytes := peerNetworkByteTotals s
  Json.obj [
    ("source", .string input.config.torrentSource),
    ("source_type", .string input.config.torrentSourceType),
    ("info_hash", optionalString input.infoHash),
    ("save_path", .string input.absoluteSavePath.bytes),
    ("final_state", Json.text (stateName input.finalStatus.state)),
    ("final_progress", .real (input.finalStatus.progress * 100)),
    ("initial_total_done_bytes", .integer s.initialTotalDoneBytes),
    ("initial_total_upload_bytes", .integer s.initialTotalUploadBytes),
    ("final_total_done_bytes", .integer input.finalStatus.totalDone),
    ("final_total_upload_bytes", .integer input.finalStatus.totalUpload),
    ("session_completed_bytes", .integer s.totalDownloadBytes),
    ("session_network_downloaded_bytes", .integer networkBytes.downloaded),
    ("session_network_uploaded_bytes", .integer networkBytes.uploaded),
    ("session_downloaded_bytes", .integer networkBytes.downloaded),
    ("session_uploaded_bytes", .integer networkBytes.uploaded),
    ("total_peers_observed", .integer s.maxPeersObserved),
    ("total_seeds_observed", .integer s.maxSeedsObserved)]

/-- `global_metrics` -/
def globalMetricsJson (sqrt : ℚ → ℚ) : Json :=
  let downloadRateSummary := summarizeSamples sqrt s.sessionDownloadRateSamples
  let uploadRateSummary := summarizeSamples sqrt s.sessionUploadRateSamples
  let networkBytes := peerNetworkByteTotals s
  let peerCounts := peerObservationCounts s
  Json.obj [
    ("total_runtime_ms", .real (nsToMs (s.endMonoNs - s.startMonoNs))),
    ("total_bytes_down", .integer networkBytes.downloaded),
    ("total_bytes_up", .integer networkBytes.uploaded),
    ("file_completed_bytes", .integer s.totalDownloadBytes),
    ("mean_download_rate_Bps", optionalDouble downloadRateSummary.mean),
    ("mean_upload_rate_Bps", optionalDouble uploadRateSummary.mean),
    ("download_rate_summary", distributionSummaryToJson downloadRateSummary),
    ("upload_rate_summary", distributionSummaryToJson uploadRateSummary),
    ("unique_peers_seen", .integer peerCounts.uniquePeerEndpointsSeen),
    ("unique_peer_endpoints_seen", .integer peerCounts.uniquePeerEndpointsSeen),
    ("peer_connections_observed", .integer peerCounts.peerConnectionsObserved),
    ("active_peer_connections", .integer peerCounts.activePeerConnections),
    ("fingerprintable_peer_connections", .integer peerCounts.fingerprintablePeerConnections),
    ("connection_attempts", .integer (s.successfulPeerConnects + s.connectionFailures : ℕ)),
    ("successful_peer_connects", .integer s.successfulPeerConnects),
    ("disconnect_count", .integer s.disconnectCount),
    ("peer_error_count", .integer s.peerErrorCount),
    ("tracker_announces", .integer s.trackerAnnounces),
    ("tracker_replies", .integer s.trackerReplies),
    ("tracker_errors", .integer s.trackerErrors),
    ("tracker_warnings", .integer s.trackerWarnings),
    ("piece_completions", .integer s.pieceCompletions),
    ("verification_piece_completions", .integer s.verificationPieceCompletions),
    ("incoming_connections", .integer s.incomingConnectionCount),
    ("alerts_dropped_notifications", .integer s.alertsDroppedNotifications),
    ("alerts_dropped_type_bits_total", .integer s.alertsDroppedTypeBitsTotal),
    ("alert_loss_detected", .bool s.alertLossDetected),
    ("is_listening", .bool input.isListening)]

def filesJson : Json :=
  Json.obj [
    ("artifact_dir", .string input.outputPaths.artifactDir.bytes),
    ("state_json", .string input.outputPaths.stateJsonPath.bytes),
    ("event_log", .string input.outputPaths.eventLogPath.bytes),
    ("summary_json", .string input.outputPaths.summaryJsonPath.bytes)]

/-- The `root` of `write_session_summary`. -/
def sessionSummary (sqrt : ℚ → ℚ) : Json :=
  Json.obj [
    ("schema_version", .integer 1),
    ("session", buildSessionJson input s),
    ("config", runtimeConfigJson input),
    ("torrent", torrentJson input s),
    ("global_metrics", globalMetricsJson input s sqrt),
    ("peer_summaries", .array (s.peerSummaries sqrt)),
    ("files", filesJson input)]

end Summary

/-- The two counters of the loop are tallies over the map. -/
theorem peerObservationCounts_eq (s : SessionStats) :
    peerObservationCounts s =
      ⟨s.uniquePeerEndpoints.card, s.peersByKey.size,
        MapTotal.tally PeerStats.hadProtocolActivity s.peersByKey,
        MapTotal.tally PeerStats.isFingerprintable s.peersByKey⟩ := by
  have hloop : ∀ (l : List (String × PeerStats)) (c : PeerObservationCounts),
      l.foldl (fun counts entry =>
        let counts : PeerObservationCounts := if entry.2.hadProtocolActivity then
            { counts with activePeerConnections := counts.activePeerConnections + 1 }
          else counts
        if entry.2.isFingerprintable then
          { counts with
            fingerprintablePeerConnections := counts.fingerprintablePeerConnections + 1 }
        else counts) c =
      { c with
        activePeerConnections := c.activePeerConnections +
          (l.map fun entry => if entry.2.hadProtocolActivity then 1 else 0).sum
        fingerprintablePeerConnections := c.fingerprintablePeerConnections +
          (l.map fun entry => if entry.2.isFingerprintable then 1 else 0).sum } := by
    intro l
    induction l with
    | nil => intro c; rfl
    | cons entry rest ih =>
        intro c
        rw [List.foldl_cons, ih, List.map_cons, List.map_cons, List.sum_cons, List.sum_cons,
          ← add_assoc, ← add_assoc]
        cases entry.2.hadProtocolActivity <;> cases entry.2.isFingerprintable <;> rfl
  rw [peerObservationCounts, Std.ExtTreeMap.foldl_eq_foldl_toList, hloop]
  simp [MapTotal.tally, MapTotal.total]

end BtClient
