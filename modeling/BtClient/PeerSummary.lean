import BtClient.Distribution
import BtClient.LogReplay

/-!
# The row of a record in the summary

`PeerStats::to_json` and `peer_summaries_json` of `peer_stats.cpp`, with
`distribution_summary_to_json`. The square root of the standard library is a parameter, as
for the distribution summaries.
-/

namespace BtClient

/-- `optional_double`, and `optional_number` in `util.cpp`. -/
def optionalDouble : Option ℚ → Json
  | none => .null
  | some value => .real value

/-- `optional_string` -/
def optionalString (value : ByteString) : Json :=
  if value.isEmpty then .null else .string value

/-- `optional_string` for a text of the program. -/
def optionalText (value : String) : Json :=
  if value = "" then .null else Json.text value

/-- `distribution_summary_to_json` -/
def distributionSummaryToJson (summary : DistributionSummary) : Json :=
  Json.obj [
    ("count", .integer summary.count),
    ("min", optionalDouble summary.min),
    ("max", optionalDouble summary.max),
    ("mean", optionalDouble summary.mean),
    ("stddev", optionalDouble summary.stddev),
    ("p50", optionalDouble summary.p50),
    ("p95", optionalDouble summary.p95)]

/-- `sorted_strings` and `strings_to_json_array` -/
def sortedStringsToJsonArray (values : Finset String) : Json :=
  .array ((values.sort (· ≤ ·)).map Json.text)

namespace PeerStats

/-- `observation_sample_count` -/
def observationSampleCount (p : PeerStats) : ℕ := p.requestsSent + p.incomingRequestsReceived

/-- `observation_quality_score` -/
def observationQualityScore (p : PeerStats) : ℚ :=
  let sampleScore := min 1 ((p.observationSampleCount : ℚ) / 1000)
  let durationScore := min 1 (nsToMs p.connectedDurationNs / 30000)
  sampleScore * durationScore

def stateTransitionsJson (p : PeerStats) : Json :=
  Json.obj [
    ("peer_choked_us", .integer p.chokedCount),
    ("peer_unchoked_us", .integer p.unchokedCount),
    ("we_choked_peer", .integer p.weChokedCount),
    ("we_unchoked_peer", .integer p.weUnchokedCount),
    ("peer_snubbed", .integer p.snubbedCount),
    ("peer_unsnubbed", .integer p.unsnubbedCount)]

/-- `PeerStats::to_json` -/
def toJson (sqrt : ℚ → ℚ) (p : PeerStats) : Json :=
  let requestGapSummary := summarizeSamples sqrt p.requestGapMsSamples
  let latencySummary := summarizeSamples sqrt p.blockLatencyMsSamples
  let incomingRequestGapSummary := summarizeSamples sqrt p.incomingRequestGapMsSamples
  let blockUploadGapSummary := summarizeSamples sqrt p.blockUploadGapMsSamples
  let requestToUploadLatencySummary := summarizeSamples sqrt p.requestToUploadLatencyMsSamples
  let incomingRequestBurstSizeSummary := summarizeSamples sqrt p.incomingRequestBurstSizeSamples
  let incomingRequestBurstDurationSummary :=
    summarizeSamples sqrt p.incomingRequestBurstDurationMsSamples
  let incomingRequestBurstIdleGapSummary :=
    summarizeSamples sqrt p.incomingRequestBurstIdleGapMsSamples
  let interactionGapSummary := summarizeSamples sqrt p.interactionGapMsSamples
  let downloadRateSummary := summarizeSamples sqrt p.downloadRateSamples
  let uploadRateSummary := summarizeSamples sqrt p.uploadRateSamples
  let outstandingDepthSummary := summarizeSamples sqrt p.outstandingDepthSamples
  Json.obj [
    ("peer_key", Json.text p.peerKey),
    ("peer_ip", Json.text p.peerIp),
    ("peer_port", .integer p.peerPort),
    ("direction", Json.text p.direction),
    ("transport", Json.text p.transport),
    ("peer_id_hex", optionalText (if p.peerIdHex = "unknown" then "" else p.peerIdHex)),
    ("peer_id_prefix", optionalText p.peerIdPrefixHex),
    ("client", optionalString p.clientName),
    ("capability_flags", sortedStringsToJsonArray p.observedFlags),
    ("peer_sources", sortedStringsToJsonArray p.observedSources),
    ("first_seen_utc", optionalText p.firstSeenUtc),
    ("last_seen_utc", optionalText p.lastSeenUtc),
    ("connected_utc", optionalText p.connectedUtc),
    ("disconnected_utc", optionalText p.disconnectedUtc),
    ("first_seen_mono_ns", .integer p.firstSeenMonoNs),
    ("last_seen_mono_ns", .integer p.lastSeenMonoNs),
    ("total_connected_duration_ms", .real (nsToMs p.connectedDurationNs)),
    ("connection_duration_ms", .real (nsToMs p.connectedDurationNs)),
    ("first_request_delay_ms", optionalDouble p.firstRequestDelayMs),
    ("first_incoming_request_delay_ms", optionalDouble p.firstIncomingRequestDelayMs),
    ("first_block_upload_delay_ms", optionalDouble p.firstBlockUploadDelayMs),
    ("mean_request_gap_ms", optionalDouble requestGapSummary.mean),
    ("std_request_gap_ms", optionalDouble requestGapSummary.stddev),
    ("p50_request_gap_ms", optionalDouble requestGapSummary.p50),
    ("p95_request_gap_ms", optionalDouble requestGapSummary.p95),
    ("mean_incoming_request_gap_ms", optionalDouble incomingRequestGapSummary.mean),
    ("std_incoming_request_gap_ms", optionalDouble incomingRequestGapSummary.stddev),
    ("p50_incoming_request_gap_ms", optionalDouble incomingRequestGapSummary.p50),
    ("p95_incoming_request_gap_ms", optionalDouble incomingRequestGapSummary.p95),
    ("mean_block_upload_gap_ms", optionalDouble blockUploadGapSummary.mean),
    ("std_block_upload_gap_ms", optionalDouble blockUploadGapSummary.stddev),
    ("p50_block_upload_gap_ms", optionalDouble blockUploadGapSummary.p50),
    ("p95_block_upload_gap_ms", optionalDouble blockUploadGapSummary.p95),
    ("mean_request_to_upload_latency_ms", optionalDouble requestToUploadLatencySummary.mean),
    ("std_request_to_upload_latency_ms", optionalDouble requestToUploadLatencySummary.stddev),
    ("p50_request_to_upload_latency_ms", optionalDouble requestToUploadLatencySummary.p50),
    ("p95_request_to_upload_latency_ms", optionalDouble requestToUploadLatencySummary.p95),
    ("mean_block_latency_ms", optionalDouble latencySummary.mean),
    ("std_block_latency_ms", optionalDouble latencySummary.stddev),
    ("p50_block_latency_ms", optionalDouble latencySummary.p50),
    ("p95_block_latency_ms", optionalDouble latencySummary.p95),
    ("mean_interaction_gap_ms", optionalDouble interactionGapSummary.mean),
    ("mean_incoming_request_burst_size", optionalDouble incomingRequestBurstSizeSummary.mean),
    ("p95_incoming_request_burst_size", optionalDouble incomingRequestBurstSizeSummary.p95),
    ("mean_incoming_request_burst_duration_ms",
      optionalDouble incomingRequestBurstDurationSummary.mean),
    ("p95_incoming_request_burst_duration_ms",
      optionalDouble incomingRequestBurstDurationSummary.p95),
    ("mean_incoming_request_burst_idle_gap_ms",
      optionalDouble incomingRequestBurstIdleGapSummary.mean),
    ("p95_incoming_request_burst_idle_gap_ms",
      optionalDouble incomingRequestBurstIdleGapSummary.p95),
    ("active_time_ms", .real (nsToMs p.activeTimeNs)),
    ("idle_time_ms", .real (nsToMs p.idleTimeNs)),
    ("observation_quality_score", .real p.observationQualityScore),
    ("observation_sample_count", .integer p.observationSampleCount),
    ("requests_sent", .integer p.requestsSent),
    ("block_responses_received", .integer p.blockResponsesReceived),
    ("request_timeouts", .integer p.requestTimeouts),
    ("requests_dropped", .integer p.requestsDropped),
    ("pieces_finished", .integer p.piecesFinished),
    ("snubbed_count", .integer p.snubbedCount),
    ("unsnubbed_count", .integer p.unsnubbedCount),
    ("choked_count", .integer p.chokedCount),
    ("unchoked_count", .integer p.unchokedCount),
    ("mean_download_rate_Bps", optionalDouble downloadRateSummary.mean),
    ("mean_upload_rate_Bps", optionalDouble uploadRateSummary.mean),
    ("peak_download_rate_Bps", .real p.peakDownloadRateBps),
    ("peak_upload_rate_Bps", .real p.peakUploadRateBps),
    ("request_gap_summary", distributionSummaryToJson requestGapSummary),
    ("block_latency_summary", distributionSummaryToJson latencySummary),
    ("incoming_request_gap_summary", distributionSummaryToJson incomingRequestGapSummary),
    ("block_upload_gap_summary", distributionSummaryToJson blockUploadGapSummary),
    ("request_to_upload_latency_summary",
      distributionSummaryToJson requestToUploadLatencySummary),
    ("incoming_request_burst_size_summary",
      distributionSummaryToJson incomingRequestBurstSizeSummary),
    ("incoming_request_burst_duration_summary",
      distributionSummaryToJson incomingRequestBurstDurationSummary),
    ("incoming_request_burst_idle_gap_summary",
      distributionSummaryToJson incomingRequestBurstIdleGapSummary),
    ("interaction_gap_summary", distributionSummaryToJson interactionGapSummary),
    ("download_rate_summary", distributionSummaryToJson downloadRateSummary),
    ("upload_rate_summary", distributionSummaryToJson uploadRateSummary),
    ("outstanding_request_depth_summary", distributionSummaryToJson outstandingDepthSummary),
    ("state_transition_counts", p.stateTransitionsJson),
    ("total_download_bytes", .integer p.totalDownloadBytes),
    ("total_upload_bytes", .integer p.totalUploadBytes),
    ("incoming_requests_received", .integer p.incomingRequestsReceived),
    ("blocks_uploaded", .integer p.blocksUploaded),
    ("supports_extensions", .bool (decide ("supports_extensions" ∈ p.observedFlags))),
    ("is_seed", .bool p.seed),
    ("remote_choked", .bool p.remoteChoked),
    ("local_choked", .bool p.localChoked),
    ("snubbed", .bool p.snubbed)]

end PeerStats

namespace SessionStats

/-- `peer_summaries_json`: one row for each record, in the order of the keys. -/
def peerSummaries (sqrt : ℚ → ℚ) (s : SessionStats) : List Json :=
  s.peersByKey.toList.map fun entry => entry.2.toJson sqrt

end SessionStats

end BtClient
