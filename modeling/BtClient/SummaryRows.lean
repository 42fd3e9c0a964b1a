import BtClient.SummaryAgreement

/-!
# The rows of the summary agree with the log

A row is about one record. In the fields of `loggedRow` it says what the lines of the record
say. Of the other fields `peer_id_hex` and `peer_id_prefix` need a peer id, which not every
record with an id has in a line, `pieces_finished` the blocks that a piece was made of, and
the rest the times at which the alerts were handled.
-/

namespace BtClient

section Fields

variable (lines : List Json) (k : String)

/-- The socket of the record, and what its peer is. -/
def loggedFace : List (String × Json) :=
  let logged := replay k lines
  let context := logged.context.getD ⟨k, "", 0, "unknown", "unknown"⟩
  let observed := logged.observed
  [("peer_key", Json.text k),
    ("peer_ip", Json.text context.peerIp),
    ("peer_port", .integer context.peerPort),
    ("direction", Json.text context.direction),
    ("transport", Json.text context.transport),
    ("client", optionalString observed.clientName),
    ("capability_flags", sortedStringsToJsonArray observed.observedFlags),
    ("peer_sources", sortedStringsToJsonArray observed.observedSources),
    ("supports_extensions", .bool (decide ("supports_extensions" ∈ observed.observedFlags))),
    ("is_seed", .bool observed.seed),
    ("remote_choked", .bool observed.remoteChoked),
    ("local_choked", .bool observed.localChoked),
    ("snubbed", .bool observed.snubbed)]

/-- The counters of the record. -/
def loggedCounts : List (String × Json) :=
  let count (kind : CounterKind) := (keyLines kind.eventName k lines).length
  [("observation_sample_count",
      .integer (count .requestSent + count .incomingRequest : ℕ)),
    ("requests_sent", .integer (count .requestSent)),
    ("block_responses_received", .integer (count .blockResponse)),
    ("request_timeouts", .integer (count .timeout)),
    ("requests_dropped", .integer (count .drop)),
    ("snubbed_count", .integer (count .snubbed)),
    ("unsnubbed_count", .integer (count .unsnubbed)),
    ("incoming_requests_received", .integer (count .incomingRequest)),
    ("blocks_uploaded", .integer (count .blockUploaded))]

/-- What the snapshots say of the rates, the bytes and the chokes. -/
def loggedTraffic (sqrt : ℚ → ℚ) : List (String × Json) :=
  let observed := (replay k lines).observed
  let downloadRateSummary := summarizeSamples sqrt observed.downloadRateSamples
  let uploadRateSummary := summarizeSamples sqrt observed.uploadRateSamples
  [("choked_count", .integer observed.chokedCount),
    ("unchoked_count", .integer observed.unchokedCount),
    ("mean_download_rate_Bps", optionalDouble downloadRateSummary.mean),
    ("mean_upload_rate_Bps", optionalDouble uploadRateSummary.mean),
    ("download_rate_summary", distributionSummaryToJson downloadRateSummary),
    ("upload_rate_summary", distributionSummaryToJson uploadRateSummary),
    ("state_transition_counts", Json.obj [
      ("peer_choked_us", .integer observed.chokedCount),
      ("peer_unchoked_us", .integer observed.unchokedCount),
      ("we_choked_peer", .integer observed.weChokedCount),
      ("we_unchoked_peer", .integer observed.weUnchokedCount),
      ("peer_snubbed", .integer observed.snubbedCount),
      ("peer_unsnubbed", .integer observed.unsnubbedCount)]),
    ("total_download_bytes", .integer observed.totalDownloadBytes),
    ("total_upload_bytes", .integer observed.totalUploadBytes)]

/-- The row of the record `k` as a reader of the log computes it. -/
def loggedRow (sqrt : ℚ → ℚ) : List (String × Json) :=
  loggedFace lines k ++ loggedCounts lines k ++ loggedTraffic lines k sqrt

end Fields

/-- The rows of the summary. -/
def Json.rows (summary : Json) : List Json :=
  match summary.find "peer_summaries" with
  | some (.array rows) => rows
  | _ => []

theorem rows_sessionSummary (summaryInput : SummaryInput) (s : SessionStats) (sqrt : ℚ → ℚ) :
    (sessionSummary summaryInput s sqrt).rows = s.peerSummaries sqrt := by
  have hfind : (sessionSummary summaryInput s sqrt).find "peer_summaries" =
      some (.array (s.peerSummaries sqrt)) := by
    rw [sessionSummary, Json.find_obj_eq_reverse]
    rfl
  rw [Json.rows, hfind]

theorem lt_of_compare_eq_lt {a b : String × PeerStats} (h : compare a.1 b.1 = .lt) :
    a.1 < b.1 := by
  change compareOfLessAndEq a.1 b.1 = .lt at h
  unfold compareOfLessAndEq at h
  split at h
  · assumption
  · split at h <;> cases h

theorem textAt_peer_key (sqrt : ℚ → ℚ) (p : PeerStats) :
    (p.toJson sqrt).textAt "peer_key" = p.peerKey := by
  apply textAt_of_find
  rw [PeerStats.toJson, Json.find_obj_eq_reverse]
  rfl

section Rows

variable {A : Type} [Address A] {s : SessionStats} {lines : List Json}

theorem EndsWith.find_loggedFace (h : EndsWith A s lines) (sqrt : ℚ → ℚ) {k : String}
    {p : PeerStats} (hp : s.peersByKey[k]? = some p) :
    ∀ field ∈ loggedFace lines k, (p.toJson sqrt).find field.1 = some field.2 := by
  obtain rfl := h.keyed k p hp
  intro field hmem
  simp only [loggedFace, ← h.replayed _ p hp, List.mem_cons, List.not_mem_nil, or_false] at hmem
  obtain rfl | rfl | rfl | rfl | rfl | rfl | rfl | rfl | rfl | rfl | rfl | rfl | rfl := hmem
  all_goals
    rw [PeerStats.toJson, Json.find_obj_eq_reverse]
    rfl

theorem EndsWith.find_loggedCounts (h : EndsWith A s lines) (sqrt : ℚ → ℚ) {k : String}
    {p : PeerStats} (hp : s.peersByKey[k]? = some p) :
    ∀ field ∈ loggedCounts lines k, (p.toJson sqrt).find field.1 = some field.2 := by
  have hcounter : ∀ kind : CounterKind, (keyLines kind.eventName k lines).length =
      p.counter kind := fun kind => (h.counters k p kind hp).symm
  intro field hmem
  simp only [loggedCounts, hcounter, List.mem_cons, List.not_mem_nil, or_false] at hmem
  obtain rfl | rfl | rfl | rfl | rfl | rfl | rfl | rfl | rfl := hmem
  all_goals
    rw [PeerStats.toJson, Json.find_obj_eq_reverse]
    rfl

theorem EndsWith.find_loggedTraffic (h : EndsWith A s lines) (sqrt : ℚ → ℚ) {k : String}
    {p : PeerStats} (hp : s.peersByKey[k]? = some p) :
    ∀ field ∈ loggedTraffic lines k sqrt, (p.toJson sqrt).find field.1 = some field.2 := by
  intro field hmem
  simp only [loggedTraffic, ← h.replayed k p hp, List.mem_cons, List.not_mem_nil, or_false]
    at hmem
  obtain rfl | rfl | rfl | rfl | rfl | rfl | rfl | rfl | rfl := hmem
  all_goals
    rw [PeerStats.toJson, Json.find_obj_eq_reverse]
    rfl

/-- The fields of a row, from the lines of its record. -/
theorem EndsWith.find_toJson (h : EndsWith A s lines) (sqrt : ℚ → ℚ) {k : String}
    {p : PeerStats} (hp : s.peersByKey[k]? = some p) :
    ∀ field ∈ loggedRow lines k sqrt, (p.toJson sqrt).find field.1 = some field.2 := by
  intro field hmem
  rcases List.mem_append.mp hmem with hmem | htraffic
  · rcases List.mem_append.mp hmem with hface | hcounts
    · exact h.find_loggedFace sqrt hp field hface
    · exact h.find_loggedCounts sqrt hp field hcounts
  · exact h.find_loggedTraffic sqrt hp field htraffic

/-- The keys of the rows are those of the records, in their order. -/
theorem EndsWith.keys_peerSummaries (h : EndsWith A s lines) (sqrt : ℚ → ℚ) :
    (s.peerSummaries sqrt).map (Json.textAt "peer_key") = s.peersByKey.toList.map Prod.fst := by
  rw [SessionStats.peerSummaries, List.map_map]
  apply List.map_congr_left
  rintro ⟨k, p⟩ hmem
  rw [Function.comp_apply, textAt_peer_key]
  exact h.keyed k p (Std.ExtTreeMap.mem_toList_iff_getElem?_eq_some.mp hmem)

/-- The rows are in the order of their keys. -/
theorem EndsWith.pairwise_peerSummaries (h : EndsWith A s lines) (sqrt : ℚ → ℚ) :
    ((s.peerSummaries sqrt).map (Json.textAt "peer_key")).Pairwise (· < ·) := by
  rw [h.keys_peerSummaries sqrt, List.pairwise_map]
  exact Std.ExtTreeMap.ordered_keys_toList.imp lt_of_compare_eq_lt

/-- There is one row for each key of the log. -/
theorem EndsWith.perm_peerSummaries (h : EndsWith A s lines) (sqrt : ℚ → ℚ) :
    ((s.peerSummaries sqrt).map (Json.textAt "peer_key")).Perm (seenKeys lines) := by
  have hnodup : ((s.peerSummaries sqrt).map (Json.textAt "peer_key")).Nodup :=
    (h.pairwise_peerSummaries sqrt).imp fun hlt => hlt.ne
  rw [List.perm_ext_iff_of_nodup hnodup (nodup_seenKeys _)]
  intro k
  rw [h.mem_seenKeys, h.keys_peerSummaries sqrt, Std.ExtTreeMap.map_fst_toList_eq_keys,
    Std.ExtTreeMap.mem_keys]

/-- Each row says what the lines of its record say. -/
theorem EndsWith.find_row (h : EndsWith A s lines) (sqrt : ℚ → ℚ) :
    ∀ row ∈ s.peerSummaries sqrt, ∀ field ∈ loggedRow lines (row.textAt "peer_key") sqrt,
      row.find field.1 = some field.2 := by
  intro row hrow
  rw [SessionStats.peerSummaries] at hrow
  obtain ⟨⟨k, p⟩, hmem, rfl⟩ := List.mem_map.mp hrow
  have hp := Std.ExtTreeMap.mem_toList_iff_getElem?_eq_some.mp hmem
  rw [textAt_peer_key, h.keyed k p hp]
  exact h.find_toJson sqrt hp

theorem rows_recordSession {config : RuntimeConfig} {outputPaths : OutputPaths}
    {input : SessionInput} {sqrt : ℚ → ℚ} {exitReason : String} {calls : List (RunStep A)}
    {recorded : RecordedSession}
    (h : recordSession config outputPaths input sqrt exitReason calls = .ok recorded) :
    recorded.summary.rows = recorded.stats.peerSummaries sqrt := by
  obtain ⟨_, _, -, -, hfinish⟩ := recordSession_ok h
  obtain ⟨-, -, hsummary⟩ := finishRecording_ok hfinish
  rw [hsummary, rows_sessionSummary]

/-- The rows of the summary are one for each key of the log, in the order of the keys, and
each says of its record what the lines of the record say. -/
theorem loggedRows_recordSession (config : RuntimeConfig) (outputPaths : OutputPaths)
    (input : SessionInput) (sqrt : ℚ → ℚ) (exitReason : String) (calls : List (RunStep A))
    (recorded : RecordedSession)
    (h : recordSession config outputPaths input sqrt exitReason calls = .ok recorded) :
    let keys := recorded.summary.rows.map (Json.textAt "peer_key")
    keys.Pairwise (· < ·) ∧ keys.Perm (seenKeys recorded.lines) ∧
      ∀ row ∈ recorded.summary.rows,
        ∀ field ∈ loggedRow recorded.lines (row.textAt "peer_key") sqrt,
          row.find field.1 = some field.2 := by
  have hend := endsWith_recordSession h
  rw [rows_recordSession h]
  exact ⟨hend.pairwise_peerSummaries sqrt, hend.perm_peerSummaries sqrt, hend.find_row sqrt⟩

end Rows

/-- The rows of a session in which the peer comes back. -/
theorem loggedRows_recordSession_reconnectSteps :
    ∃ recorded,
      recordSession {} sampleSessionPaths {} id "signal" reconnectSteps = .ok recorded ∧
      recorded.summary.rows.length = 2 ∧
      let keys := recorded.summary.rows.map (Json.textAt "peer_key")
      keys.Pairwise (· < ·) ∧ keys.Perm (seenKeys recorded.lines) ∧
        ∀ row ∈ recorded.summary.rows,
          ∀ field ∈ loggedRow recorded.lines (row.textAt "peer_key") id,
            row.find field.1 = some field.2 := by
  obtain ⟨recorded, h, hlength⟩ := exists_of_any
    (x := recordSession {} sampleSessionPaths {} id "signal" reconnectSteps)
    (q := fun recorded => decide (recorded.summary.rows.length = 2)) (by decide +kernel)
  exact ⟨recorded, h, of_decide_eq_true hlength, loggedRows_recordSession {} sampleSessionPaths {} id
    "signal" reconnectSteps recorded h⟩

end BtClient
