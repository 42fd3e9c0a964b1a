import BtClient.LogReplay
import BtClient.MainLoop
import BtClient.SessionSummary

/-!
# Recording a session

The part of `main` from the start of the session to its summary, on the statistics and the
lines of the log: the lines that say how the session begins, the calls of the loop, and the
line and the summary that say how it has ended. What the libraries return is arbitrary.
-/

namespace BtClient

/-- What `main` reads from libtorrent and from the system around the calls of its loop. The
name of the host is asked for twice, for the first line and for the summary; it does not
change in between. -/
structure SessionInput where
  hostname : ByteString := []
  libtorrentVersion : String := ""
  absoluteSavePath : Path := "/data"
  sessionStart : TimestampPair := {}
  startedTs : TimestampPair := {}
  configTs : TimestampPair := {}
  initialStatus : TorrentStatus := {}
  initialInfoHash : ByteString := []
  addedTs : TimestampPair := {}
  stopRequested : Bool := false
  finalStatus : TorrentStatus := {}
  finalInfoHash : ByteString := []
  sessionEnd : TimestampPair := {}
  finishedTs : TimestampPair := {}
  actualListenPort : Int := 0
  isListening : Bool := false

/-- What a session leaves to be written: its statistics, the lines of its log and its
summary. -/
structure RecordedSession where
  stats : SessionStats
  lines : List Json
  summary : Json

/-- `kTailscaleCgnatRange` -/
def tailscaleCgnatRange : String := "100.64.0.0/10"

section Payloads

variable (config : RuntimeConfig) (outputPaths : OutputPaths) (input : SessionInput)

/-- `start_payload` -/
def sessionStartedPayload : Json :=
  Json.obj [
    ("client_version", Json.text clientVersion),
    ("hostname", .string input.hostname),
    ("artifact_dir", .string outputPaths.artifactDir.bytes)]

/-- `config_payload` -/
def sessionConfigPayload : Json :=
  Json.obj [
    ("listen_port", .integer config.listenPort),
    ("announce_ip", optionalString config.announceIp),
    ("blocked_peer_ranges", .array [Json.text tailscaleCgnatRange]),
    ("dht_enabled", .bool config.enableDht),
    ("lsd_enabled", .bool config.enableLsd),
    ("upnp_enabled", .bool config.enableUpnp),
    ("natpmp_enabled", .bool config.enableNatpmp),
    ("runtime_seconds", .integer config.runtimeSeconds),
    ("snapshot_interval_ms", .integer config.snapshotIntervalMs),
    ("torrent_source_type", .string config.torrentSourceType),
    ("save_path", .string input.absoluteSavePath.bytes),
    ("client_label", optionalString config.clientLabel),
    ("profile_id", optionalString config.profileId),
    ("destination_url", optionalString config.destinationUrl)]

/-- `torrent_added_payload` -/
def torrentAddedPayload : Json :=
  Json.obj [
    ("source_type", .string config.torrentSourceType),
    ("save_path", .string input.absoluteSavePath.bytes),
    ("info_hash", optionalString input.initialInfoHash)]

/-- `finish_payload` -/
def sessionFinishedPayload (exitReason : String) (s : SessionStats) : Json :=
  Json.obj [
    ("exit_reason", Json.text exitReason),
    ("duration_ms", .real (nsToMs (s.endMonoNs - s.startMonoNs))),
    ("final_state", Json.text (stateName input.finalStatus.state)),
    ("final_progress", .real (input.finalStatus.progress * 100)),
    ("total_done", .integer input.finalStatus.totalDone),
    ("total_upload", .integer input.finalStatus.totalUpload)]

/-- The arguments of `write_session_summary`. -/
def summaryInput (exitReason : String) : SummaryInput where
  config := config
  outputPaths := outputPaths
  finalStatus := input.finalStatus
  infoHash := if input.initialInfoHash.isEmpty then input.finalInfoHash
    else input.initialInfoHash
  exitReason := exitReason
  actualListenPort := input.actualListenPort
  isListening := input.isListening
  hostname := input.hostname
  libtorrentVersion := input.libtorrentVersion
  absoluteSavePath := input.absoluteSavePath

/-- From the start of the session to the loop. -/
def openRecording : Except Failure Recording := do
  let writer : EventWriter := { config := config }
  let stats := SessionStats.new config.runId config.sessionId input.sessionStart
  let writer ← writer.writeEvent input.startedTs "session_started"
    (sessionStartedPayload outputPaths input) none
  let writer ← writer.writeEvent input.configTs "session_config"
    (sessionConfigPayload config input) none
  let stats := stats.setInitialTotals input.initialStatus
  let writer := writer.setInfoHash input.initialInfoHash
  let writer ← writer.writeEvent input.addedTs "torrent_added"
    (torrentAddedPayload config input) none
  pure ⟨stats, writer⟩

/-- From the end of the loop to the summary. -/
def finishRecording (sqrt : ℚ → ℚ) (exitReason : String) (r : Recording) :
    Except Failure RecordedSession := do
  let stats := r.stats.finalize input.sessionEnd
  let writer ← r.writer.writeEvent input.finishedTs "session_finished"
    (sessionFinishedPayload input exitReason stats) none
  pure {
    stats := stats
    lines := writer.lines
    summary := sessionSummary (summaryInput config outputPaths input exitReason) stats sqrt }

variable {A : Type} [Address A]

/-- The session, with the calls that the loop makes. -/
def recordSession (sqrt : ℚ → ℚ) (exitReason : String) (calls : List (RunStep A)) :
    Except Failure RecordedSession := do
  let r ← openRecording config outputPaths input
  let r ← r.run calls
  finishRecording config outputPaths input sqrt exitReason r

end Payloads

/-! ### The parts of a session -/

section Parts

variable {config : RuntimeConfig} {outputPaths : OutputPaths} {input : SessionInput}
variable {A : Type} [Address A]

theorem bind_eq_ok {α β : Type} {x : Except Failure α} {f : α → Except Failure β} {b : β} :
    (x >>= f) = .ok b ↔ ∃ a, x = .ok a ∧ f a = .ok b := by
  cases x with
  | ok a => exact ⟨fun h => ⟨a, rfl, h⟩, fun ⟨_, rfl, h⟩ => h⟩
  | error failure => exact ⟨fun h => (by cases h), fun ⟨_, h, _⟩ => (by cases h)⟩

/-- The recording at the start of the loop: three lines, and statistics that are new but for
the totals of the torrent. -/
theorem openRecording_ok {r : Recording} (h : openRecording config outputPaths input = .ok r) :
    r.stats = (SessionStats.new config.runId config.sessionId input.sessionStart).setInitialTotals
        input.initialStatus ∧
      r.writer.config = config ∧
      r.writer.lines =
        [EventWriter.event { config := config } input.startedTs "session_started"
            (sessionStartedPayload outputPaths input) none,
          EventWriter.event { config := config } input.configTs "session_config"
            (sessionConfigPayload config input) none,
          EventWriter.event { config := config, infoHash := input.initialInfoHash }
            input.addedTs "torrent_added" (torrentAddedPayload config input) none] := by
  obtain ⟨w₁, h₁, h⟩ := bind_eq_ok.mp h
  obtain ⟨w₂, h₂, h⟩ := bind_eq_ok.mp h
  obtain ⟨w₃, h₃, h⟩ := bind_eq_ok.mp h
  obtain rfl := Except.ok.inj h
  rw [writeEvent_ok h₃, writeEvent_ok h₂, writeEvent_ok h₁]
  exact ⟨rfl, rfl, rfl⟩

theorem finishRecording_ok {sqrt : ℚ → ℚ} {exitReason : String} {r : Recording}
    {recorded : RecordedSession}
    (h : finishRecording config outputPaths input sqrt exitReason r = .ok recorded) :
    recorded.stats = r.stats.finalize input.sessionEnd ∧
      recorded.lines = r.writer.lines ++
        [r.writer.event input.finishedTs "session_finished"
          (sessionFinishedPayload input exitReason recorded.stats) none] ∧
      recorded.summary = sessionSummary (summaryInput config outputPaths input exitReason)
        recorded.stats sqrt := by
  obtain ⟨writer, hwrite, h⟩ := bind_eq_ok.mp h
  obtain rfl := Except.ok.inj h
  rw [writeEvent_ok hwrite]
  exact ⟨rfl, rfl, rfl⟩

theorem recordSession_ok {sqrt : ℚ → ℚ} {exitReason : String} {calls : List (RunStep A)}
    {recorded : RecordedSession}
    (h : recordSession config outputPaths input sqrt exitReason calls = .ok recorded) :
    ∃ r₀ r, openRecording config outputPaths input = .ok r₀ ∧ r₀.run calls = .ok r ∧
      finishRecording config outputPaths input sqrt exitReason r = .ok recorded := by
  obtain ⟨r₀, hopen, h⟩ := bind_eq_ok.mp h
  obtain ⟨r, hrun, h⟩ := bind_eq_ok.mp h
  exact ⟨r₀, r, hopen, hrun, h⟩

/-- The start of the session is made up of steps as well. -/
theorem logSteps_openRecording {r : Recording}
    (h : openRecording config outputPaths input = .ok r) :
    LogSteps A (SessionStats.new config.runId config.sessionId input.sessionStart, [])
      r.logged := by
  obtain ⟨hstats, -, hlines⟩ := openRecording_ok h
  have hstarted := Relation.ReflTransGen.single (LogStep.line (A := A)
    (SessionStats.new config.runId config.sessionId input.sessionStart) []
    (EventWriter.event { config := config } input.startedTs "session_started"
      (sessionStartedPayload outputPaths input) none) (loggedKey_event _ _ _ _ _))
  have hconfig := hstarted.tail (LogStep.line _ _
    (EventWriter.event { config := config } input.configTs "session_config"
      (sessionConfigPayload config input) none) (loggedKey_event _ _ _ _ _))
  have htotals := hconfig.tail (LogStep.session _ _ (.initialTotals input.initialStatus)
    fun o ho => by cases ho)
  have hadded := htotals.tail (LogStep.line _ _
    (EventWriter.event { config := config, infoHash := input.initialInfoHash }
      input.addedTs "torrent_added" (torrentAddedPayload config input) none)
    (loggedKey_event _ _ _ _ _))
  rw [Recording.logged, hstats, hlines]
  exact hadded

end Parts

end BtClient
