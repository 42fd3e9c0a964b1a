import BtClient.PeerText
import BtClient.SummaryAgreement

/-!
# The summary is UTF-8 when the log is

The strings of the summary that the program does not spell out have been in a line of the log
before: the configuration in the first two lines, the clients in the snapshots. `dump` has
accepted those lines, so it accepts the summary. Only the paths of the artifacts and an info
hash that has become known late are not in the log.
-/

namespace BtClient

/-! ### What every written line has -/

section Writers

variable {A : Type} [Address A] {P : EventWriter → Prop}

/-- What `write_event` keeps, a run keeps. -/
theorem writer_run (hP : ∀ {writer writer' : EventWriter} {ts : TimestampPair}
      {eventType : String} {payload : Json} {peerContext : Option EventPeerContext},
      writer.writeEvent ts eventType payload peerContext = .ok writer' → P writer → P writer')
    {r r' : Recording} {steps : List (RunStep A)} (hr : r.run steps = .ok r')
    (h : P r.writer) : P r'.writer := by
  have halert : ∀ {r r' : Recording} {timed : TimedAlert A}, r.recordAlert timed = .ok r' →
      P r.writer → P r'.writer := by
    intro r r' timed hr h
    unfold Recording.recordAlert at hr
    split at hr
    · cases hr
      exact h
    · split at hr
      · next writer hwrite =>
          cases hr
          exact hP hwrite h
      · cases hr
  have hbatch : ∀ {batch : List (TimedAlert A)} {r r' : Recording},
      r.drainAlerts batch = .ok r' → P r.writer → P r'.writer := by
    intro batch
    induction batch with
    | nil =>
        intro r r' hr h
        cases hr
        exact h
    | cons timed rest ih =>
        intro r r' hr h
        unfold Recording.drainAlerts at hr
        split at hr
        · next r₁ hr₁ => exact ih hr (halert hr₁ h)
        · cases hr
  have hpeers : ∀ {ts : TimestampPair} {peers : List (TimestampPair × PeerInfo A)}
      {r r' : Recording}, r.recordPeerSnapshots ts peers = .ok r' → P r.writer →
      P r'.writer := by
    intro ts peers
    induction peers with
    | nil =>
        intro r r' hr h
        cases hr
        exact h
    | cons entry rest ih =>
        intro r r' hr h
        obtain ⟨writeTs, peer⟩ := entry
        unfold Recording.recordPeerSnapshots at hr
        split at hr
        · next r₁ hr₁ =>
            unfold Recording.recordPeerSnapshot at hr₁
            simp only at hr₁
            split at hr₁
            · next writer hwrite =>
                cases hr₁
                exact ih hr (hP hwrite h)
            · cases hr₁
        · cases hr
  induction steps generalizing r with
  | nil =>
      cases hr
      exact h
  | cons step rest ih =>
      unfold Recording.run at hr
      split at hr
      · next r₁ hr₁ =>
          refine ih hr ?_
          cases step with
          | drainAlerts batch => exact hbatch hr₁ h
          | captureSnapshots input =>
              have hcapture : r.captureSnapshots input = .ok r₁ := hr₁
              unfold Recording.captureSnapshots at hcapture
              split at hcapture
              · cases hcapture
              · next writer hwrite =>
                  split at hcapture
                  · cases hcapture
                  · next writer' hwrite' => exact hpeers hcapture (hP hwrite' (hP hwrite h))
      · cases hr

end Writers

/-- All lines so far are objects that `dump` has written. -/
def EventWriter.LinesAreDumped (writer : EventWriter) : Prop :=
  ∀ line ∈ writer.lines, line.isUtf8 = true ∧ line.isObject = true

theorem linesAreDumped_writeEvent {writer writer' : EventWriter} {ts : TimestampPair}
    {eventType : String} {payload : Json} {peerContext : Option EventPeerContext}
    (hwrite : writer.writeEvent ts eventType payload peerContext = .ok writer')
    (h : writer.LinesAreDumped) : writer'.LinesAreDumped := by
  unfold EventWriter.writeEvent at hwrite
  simp only at hwrite
  split at hwrite
  · next hutf8 =>
      cases hwrite
      intro line hline
      rcases List.mem_append.mp hline with hold | hnew
      · exact h line hold
      · rw [List.mem_singleton.mp hnew]
        exact ⟨hutf8, rfl⟩
  · cases hwrite

section Sessions

variable {config : RuntimeConfig} {outputPaths : OutputPaths} {input : SessionInput}
variable {A : Type} [Address A] {sqrt : ℚ → ℚ} {exitReason : String}
variable {calls : List (RunStep A)} {recorded : RecordedSession}

theorem linesAreDumped_recordSession
    (h : recordSession config outputPaths input sqrt exitReason calls = .ok recorded) :
    ∀ line ∈ recorded.lines, line.isUtf8 = true ∧ line.isObject = true := by
  obtain ⟨r₀, r, hopen, hrun, hfinish⟩ := recordSession_ok h
  obtain ⟨w₁, h₁, hopen⟩ := bind_eq_ok.mp hopen
  obtain ⟨w₂, h₂, hopen⟩ := bind_eq_ok.mp hopen
  obtain ⟨w₃, h₃, hopen⟩ := bind_eq_ok.mp hopen
  obtain ⟨w₄, h₄, hfinish⟩ := bind_eq_ok.mp hfinish
  obtain rfl := Except.ok.inj hopen
  obtain rfl := Except.ok.inj hfinish
  have hconfig : w₂.LinesAreDumped :=
    linesAreDumped_writeEvent h₂ (linesAreDumped_writeEvent h₁ fun _ hline => by cases hline)
  have hadded : w₃.LinesAreDumped := linesAreDumped_writeEvent h₃ hconfig
  exact linesAreDumped_writeEvent h₄ (writer_run linesAreDumped_writeEvent hrun hadded)

end Sessions

/-! ### What the lines tell is UTF-8 -/

/-- A string of a UTF-8 value, or of a member of it. -/
theorem isValidUtf8_stringAt {key : String} {v : Json} (h : v.isUtf8 = true) :
    ByteString.IsValidUtf8 (v.stringAt key) := by
  unfold Json.stringAt
  split
  · next s hfind => exact of_decide_eq_true (Json.isUtf8_of_find h hfind)
  · decide

theorem ObservedPeer.isValidUtf8_readEvent {eventType : String} {payload : Json}
    (hpayload : payload.isUtf8 = true) {v : ObservedPeer}
    (h : ByteString.IsValidUtf8 v.clientName) :
    ByteString.IsValidUtf8 (v.readEvent eventType payload).clientName := by
  unfold readEvent
  split
  · simp only [readSnapshot, readFlags, readTransitions, readTraffic, readDetails]
    split
    · exact h
    · exact isValidUtf8_stringAt hpayload
  · split
    · exact h
    · split
      · exact h
      · exact h

/-- The client that UTF-8 lines tell is UTF-8. -/
theorem isValidUtf8_replay {lines : List Json} (h : ∀ line ∈ lines, line.isUtf8 = true)
    (k : String) : ByteString.IsValidUtf8 (replay k lines).observed.clientName := by
  have hfold : ∀ (lines : List Json) (v : LoggedPeer), (∀ line ∈ lines, line.isUtf8 = true) →
      ByteString.IsValidUtf8 v.observed.clientName →
      ByteString.IsValidUtf8 (lines.foldl LoggedPeer.read v).observed.clientName := by
    intro lines
    induction lines with
    | nil => exact fun v _ hv => hv
    | cons line rest ih =>
        intro v hlines hv
        rw [List.forall_mem_cons] at hlines
        have hpayload : ((line.find "payload").getD .null).isUtf8 = true := by
          cases hfind : line.find "payload" with
          | none => rfl
          | some payload => exact Json.isUtf8_of_find hlines.1 hfind
        exact ih (v.read line) hlines.2 (ObservedPeer.isValidUtf8_readEvent hpayload hv)
  refine hfold (linesOfKey k lines) {} (fun line hline => h line (List.mem_of_mem_filter hline)) ?_
  change ByteString.IsValidUtf8 []
  decide

/-! ### The values of the summary -/

@[simp] theorem isUtf8_optionalDouble (value : Option ℚ) :
    (optionalDouble value).isUtf8 = true := by
  cases value <;> rfl

theorem isUtf8_optionalString {value : ByteString} (h : value.IsValidUtf8) :
    (optionalString value).isUtf8 = true := by
  unfold optionalString
  split
  · rfl
  · exact decide_eq_true h

@[simp] theorem isUtf8_optionalText (value : String) : (optionalText value).isUtf8 = true := by
  unfold optionalText
  split
  · rfl
  · exact Json.isUtf8_text value

@[simp] theorem isUtf8_distributionSummaryToJson (summary : DistributionSummary) :
    (distributionSummaryToJson summary).isUtf8 = true := by
  apply Json.isUtf8_obj
  simp [Json.isUtf8]

@[simp] theorem isUtf8_sortedStringsToJsonArray (values : Finset String) :
    (sortedStringsToJsonArray values).isUtf8 = true := by
  rw [sortedStringsToJsonArray, Json.isUtf8, Json.itemsAreUtf8_iff]
  intro v hv
  obtain ⟨text, -, rfl⟩ := List.mem_map.mp hv
  exact Json.isUtf8_text text

@[simp] theorem isUtf8_stateTransitionsJson (p : PeerStats) :
    p.stateTransitionsJson.isUtf8 = true := by
  apply Json.isUtf8_obj
  simp [Json.isUtf8]

/-- A row is UTF-8 when the client it names is. -/
theorem isUtf8_toJson (sqrt : ℚ → ℚ) {p : PeerStats} (h : p.clientName.IsValidUtf8) :
    (p.toJson sqrt).isUtf8 = true := by
  have hclient := isUtf8_optionalString h
  apply Json.isUtf8_obj
  simp only [List.forall_mem_cons, Json.isUtf8_text, isUtf8_optionalDouble, isUtf8_optionalText,
    isUtf8_distributionSummaryToJson, isUtf8_sortedStringsToJsonArray,
    isUtf8_stateTransitionsJson, hclient, Json.isUtf8, List.not_mem_nil, true_and, false_implies,
    implies_true]

/-- The strings that the summary takes over. -/
structure SummaryInput.IsUtf8 (summaryInput : SummaryInput) : Prop where
  config : ∀ s ∈ [summaryInput.config.runId, summaryInput.config.sessionId,
    summaryInput.config.clientLabel, summaryInput.config.profileId,
    summaryInput.config.destinationUrl, summaryInput.config.announceIp,
    summaryInput.config.nodeRole, summaryInput.config.torrentSourceType,
    summaryInput.config.torrentSource], s.IsValidUtf8
  paths : ∀ path ∈ [summaryInput.outputPaths.artifactDir, summaryInput.outputPaths.stateJsonPath,
    summaryInput.outputPaths.eventLogPath, summaryInput.outputPaths.summaryJsonPath,
    summaryInput.absoluteSavePath], path.bytes.IsValidUtf8
  hostname : summaryInput.hostname.IsValidUtf8
  infoHash : summaryInput.infoHash.IsValidUtf8

theorem isUtf8_sessionSummary {summaryInput : SummaryInput} (h : summaryInput.IsUtf8)
    {s : SessionStats} (sqrt : ℚ → ℚ)
    (hrows : ∀ (k : String) (p : PeerStats), s.peersByKey[k]? = some p →
      p.clientName.IsValidUtf8) : (sessionSummary summaryInput s sqrt).isUtf8 = true := by
  obtain ⟨hconfig, hpaths, hhostname, hinfoHash⟩ := h
  simp only [List.forall_mem_cons, List.not_mem_nil, false_implies, implies_true, and_true]
    at hconfig hpaths
  obtain ⟨hrun, hsession, hlabel, hprofile, hurl, hip, hrole, htype, hsource⟩ := hconfig
  obtain ⟨hartifact, hstate, hlog, hsummary, hsave⟩ := hpaths
  have hsessionJson : (buildSessionJson summaryInput s).isUtf8 = true := by
    apply Json.isUtf8_obj
    simp [Json.isUtf8, isUtf8_optionalString, *]
  have hconfigJson : (runtimeConfigJson summaryInput).isUtf8 = true := by
    apply Json.isUtf8_obj
    simp [Json.isUtf8, isUtf8_optionalString, *]
  have htorrentJson : (torrentJson summaryInput s).isUtf8 = true := by
    apply Json.isUtf8_obj
    simp [Json.isUtf8, isUtf8_optionalString, *]
  have hmetricsJson : (globalMetricsJson summaryInput s sqrt).isUtf8 = true := by
    apply Json.isUtf8_obj
    simp [Json.isUtf8]
  have hfilesJson : (filesJson summaryInput).isUtf8 = true := by
    apply Json.isUtf8_obj
    simp [Json.isUtf8, *]
  have hrowsJson : Json.itemsAreUtf8 (s.peerSummaries sqrt) = true := by
    rw [Json.itemsAreUtf8_iff]
    intro row hrow
    obtain ⟨⟨k, p⟩, hmem, rfl⟩ := List.mem_map.mp hrow
    exact isUtf8_toJson sqrt (hrows k p (Std.ExtTreeMap.mem_toList_iff_getElem?_eq_some.mp hmem))
  apply Json.isUtf8_obj
  simp only [List.forall_mem_cons, hsessionJson, hconfigJson, htorrentJson, hmetricsJson,
    hrowsJson, hfilesJson, Json.isUtf8, List.not_mem_nil, true_and, false_implies, implies_true]

/-! ### The strings that the first lines have -/

theorem isUtf8_of_writeEvent {writer writer' : EventWriter} {ts : TimestampPair}
    {eventType : String} {payload : Json} {peerContext : Option EventPeerContext}
    (h : writer.writeEvent ts eventType payload peerContext = .ok writer') :
    writer.EnvelopeIsUtf8 ∧ payload.isUtf8 = true := by
  by_contra hnot
  rw [writer.writeEvent_error ts eventType payload peerContext hnot] at h
  cases h

theorem isValidUtf8_of_optionalString {key : String} {value : ByteString} {v : Json}
    (h : v.isUtf8 = true) (hfind : v.find key = some (optionalString value)) :
    value.IsValidUtf8 := by
  have hutf8 := Json.isUtf8_of_find h hfind
  unfold optionalString at hutf8
  split at hutf8
  · next hempty =>
      rw [List.isEmpty_iff.mp hempty]
      decide
  · exact of_decide_eq_true hutf8

theorem isValidUtf8_of_find {key : String} {value : ByteString} {v : Json}
    (h : v.isUtf8 = true) (hfind : v.find key = some (.string value)) : value.IsValidUtf8 :=
  of_decide_eq_true (Json.isUtf8_of_find h hfind)

section Sessions

variable {config : RuntimeConfig} {outputPaths : OutputPaths} {input : SessionInput}

/-- What is logged before the loop is UTF-8, and with it what the summary takes over from it. -/
theorem isUtf8_summaryInput {r : Recording}
    (h : openRecording config outputPaths input = .ok r)
    (hpaths : ∀ path ∈ [outputPaths.stateJsonPath, outputPaths.eventLogPath,
      outputPaths.summaryJsonPath], path.bytes.IsValidUtf8)
    (hinfoHash : input.finalInfoHash.IsValidUtf8) (exitReason : String) :
    (summaryInput config outputPaths input exitReason).IsUtf8 := by
  obtain ⟨w₁, h₁, h⟩ := bind_eq_ok.mp h
  obtain ⟨w₂, h₂, h⟩ := bind_eq_ok.mp h
  obtain ⟨w₃, h₃, -⟩ := bind_eq_ok.mp h
  obtain ⟨henvelope, hstarted⟩ := isUtf8_of_writeEvent h₁
  obtain ⟨-, hconfigPayload⟩ := isUtf8_of_writeEvent h₂
  obtain ⟨-, hadded⟩ := isUtf8_of_writeEvent h₃
  have hfindStarted : ∀ key, (sessionStartedPayload outputPaths input).find key = _ :=
    Json.find_obj_eq_reverse _
  have hfindConfig : ∀ key, (sessionConfigPayload config input).find key = _ :=
    Json.find_obj_eq_reverse _
  have hfindAdded : ∀ key, (torrentAddedPayload config input).find key = _ :=
    Json.find_obj_eq_reverse _
  have hinitial : input.initialInfoHash.IsValidUtf8 :=
    isValidUtf8_of_optionalString hadded (hfindAdded "info_hash")
  simp only [EventWriter.EnvelopeIsUtf8, List.forall_mem_cons] at henvelope
  simp only [List.forall_mem_cons] at hpaths
  obtain ⟨hrun, hsession, hrole, hsource, -⟩ := henvelope
  obtain ⟨hstate, hlog, hsummary, -⟩ := hpaths
  refine ⟨?_, ?_, ?_, ?_⟩
  · simp only [summaryInput, List.forall_mem_cons, List.not_mem_nil, false_implies,
      implies_true, and_true]
    exact ⟨hrun, hsession,
      isValidUtf8_of_optionalString hconfigPayload (hfindConfig "client_label"),
      isValidUtf8_of_optionalString hconfigPayload (hfindConfig "profile_id"),
      isValidUtf8_of_optionalString hconfigPayload (hfindConfig "destination_url"),
      isValidUtf8_of_optionalString hconfigPayload (hfindConfig "announce_ip"), hrole,
      isValidUtf8_of_find hconfigPayload (hfindConfig "torrent_source_type"), hsource⟩
  · simp only [summaryInput, List.forall_mem_cons, List.not_mem_nil, false_implies,
      implies_true, and_true]
    exact ⟨isValidUtf8_of_find hstarted (hfindStarted "artifact_dir"), hstate, hlog, hsummary,
      isValidUtf8_of_find hconfigPayload (hfindConfig "save_path")⟩
  · exact isValidUtf8_of_find hstarted (hfindStarted "hostname")
  · simp only [summaryInput]
    split
    · exact hinfoHash
    · exact hinitial

end Sessions

/-- Once all lines of a session have been written, `dump` does not throw for its summary: the
lines and the summary are UTF-8, if the paths of the artifacts and the final info hash are. -/
theorem isUtf8_recordSession {A : Type} [Address A] (config : RuntimeConfig)
    (outputPaths : OutputPaths) (input : SessionInput) (sqrt : ℚ → ℚ) (exitReason : String)
    (calls : List (RunStep A)) (recorded : RecordedSession)
    (h : recordSession config outputPaths input sqrt exitReason calls = .ok recorded)
    (hpaths : ∀ path ∈ [outputPaths.stateJsonPath, outputPaths.eventLogPath,
      outputPaths.summaryJsonPath], path.bytes.IsValidUtf8)
    (hinfoHash : input.finalInfoHash.IsValidUtf8) :
    (∀ line ∈ recorded.lines, line.isUtf8 = true) ∧ recorded.summary.isUtf8 = true := by
  have hlines : ∀ line ∈ recorded.lines, line.isUtf8 = true :=
    fun line hline => (linesAreDumped_recordSession h line hline).1
  have hend := endsWith_recordSession h
  obtain ⟨r₀, r, hopen, -, hfinish⟩ := recordSession_ok h
  obtain ⟨-, -, hsummary⟩ := finishRecording_ok hfinish
  refine ⟨hlines, ?_⟩
  rw [hsummary]
  refine isUtf8_sessionSummary (isUtf8_summaryInput hopen hpaths hinfoHash exitReason) sqrt ?_
  intro k p hp
  have hclient := congrArg (fun logged => logged.observed.clientName) (hend.replayed k p hp)
  have hreplay := isValidUtf8_replay hlines k
  rw [← hclient] at hreplay
  exact hreplay

/-- The summary of a session with one peer can be written. -/
theorem isUtf8_recordSession_sampleSteps :
    ∃ recorded, recordSession {} sampleSessionPaths {} id "signal" sampleSteps = .ok recorded ∧
      recorded.summary.isUtf8 = true := by
  obtain ⟨recorded, h⟩ := exists_of_isOk
    (x := recordSession {} sampleSessionPaths {} id "signal" sampleSteps) (by decide +kernel)
  exact ⟨recorded, h, (isUtf8_recordSession {} sampleSessionPaths {} id "signal" sampleSteps
    recorded h (by decide +kernel) (by decide)).2⟩

end BtClient
