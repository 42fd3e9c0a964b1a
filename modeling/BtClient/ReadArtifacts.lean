import BtClient.EventLogText
import BtClient.ExitCodes
import BtClient.SummaryRows
import BtClient.SummaryText

/-!
# The artifacts of a run agree

`recordSession` computes with exact numbers, `main` with doubles. Their lines and summaries
are the same but for the real numbers, and no reader of a log looks at those. So whoever reads
the two files of a session that was captured finds that they agree, when the run has returned
and after any later runs.
-/

namespace BtClient

open Effect FileSystem

/-! ### Values without their real numbers -/

namespace Json

mutual

/-- The value without its real numbers; `dump` writes them as doubles, or as `null`. -/
def withoutReals : Json → Json
  | .real _ => .null
  | .array items => .array (itemsWithoutReals items)
  | .object members => .object (membersWithoutReals members)
  | v => v

def itemsWithoutReals : List Json → List Json
  | [] => []
  | v :: rest => withoutReals v :: itemsWithoutReals rest

def membersWithoutReals : List (String × Json) → List (String × Json)
  | [] => []
  | (k, v) :: rest => (k, withoutReals v) :: membersWithoutReals rest

end

/-- The values are the same but for their real numbers. -/
def IsLike (v w : Json) : Prop := v.withoutReals = w.withoutReals

theorem itemsWithoutReals_eq_map (items : List Json) :
    itemsWithoutReals items = items.map withoutReals := by
  induction items with
  | nil => rfl
  | cons v rest ih => rw [itemsWithoutReals, ih, List.map_cons]

theorem lookup_membersWithoutReals (members : Members) (key : String) :
    List.lookup key (membersWithoutReals members) = (members.lookup key).map withoutReals := by
  induction members with
  | nil => rfl
  | cons e rest ih =>
      obtain ⟨k, v⟩ := e
      rw [membersWithoutReals, Members.lookup_cons, Members.lookup_cons, ih]
      split <;> rfl

@[simp] theorem find_withoutReals (key : String) (v : Json) :
    v.withoutReals.find key = (v.find key).map withoutReals := by
  cases v with
  | object members =>
      rw [withoutReals]
      exact lookup_membersWithoutReals members key
  | _ => simp [withoutReals, find]

@[simp] theorem asText?_withoutReals (v : Json) : v.withoutReals.asText? = v.asText? := by
  cases v <;> simp [withoutReals, asText?]

@[simp] theorem isObject_withoutReals (v : Json) : v.withoutReals.isObject = v.isObject := by
  cases v <;> simp [withoutReals, isObject]

mutual

theorem isUtf8_withoutReals : ∀ v : Json, v.withoutReals.isUtf8 = v.isUtf8
  | .null | .bool _ | .integer _ | .real _ | .string _ => by simp [withoutReals, isUtf8]
  | .array items => by rw [withoutReals, isUtf8, isUtf8, itemsAreUtf8_withoutReals]
  | .object members => by rw [withoutReals, isUtf8, isUtf8, membersAreUtf8_withoutReals]

theorem itemsAreUtf8_withoutReals : ∀ items : List Json,
    itemsAreUtf8 (itemsWithoutReals items) = itemsAreUtf8 items
  | [] => rfl
  | v :: rest => by
      rw [itemsWithoutReals, itemsAreUtf8, itemsAreUtf8, isUtf8_withoutReals,
        itemsAreUtf8_withoutReals]

theorem membersAreUtf8_withoutReals : ∀ members : Members,
    membersAreUtf8 (membersWithoutReals members) = membersAreUtf8 members
  | [] => rfl
  | (k, v) :: rest => by
      rw [membersWithoutReals, membersAreUtf8, membersAreUtf8, isUtf8_withoutReals,
        membersAreUtf8_withoutReals]

end

/-! ### Readers that look at no real number -/

@[simp] theorem textAt_withoutReals (key : String) (v : Json) :
    v.withoutReals.textAt key = v.textAt key := by
  rw [textAt, textAt, find_withoutReals]
  cases v.find key with
  | none => rfl
  | some w => simp

@[simp] theorem stringAt_withoutReals (key : String) (v : Json) :
    v.withoutReals.stringAt key = v.stringAt key := by
  rw [stringAt, stringAt, find_withoutReals]
  cases v.find key with
  | none => rfl
  | some w => cases w <;> simp [withoutReals]

@[simp] theorem integerAt_withoutReals (key : String) (v : Json) :
    v.withoutReals.integerAt key = v.integerAt key := by
  rw [integerAt, integerAt, find_withoutReals]
  cases v.find key with
  | none => rfl
  | some w => cases w <;> simp [withoutReals]

@[simp] theorem textsAt_withoutReals (key : String) (v : Json) :
    v.withoutReals.textsAt key = v.textsAt key := by
  have htexts : (asText? ∘ withoutReals : Json → Option String) = asText? :=
    funext asText?_withoutReals
  rw [textsAt, textsAt, find_withoutReals]
  cases v.find key with
  | none => rfl
  | some w =>
      cases w with
      | array items =>
          simp only [Option.map_some, withoutReals]
          rw [itemsWithoutReals_eq_map, List.filterMap_map, htexts]
      | _ => simp [withoutReals]

@[simp] theorem loggedType_withoutReals (v : Json) : v.withoutReals.loggedType = v.loggedType := by
  rw [loggedType, loggedType, find_withoutReals]
  cases v.find "event_type" with
  | none => rfl
  | some w => simp

@[simp] theorem loggedKey_withoutReals (v : Json) : v.withoutReals.loggedKey = v.loggedKey := by
  rw [loggedKey, loggedKey, find_withoutReals]
  cases v.find "peer_key" with
  | none => rfl
  | some w => simp

end Json

/-! ### Readings of a log without real numbers -/

open Json

theorem linesOfType_withoutReals (eventType : String) (lines : List Json) :
    linesOfType eventType (lines.map withoutReals) =
      (linesOfType eventType lines).map withoutReals := by
  rw [linesOfType, linesOfType, List.filter_map]
  simp [Function.comp_def]

theorem keyLines_withoutReals (eventType k : String) (lines : List Json) :
    keyLines eventType k (lines.map withoutReals) =
      (keyLines eventType k lines).map withoutReals := by
  rw [keyLines, keyLines, List.filter_map]
  simp [Function.comp_def]

theorem linesOfKey_withoutReals (k : String) (lines : List Json) :
    linesOfKey k (lines.map withoutReals) = (linesOfKey k lines).map withoutReals := by
  rw [linesOfKey, linesOfKey, List.filter_map]
  simp [Function.comp_def]

theorem seenKeys_withoutReals (lines : List Json) :
    seenKeys (lines.map withoutReals) = seenKeys lines := by
  have hkeys : (Json.loggedKey ∘ withoutReals : Json → Option String) = Json.loggedKey :=
    funext loggedKey_withoutReals
  rw [seenKeys, seenKeys, loggedKeys, loggedKeys, List.filterMap_map, hkeys]

theorem payload_withoutReals (line : Json) :
    (line.withoutReals.find "payload").getD .null =
      ((line.find "payload").getD .null).withoutReals := by
  rw [find_withoutReals]
  cases line.find "payload" with
  | none => simp [withoutReals]
  | some payload => rfl

theorem LoggedPeer.read_withoutReals (v : LoggedPeer) (line : Json) :
    v.read line.withoutReals = v.read line := by
  have hpayload : ∀ (eventType : String) (payload : Json) (observed : ObservedPeer),
      observed.readEvent eventType payload.withoutReals =
        observed.readEvent eventType payload := by
    intro eventType payload observed
    simp only [ObservedPeer.readEvent, ObservedPeer.readSnapshot, stringAt_withoutReals,
      integerAt_withoutReals, textsAt_withoutReals]
  rw [read, read, payload_withoutReals, hpayload]
  simp only [contextOf, textAt_withoutReals, integerAt_withoutReals]

theorem SessionTotals.read_withoutReals (v : SessionTotals) (line : Json) :
    v.read line.withoutReals = v.read line := by
  have hpayload : ∀ (eventType : String) (payload : Json),
      v.readEvent eventType payload.withoutReals = v.readEvent eventType payload := by
    intro eventType payload
    simp only [readEvent, readSnapshot, readState, readLoss, textAt_withoutReals,
      integerAt_withoutReals]
  rw [read, read, payload_withoutReals, hpayload, textAt_withoutReals]

theorem replay_withoutReals (k : String) (lines : List Json) :
    replay k (lines.map withoutReals) = replay k lines := by
  rw [replay, replay, linesOfKey_withoutReals, List.foldl_map]
  congr 1
  funext v line
  exact v.read_withoutReals line

theorem totals_withoutReals (status : TorrentStatus) (lines : List Json) :
    (lines.map withoutReals).foldl SessionTotals.read (.start status) =
      lines.foldl SessionTotals.read (.start status) := by
  rw [List.foldl_map]
  congr 1
  funext v line
  exact v.read_withoutReals line

/-- The metrics of a log do not depend on the real numbers in its lines. -/
theorem loggedMetrics_withoutReals (sqrt : ℚ → ℚ) (status : TorrentStatus) (lines : List Json) :
    loggedMetrics sqrt status (lines.map withoutReals) = loggedMetrics sqrt status lines := by
  have hactivity : hadLoggedActivity (lines.map withoutReals) = hadLoggedActivity lines := by
    funext k
    simp only [hadLoggedActivity, keyLines_withoutReals, replay_withoutReals, List.length_map]
  have hfingerprintable :
      isLoggedFingerprintable (lines.map withoutReals) = isLoggedFingerprintable lines := by
    funext k
    simp only [isLoggedFingerprintable, keyLines_withoutReals, hactivity, List.length_map]
  have hendpoint : loggedEndpoint (lines.map withoutReals) = loggedEndpoint lines := by
    funext k
    rw [loggedEndpoint, loggedEndpoint, replay_withoutReals]
  simp only [loggedMetrics, hactivity, hfingerprintable, hendpoint, seenKeys_withoutReals,
    totals_withoutReals, replay_withoutReals, linesOfType_withoutReals, List.length_map]

theorem loggedTorrent_withoutReals (status : TorrentStatus) (lines : List Json) :
    loggedTorrent status (lines.map withoutReals) = loggedTorrent status lines := by
  simp only [loggedTorrent, seenKeys_withoutReals, totals_withoutReals, replay_withoutReals]

/-- Nor do the rows. -/
theorem loggedRow_withoutReals (lines : List Json) (k : String) (sqrt : ℚ → ℚ) :
    loggedRow (lines.map withoutReals) k sqrt = loggedRow lines k sqrt := by
  simp only [loggedRow, loggedFace, loggedCounts, loggedTraffic, replay_withoutReals,
    keyLines_withoutReals, List.length_map]

/-! ### Summaries that agree with a log -/

namespace Json.IsLike

variable {v w : Json}

theorem find (h : v.IsLike w) (key : String) :
    (v.find key).map withoutReals = (w.find key).map withoutReals := by
  rw [← find_withoutReals, ← find_withoutReals, h]

theorem exists_find (h : v.IsLike w) {key : String} {x : Json} (hfind : w.find key = some x) :
    ∃ value, v.find key = some value ∧ value.IsLike x := by
  have hmap := h.find key
  rw [hfind, Option.map_some, Option.map_eq_some_iff] at hmap
  exact hmap

theorem exists_memberOf (h : v.IsLike w) {part key : String} {x : Json}
    (hmember : w.memberOf part key = some x) :
    ∃ value, v.memberOf part key = some value ∧ value.IsLike x := by
  obtain ⟨members, hmembers, hfind⟩ := Option.bind_eq_some_iff.mp hmember
  obtain ⟨members', hmembers', hlike⟩ := h.exists_find hmembers
  rw [Json.memberOf, hmembers', Option.bind_some]
  exact hlike.exists_find hfind

theorem textAt (h : v.IsLike w) (key : String) : v.textAt key = w.textAt key := by
  rw [← textAt_withoutReals, h, textAt_withoutReals]

theorem rows (h : v.IsLike w) : v.rows.map withoutReals = w.rows.map withoutReals := by
  have hrows : ∀ v : Json, v.rows.map withoutReals = v.withoutReals.rows := by
    intro v
    rw [Json.rows, Json.rows, find_withoutReals]
    cases v.find "peer_summaries" with
    | none => rfl
    | some value =>
        cases value with
        | array items => rw [Option.map_some, withoutReals, itemsWithoutReals_eq_map]
        | _ => simp [withoutReals]
  rw [hrows, hrows, h]

end Json.IsLike

/-- The summary says what a reader of the lines finds there who knows the state and the bytes
of the torrent when it was added. -/
structure SummaryAgrees (sqrt : ℚ → ℚ) (status : TorrentStatus) (lines : List Json)
    (summary : Json) : Prop where
  metrics : ∀ metric ∈ loggedMetrics sqrt status lines,
    ∃ value, summary.memberOf "global_metrics" metric.1 = some value ∧ value.IsLike metric.2
  torrent : ∀ member ∈ loggedTorrent status lines,
    ∃ value, summary.memberOf "torrent" member.1 = some value ∧ value.IsLike member.2
  ordered : (summary.rows.map (Json.textAt "peer_key")).Pairwise (· < ·)
  keys : (summary.rows.map (Json.textAt "peer_key")).Perm (seenKeys lines)
  rows : ∀ row ∈ summary.rows, ∀ field ∈ loggedRow lines (row.textAt "peer_key") sqrt,
    ∃ value, row.find field.1 = some value ∧ value.IsLike field.2

section Agreement

variable {sqrt : ℚ → ℚ} {status : TorrentStatus} {lines lines' : List Json}
  {summary summary' : Json}

/-- Other real numbers leave the agreement as it is. -/
theorem SummaryAgrees.of_isLike (h : SummaryAgrees sqrt status lines summary)
    (hlines : lines'.map withoutReals = lines.map withoutReals)
    (hsummary : summary'.IsLike summary) : SummaryAgrees sqrt status lines' summary' := by
  have hkeys : summary'.rows.map (Json.textAt "peer_key") =
      summary.rows.map (Json.textAt "peer_key") := by
    have htext : (Json.textAt "peer_key" ∘ withoutReals : Json → String) =
        Json.textAt "peer_key" := funext (textAt_withoutReals "peer_key")
    have hmap := congrArg (List.map (Json.textAt "peer_key")) hsummary.rows
    rwa [List.map_map, List.map_map, htext] at hmap
  have hseen : seenKeys lines' = seenKeys lines := by
    rw [← seenKeys_withoutReals, hlines, seenKeys_withoutReals]
  constructor
  · intro metric hmem
    rw [← loggedMetrics_withoutReals, hlines, loggedMetrics_withoutReals] at hmem
    obtain ⟨value, hvalue, hlike⟩ := h.metrics metric hmem
    obtain ⟨value', hvalue', hlike'⟩ := hsummary.exists_memberOf hvalue
    exact ⟨value', hvalue', hlike'.trans hlike⟩
  · intro member hmem
    rw [← loggedTorrent_withoutReals, hlines, loggedTorrent_withoutReals] at hmem
    obtain ⟨value, hvalue, hlike⟩ := h.torrent member hmem
    obtain ⟨value', hvalue', hlike'⟩ := hsummary.exists_memberOf hvalue
    exact ⟨value', hvalue', hlike'.trans hlike⟩
  · rw [hkeys]
    exact h.ordered
  · rw [hkeys, hseen]
    exact h.keys
  · intro row' hrow' field hfield
    have hmem := List.mem_map_of_mem hrow' (f := withoutReals)
    rw [hsummary.rows] at hmem
    obtain ⟨row, hrow, hlike⟩ := List.mem_map.mp hmem
    have hrowLike : row'.IsLike row := hlike.symm
    rw [← loggedRow_withoutReals, hlines, loggedRow_withoutReals, hrowLike.textAt] at hfield
    obtain ⟨value, hvalue, hvalueLike⟩ := h.rows row hrow field hfield
    obtain ⟨value', hvalue', hlike'⟩ := hrowLike.exists_find hvalue
    exact ⟨value', hvalue', hlike'.trans hvalueLike⟩

/-- The summary that a session ends with agrees with its lines. -/
theorem summaryAgrees_recordSession {A : Type} [Address A] {config : RuntimeConfig}
    {outputPaths : OutputPaths} {input : SessionInput} {exitReason : String}
    {calls : List (RunStep A)} {recorded : RecordedSession}
    (h : recordSession config outputPaths input sqrt exitReason calls = .ok recorded) :
    SummaryAgrees sqrt input.initialStatus recorded.lines recorded.summary := by
  have hend := endsWith_recordSession h
  have htotals := totals_recordSession h
  have hrows := rows_recordSession h
  obtain ⟨_, _, -, -, hfinish⟩ := recordSession_ok h
  obtain ⟨-, -, hsummary⟩ := finishRecording_ok hfinish
  constructor
  · intro metric hmem
    refine ⟨metric.2, ?_, rfl⟩
    rw [hsummary, metric_sessionSummary]
    exact hend.find_loggedMetrics htotals _ sqrt metric hmem
  · intro member hmem
    refine ⟨member.2, ?_, rfl⟩
    rw [hsummary, torrent_sessionSummary]
    exact hend.find_loggedTorrent htotals _ member hmem
  · rw [hrows]
    exact hend.pairwise_peerSummaries sqrt
  · rw [hrows]
    exact hend.perm_peerSummaries sqrt
  · intro row hrow field hfield
    rw [hrows] at hrow
    exact ⟨field.2, hend.find_row sqrt row hrow field hfield, rfl⟩

end Agreement

/-! ### The files of a run -/

section Files

variable [JsonText] [JsonLines]

/-- The session of a process is this recording, with the doubles that `main` computes. -/
structure SessionOutcome.IsRecording (outcome : SessionOutcome) (recorded : RecordedSession) :
    Prop where
  events : outcome.events.map withoutReals = recorded.lines.map withoutReals
  eventsArePlain : ∀ event ∈ outcome.events, event.isPlain JsonText.isDouble = true
  summary : ∀ summary, outcome.ending = .ok summary →
    summary.IsLike recorded.summary ∧ summary.isPlain JsonText.isDouble = true

variable {A : Type} [Address A] {base : Path} {process : Process} {argv : List ByteString}
  {arguments : Arguments} {config : RuntimeConfig} {input : SessionInput} {sqrt : ℚ → ℚ}
  {exitReason : String} {calls : List (RunStep A)} {recorded : RecordedSession} {w w' : World}
  {t : Tree}

/-- The lines of a recording can be read back. -/
theorem SessionOutcome.IsRecording.isRecord {outcome : SessionOutcome} {outputPaths : OutputPaths}
    (h : outcome.IsRecording recorded)
    (hrecord : recordSession config outputPaths input sqrt exitReason calls = .ok recorded) :
    ∀ event ∈ outcome.events, eventCodec.IsRecord event := by
  intro event hevent
  have hmem := List.mem_map_of_mem hevent (f := withoutReals)
  rw [h.events] at hmem
  obtain ⟨line, hline, hlike⟩ := List.mem_map.mp hmem
  obtain ⟨hutf8, hobject⟩ := linesAreDumped_recordSession hrecord line hline
  refine ⟨?_, h.eventsArePlain event hevent, ?_⟩
  · rw [← isUtf8_withoutReals, ← hlike, isUtf8_withoutReals]
    exact hutf8
  · rw [← isObject_withoutReals, ← hlike, isObject_withoutReals]
    exact hobject

/-- The records of a captured session agree when they are read. -/
theorem IsRecordOf.agrees {r : SessionRecords} (h : IsRecordOf process base config r)
    (hrecord : recordSession config (sessionPaths base config) input sqrt exitReason calls =
      .ok recorded)
    (hrecording : (process.session config (sessionPaths base config)).IsRecording recorded) :
    ∃ summary, JsonText.parse r.summary = some summary ∧
      SummaryAgrees sqrt input.initialStatus (readEventLog r.eventLog) summary := by
  obtain ⟨summary, hending, hutf8, htext⟩ := h.summary
  obtain ⟨hlike, hplain⟩ := hrecording.summary summary hending
  refine ⟨summary, ?_, ?_⟩
  · rw [htext]
    exact JsonLines.parse_dump summary hutf8 hplain
  · have hread : readEventLog r.eventLog =
        (process.session config (sessionPaths base config)).events := by
      rw [h.eventLog]
      exact LineCodec.read_write (hrecording.isRecord hrecord)
    rw [hread]
    exact (summaryAgrees_recordSession hrecord).of_isLike hrecording.events hlike

/-- After a run that has returned 0, and any later runs, the two files of its session are in
the pending directory or in the archive, and whoever reads them finds that they agree. -/
theorem summaryAgrees_runMain (hparsed : parseArguments {} argv = .ok (.run arguments))
    (hsource : arguments.config.torrentSource ≠ []) (heventLog : arguments.eventLogOverride = none)
    (hsummary : arguments.summaryJsonOverride = none)
    (hapart : arguments.StaysApart process.currentDir base) (hstraight : IsStraight base)
    (hsettled : Settled base w.tree) (hnotices : w.Notices)
    (hconfig : config = process.identified arguments.config)
    (hrecord : recordSession config (sessionPaths base config) input sqrt exitReason calls =
      .ok recorded)
    (hrecording : (process.session config (sessionPaths base config)).IsRecording recorded)
    (hrun : runMain process argv w = (.ok 0, w'))
    (hlater : Relation.ReflTransGen (ProgramRun base) w'.tree t) :
    ∃ r summary, IsSingleName config.sessionId r.name ∧ KeepsRecords base r t ∧
      JsonText.parse r.summary = some summary ∧
      SummaryAgrees sqrt input.initialStatus (readEventLog r.eventLog) summary := by
  have hmain : Triple (· = w) (runMain process argv)
      (fun code w' => ExitReport process base arguments.config w code w')
      (fun e _ => e = .crash) :=
    triple_runMain_exitReport hparsed hsource heventLog hsummary hapart hstraight hsettled
      hnotices
  subst hconfig
  cases hmain.apply_ok rfl hrun with
  | captured hcaptured hdelivered hdurable =>
      obtain ⟨summary, hparse, hagrees⟩ := hcaptured.agrees hrecord hrecording
      exact ⟨_, summary, hcaptured.single, hdurable t hlater, hparse, hagrees⟩

end Files

section Sample

mutual

theorem withoutReals_idem : ∀ v : Json, v.withoutReals.withoutReals = v.withoutReals
  | .null | .bool _ | .integer _ | .real _ | .string _ => rfl
  | .array items => by rw [withoutReals, withoutReals, itemsWithoutReals_idem]
  | .object members => by rw [withoutReals, withoutReals, membersWithoutReals_idem]

theorem itemsWithoutReals_idem : ∀ items : List Json,
    itemsWithoutReals (itemsWithoutReals items) = itemsWithoutReals items
  | [] => rfl
  | v :: rest => by
      rw [itemsWithoutReals, itemsWithoutReals, withoutReals_idem, itemsWithoutReals_idem]

theorem membersWithoutReals_idem : ∀ members : List (String × Json),
    membersWithoutReals (membersWithoutReals members) = membersWithoutReals members
  | [] => rfl
  | (k, v) :: rest => by
      rw [membersWithoutReals, membersWithoutReals, withoutReals_idem, membersWithoutReals_idem]

end

theorem eq_of_toOption {x : Except Stop Int × World} {code : Int}
    (h : x.1.toOption = some code) : x = (.ok code, x.2) := by
  obtain ⟨result, w⟩ := x
  cases result with
  | ok code' => rw [Option.some.inj h]
  | error stop => cases h

def connectSteps : List (RunStep AddressV4) := [.drainAlerts [sampleConnect 10]]

/-- A session in which a peer connects, without real numbers. -/
def recordedOutcome (config : RuntimeConfig) (outputPaths : OutputPaths) : SessionOutcome :=
  match recordSession config outputPaths {} id "signal" connectSteps with
  | .ok recorded => ⟨recorded.lines.map withoutReals, .ok recorded.summary.withoutReals⟩
  | .error failure => ⟨[], .error failure⟩

def recordingProcess : Process := { takingProcess with session := recordedOutcome }

theorem isRecording_recordedOutcome {config : RuntimeConfig} {outputPaths : OutputPaths}
    {recorded : RecordedSession}
    (h : recordSession config outputPaths {} id "signal" connectSteps = .ok recorded)
    (hlines : ∀ line ∈ recorded.lines, line.withoutReals.isPlain JsonText.isDouble = true)
    (hsummary : recorded.summary.withoutReals.isPlain JsonText.isDouble = true) :
    (recordingProcess.session config outputPaths).IsRecording recorded := by
  have houtcome : recordingProcess.session config outputPaths =
      ⟨recorded.lines.map withoutReals, .ok recorded.summary.withoutReals⟩ := by
    change recordedOutcome config outputPaths = _
    rw [recordedOutcome, h]
  rw [houtcome]
  constructor
  · rw [List.map_map]
    exact List.map_congr_left fun line _ => withoutReals_idem line
  · intro event hevent
    obtain ⟨line, hline, rfl⟩ := List.mem_map.mp hevent
    exact hlines line hline
  · intro summary hending
    cases hending
    exact ⟨withoutReals_idem _, hsummary⟩

def recordingArguments : Arguments where
  config := {
    torrentSource := "magnet:?x"
    artifactsDir := "/d"
    sessionId := "s"
    runId := "r" }

def recordingConfig : RuntimeConfig := recordingProcess.identified recordingArguments.config

/-- A run that captures the session `s` into an empty tree. -/
def recordingRun : Except Stop Int × World :=
  runMain recordingProcess capturingArgv (quietWorld .empty [])

theorem recordingRun_ok : recordingRun = (.ok 0, recordingRun.2) :=
  eq_of_toOption (by decide +kernel)

theorem exists_recorded : ∃ recorded,
    recordSession recordingConfig (sessionPaths "/d" recordingConfig) {} id "signal" connectSteps =
      .ok recorded ∧
    (recordingProcess.session recordingConfig (sessionPaths "/d" recordingConfig)).IsRecording
      recorded := by
  obtain ⟨recorded, hrecord, hplain⟩ := exists_of_any
    (x := recordSession recordingConfig (sessionPaths "/d" recordingConfig) {} id "signal"
      connectSteps)
    (q := fun recorded =>
      recorded.lines.all (fun line => line.withoutReals.isPlain JsonText.isDouble) &&
        recorded.summary.withoutReals.isPlain JsonText.isDouble) (by decide +kernel)
  rw [Bool.and_eq_true, List.all_eq_true] at hplain
  exact ⟨recorded, hrecord, isRecording_recordedOutcome hrecord hplain.1 hplain.2⟩

theorem summaryAgrees_recordingRun :
    ∃ r summary, IsSingleName recordingConfig.sessionId r.name ∧
      KeepsRecords "/d" r recordingRun.2.tree ∧ JsonText.parse r.summary = some summary ∧
      SummaryAgrees id {} (readEventLog r.eventLog) summary := by
  obtain ⟨recorded, hrecord, hrecording⟩ := exists_recorded
  have hparsed : parseArguments {} capturingArgv = .ok (.run recordingArguments) := rfl
  have hconfig : recordingConfig = recordingProcess.identified recordingArguments.config := rfl
  have hs : IsSingleName "s" "s" := ⟨by decide, [], by decide, by simp⟩
  have hapart : recordingArguments.StaysApart recordingProcess.currentDir "/d" :=
    ⟨⟨by decide, by decide⟩, Or.inr ⟨"s", hs⟩, by simp [recordingArguments]⟩
  exact summaryAgrees_runMain hparsed (by decide) rfl rfl hapart (by decide) (settled_empty "/d")
    (notices_of_faults_nil rfl) hconfig hrecord hrecording recordingRun_ok .refl

end Sample

end BtClient
