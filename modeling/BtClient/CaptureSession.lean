import BtClient.ArtifactLifecycle

/-!
# Capturing a session

The part of `main` between the choice of the output paths and the manifest that says
`ready_to_upload`, with `prepare_output_paths`, the stream of `EventWriter` and
`write_session_summary`. What the session logs and what its summary says is arbitrary.
-/

namespace BtClient

section Capture

variable (currentDir : CurrentDir)

/-- `prepare_output_paths` -/
def prepareOutputPaths (config : RuntimeConfig) (eventLogOverride summaryJsonOverride : Option Path) :
    Action OutputPaths := do
  let artifactDir ← absolutePath currentDir
    (config.artifactsDir / "pending" / (⟨config.sessionId⟩ : Path))
  let archiveDir ← absolutePath currentDir
    (config.artifactsDir / "archive" / (⟨config.sessionId⟩ : Path))
  if ← FileSystem.pathExists archiveDir then
    throwFailure (.runtimeError ("archive artifact directory already exists: " ++
      archiveDir.bytes ++ "; choose a different --session-id"))
  if ← FileSystem.pathExists artifactDir then
    if !(← FileSystem.isDirectory artifactDir) then
      throwFailure (.runtimeError
        ("artifact path exists but is not a directory: " ++ artifactDir.bytes))
    if !(← FileSystem.isEmptyDirectory artifactDir) then
      throwFailure (.runtimeError
        ("artifact directory already exists and is not empty: " ++ artifactDir.bytes ++
          "; choose a different --session-id or resolve the pending artifacts"))
  FileSystem.createDirectories artifactDir
  let eventLogPath ← match eventLogOverride with
    | some path => absolutePath currentDir path
    | none => pure (artifactDir / "session_events.ndjson")
  let summaryJsonPath ← match summaryJsonOverride with
    | some path => absolutePath currentDir path
    | none => pure (artifactDir / "session_summary.json")
  ensureParentDirectory eventLogPath
  ensureParentDirectory summaryJsonPath
  pure {
    artifactDir := artifactDir
    stateJsonPath := artifactDir / "state.json"
    eventLogPath := eventLogPath
    summaryJsonPath := summaryJsonPath }

/-- The stream of `EventWriter`: where the file is, and whether the stream is good. -/
structure EventStream where
  location : Location
  good : Bool

/-- The constructor of `EventWriter`. -/
def openEventLog (outputPaths : OutputPaths) : Action EventStream := do
  match ← FileSystem.openTruncated outputPaths.eventLogPath with
  | some l => pure ⟨l, true⟩
  | none => throwFailure (.runtimeError
      ("failed to open event log at " ++ outputPaths.eventLogPath.bytes))

variable [JsonText]

/-- `value.dump()`, which throws for a string that is not UTF-8. -/
def dump (value : Json) : Action ByteString :=
  if value.isUtf8 then pure (JsonText.dump value) else throwFailure .invalidUtf8

/-- The line of an event. -/
def eventLine (event : Json) : ByteString := JsonText.dump event ++ [newline]

/-- The last two lines of `write_event`. Nothing reaches the file through a stream that
has failed before. -/
def writeEventLine (stream : EventStream) (event : Json) : Action EventStream := do
  let text ← dump event
  if stream.good then
    let good ← FileSystem.writeFlushed stream.location (text ++ [newline])
    pure { stream with good := good }
  else pure stream

def writeEventLines (stream : EventStream) : List Json → Action EventStream
  | [] => pure stream
  | event :: rest => do
      let stream ← writeEventLine stream event
      writeEventLines stream rest

omit [JsonText] in
/-- `EventWriter::close` -/
def closeEventLog (outputPaths : OutputPaths) (stream : EventStream) : Action Unit := do
  let closed ← FileSystem.closeStream
  if stream.good && closed then pure ()
  else throwFailure (.runtimeError
    ("failed to close event log at " ++ outputPaths.eventLogPath.bytes))

/-- The file that `write_session_summary` writes for the value it has built. -/
def writeSessionSummary (outputPaths : OutputPaths) (summary : Json) : Action Unit := do
  match ← FileSystem.openTruncated outputPaths.summaryJsonPath with
  | none => throwFailure (.runtimeError
      ("failed to open summary output at " ++ outputPaths.summaryJsonPath.bytes))
  | some l => do
      let text ← dump summary
      let good ← FileSystem.writeBuffered l (text ++ [newline])
      if good then pure ()
      else throwFailure (.runtimeError
        ("failed to write summary output at " ++ outputPaths.summaryJsonPath.bytes))

/-- The session from its manifest `capturing` to its manifest `ready_to_upload`. -/
def captureInto (config : RuntimeConfig) (outputPaths : OutputPaths) (events : List Json)
    (summary : Json) : Action Unit := do
  writeArtifactState config outputPaths .capturing
  let stream ← openEventLog outputPaths
  let stream ← writeEventLines stream events
  closeEventLog outputPaths stream
  writeSessionSummary outputPaths summary
  writeArtifactState config outputPaths .readyToUpload

def captureSession (config : RuntimeConfig) (eventLogOverride summaryJsonOverride : Option Path)
    (events : List Json) (summary : Json) : Action OutputPaths := do
  let outputPaths ← prepareOutputPaths currentDir config eventLogOverride summaryJsonOverride
  captureInto config outputPaths events summary
  pure outputPaths

end Capture

end BtClient
