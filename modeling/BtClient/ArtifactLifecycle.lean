import BtClient.FileSystem
import BtClient.JsonText

/-!
# The life of the artifacts of a session

`artifact_lifecycle.cpp`: the manifest `state.json` of a session, the search for pending
sessions, and the move of a session into the archive. A manifest is written by truncating
the file and putting the new text into it.
-/

namespace BtClient

inductive ArtifactState where
  | capturing
  | readyToUpload
  | archived
  | unknown
  deriving DecidableEq, Repr

structure PendingArtifactSession where
  outputPaths : OutputPaths
  runId : ByteString := []
  sessionId : ByteString := []
  state : ArtifactState := .unknown
  stateText : ByteString := []
  hasStateFile : Bool := false
  stateFileValid : Bool := false

/-- `artifact_state_name` -/
def artifactStateName : ArtifactState → String
  | .capturing => "capturing"
  | .readyToUpload => "ready_to_upload"
  | .archived => "archived"
  | .unknown => "unknown"

/-- `artifact_state_from_string` -/
def artifactStateFromString (value : ByteString) : ArtifactState :=
  if value = "capturing" then .capturing
  else if value = "ready_to_upload" then .readyToUpload
  else if value = "archived" then .archived
  else .unknown

/-- The value of a string member, empty if there is none. -/
def jsonStringOrEmpty (value : Json) (key : String) : ByteString :=
  match value.find key with
  | some (.string s) => s
  | _ => []

section Text

variable [JsonText]

/-- `value.dump(2)`, which throws for a string that is not UTF-8. -/
def dumpIndented (value : Json) : Action ByteString :=
  if value.isUtf8 then pure (JsonText.dumpIndented value) else throwFailure .invalidUtf8

def readJsonFile (path : Path) : Action Json := do
  match ← FileSystem.openForReading path with
  | none => throwFailure (.runtimeError ("failed to open JSON file: " ++ path.bytes))
  | some content =>
      match JsonText.parse content with
      | some parsed => pure parsed
      | none => throwFailure .jsonError

/-- `ensure_parent_directory` -/
def ensureParentDirectory (filePath : Path) : Action Unit :=
  if filePath.parentPath.isEmpty then pure ()
  else FileSystem.createDirectories filePath.parentPath

def writeJsonFile (path : Path) (value : Json) : Action Unit := do
  ensureParentDirectory path
  match ← FileSystem.openTruncated path with
  | none => throwFailure (.runtimeError ("failed to open JSON output at " ++ path.bytes))
  | some l => do
      let text ← dumpIndented value
      let good ← FileSystem.writeBuffered l (text ++ [newline])
      if good then pure ()
      else throwFailure (.runtimeError ("failed to write JSON output at " ++ path.bytes))

def createdUtcForState (outputPaths : OutputPaths) (now : TimestampPair) :
    Action ByteString := do
  if ← FileSystem.pathExists outputPaths.stateJsonPath then
    catchFailure
      (do
        let previous ← readJsonFile outputPaths.stateJsonPath
        let createdUtc := jsonStringOrEmpty previous "created_utc"
        pure (if createdUtc.isEmpty then (now.utcTs : ByteString) else createdUtc))
      fun _ => pure now.utcTs
  else pure now.utcTs

def loadExistingStateOrEmpty (outputPaths : OutputPaths) : Action Json := do
  if ← FileSystem.pathExists outputPaths.stateJsonPath then
    catchFailure
      (do
        let previous ← readJsonFile outputPaths.stateJsonPath
        pure (if previous.isObject then previous else .object []))
      fun _ => pure (.object [])
  else pure (.object [])

/-- A member of the previous manifest is taken over if its value has the right type. -/
def keepMember (previous : Json) (key : String) (accepts : Json → Bool)
    (members : Json.Members) : Json.Members :=
  match previous.find key with
  | some value => if accepts value then members.set key value else members
  | none => members

/-- The members that every manifest has. -/
def manifestMembers (config : RuntimeConfig) (outputPaths : OutputPaths)
    (state : ArtifactState) (createdUtc : ByteString) (now : TimestampPair) : Json.Members :=
  Json.Members.ofList [
    ("schema_version", .integer 1),
    ("state", Json.text (artifactStateName state)),
    ("run_id", .string config.runId),
    ("session_id", .string config.sessionId),
    ("created_utc", .string createdUtc),
    ("updated_utc", Json.text now.utcTs),
    ("artifact_dir", .string outputPaths.artifactDir.bytes),
    ("destination_url_configured", .bool !config.destinationUrl.isEmpty),
    ("files", Json.obj [
      ("state_json", .string outputPaths.stateJsonPath.bytes),
      ("event_log", .string outputPaths.eventLogPath.bytes),
      ("summary_json", .string outputPaths.summaryJsonPath.bytes)])]

/-- The manifest, with the upload history of the previous one. -/
def manifest (config : RuntimeConfig) (outputPaths : OutputPaths) (state : ArtifactState)
    (previous : Json) (createdUtc : ByteString) (now : TimestampPair) : Json.Members :=
  let members := manifestMembers config outputPaths state createdUtc now
  let members := keepMember previous "upload_failures" Json.isArray members
  let members := keepMember previous "last_upload_failure" Json.isObject members
  let members := keepMember previous "upload_attempt_count" Json.isNumberInteger members
  keepMember previous "last_upload_attempt_utc" Json.isString members

def baseStateJson (config : RuntimeConfig) (outputPaths : OutputPaths)
    (state : ArtifactState) (now : TimestampPair) : Action Json.Members := do
  let previous ← loadExistingStateOrEmpty outputPaths
  let createdUtc ← createdUtcForState outputPaths now
  pure (manifest config outputPaths state previous createdUtc now)

/-- Both functions that write a manifest: it is put together from the previous one and
then amended. -/
def rewriteState (config : RuntimeConfig) (outputPaths : OutputPaths) (state : ArtifactState)
    (amend : TimestampPair → Json.Members → Json.Members) : Action Unit := do
  FileSystem.createDirectories outputPaths.artifactDir
  let now ← captureTimestamp
  let stateJson ← baseStateJson config outputPaths state now
  writeJsonFile outputPaths.stateJsonPath (.object (amend now stateJson))

/-- `write_artifact_state` -/
def writeArtifactState (config : RuntimeConfig) (outputPaths : OutputPaths)
    (state : ArtifactState) : Action Unit :=
  rewriteState config outputPaths state fun _ stateJson => stateJson

/-- The entry in the history of failed uploads. -/
def uploadFailure (config : RuntimeConfig) (errorMessage : ByteString) (now : TimestampPair) :
    Json :=
  Json.obj [
    ("attempt_utc", Json.text now.utcTs),
    ("destination_url", .string config.destinationUrl),
    ("error", .string errorMessage)]

/-- The manifest with one more failed upload. -/
def withUploadFailure (failure : Json) (now : TimestampPair) (members : Json.Members) :
    Json.Members :=
  let attemptCount := match members.lookup "upload_attempt_count" with
    | some (.integer n) => n
    | _ => 0
  let failures := match members.lookup "upload_failures" with
    | some (.array items) => items
    | _ => []
  (((members.set "upload_failures" (.array (failures ++ [failure]))).set
    "last_upload_failure" failure).set
    "upload_attempt_count" (.integer (attemptCount + 1))).set
    "last_upload_attempt_utc" (Json.text now.utcTs)

/-- `record_artifact_upload_failure` -/
def recordArtifactUploadFailure (config : RuntimeConfig) (outputPaths : OutputPaths)
    (errorMessage : ByteString) : Action Unit :=
  rewriteState config outputPaths .readyToUpload fun now stateJson =>
    withUploadFailure (uploadFailure config errorMessage now) now stateJson

variable (currentDir : CurrentDir)

omit [JsonText] in
/-- `pending_artifacts_dir` -/
def pendingArtifactsDir (artifactsDir : Path) : Action Path :=
  absolutePath currentDir (artifactsDir / "pending")

omit [JsonText] in
/-- `archive_artifacts_dir` -/
def archiveArtifactsDir (artifactsDir : Path) : Action Path :=
  absolutePath currentDir (artifactsDir / "archive")

omit [JsonText] in
/-- The default paths of a session whose directory is absolute. -/
def OutputPaths.inDirectory (artifactDir : Path) : OutputPaths where
  artifactDir := artifactDir
  stateJsonPath := artifactDir / "state.json"
  eventLogPath := artifactDir / "session_events.ndjson"
  summaryJsonPath := artifactDir / "session_summary.json"

omit [JsonText] in
/-- `artifact_paths_for_session_dir` -/
def artifactPathsForSessionDir (sessionDir : Path) : Action OutputPaths := do
  let artifactDir ← absolutePath currentDir sessionDir
  pure (.inDirectory artifactDir)

omit [JsonText] in
/-- `path_from_state_file` -/
def pathFromStateFile (state : Json) (sessionDir : Path) (key : String) (fallback : Path) :
    Action Path :=
  match state.find "files" with
  | some (.object files) =>
      let value := jsonStringOrEmpty (.object files) key
      if value.isEmpty then pure fallback
      else
        let path : Path := ⟨value⟩
        absolutePath currentDir (if path.isAbsolute then path else sessionDir / path)
  | _ => pure fallback

/-- What the manifest says about a session, if it can be read. -/
def readPendingSession (session : PendingArtifactSession) : Action PendingArtifactSession := do
  let stateJson ← readJsonFile session.outputPaths.stateJsonPath
  let stateText := jsonStringOrEmpty stateJson "state"
  let manifestSessionId := jsonStringOrEmpty stateJson "session_id"
  let paths := session.outputPaths
  let stateJsonPath ← pathFromStateFile currentDir stateJson paths.artifactDir "state_json"
    paths.stateJsonPath
  let eventLogPath ← pathFromStateFile currentDir stateJson paths.artifactDir "event_log"
    paths.eventLogPath
  let summaryJsonPath ← pathFromStateFile currentDir stateJson paths.artifactDir
    "summary_json" paths.summaryJsonPath
  pure { session with
    outputPaths := { paths with
      stateJsonPath := stateJsonPath
      eventLogPath := eventLogPath
      summaryJsonPath := summaryJsonPath }
    stateText := stateText
    state := artifactStateFromString stateText
    runId := jsonStringOrEmpty stateJson "run_id"
    sessionId := if manifestSessionId.isEmpty then session.sessionId else manifestSessionId
    stateFileValid := true }

/-- One round of the loop over the entries of the pending directory. -/
def pendingSession (entryPath : Path) : Action PendingArtifactSession := do
  let paths ← artifactPathsForSessionDir currentDir entryPath
  let hasStateFile ← FileSystem.pathExists paths.stateJsonPath
  let session : PendingArtifactSession := {
    outputPaths := paths
    sessionId := paths.artifactDir.filename.bytes
    hasStateFile := hasStateFile }
  if hasStateFile then
    catchFailure (readPendingSession currentDir session) fun _ =>
      pure { session with stateText := "invalid" }
  else pure session

def pendingSessions (pendingDir : Path) :
    List (ByteString × Bool) → Action (List PendingArtifactSession)
  | [] => pure []
  | (name, isDirectory) :: rest => do
      if isDirectory then
        let session ← pendingSession currentDir (pendingDir / ⟨name⟩)
        let sessions ← pendingSessions pendingDir rest
        pure (session :: sessions)
      else pendingSessions pendingDir rest

omit [JsonText] in
/-- The order of `std::sort`: the names of the directories, byte by byte. -/
def sortsBefore (lhs rhs : PendingArtifactSession) : Prop :=
  lhs.outputPaths.artifactDir.filename.bytes ≤ rhs.outputPaths.artifactDir.filename.bytes

omit [JsonText] in
instance : DecidableRel sortsBefore := fun lhs rhs =>
  inferInstanceAs (Decidable (lhs.outputPaths.artifactDir.filename.bytes ≤
    rhs.outputPaths.artifactDir.filename.bytes))

/-- `find_pending_artifact_sessions` -/
def findPendingArtifactSessions (artifactsDir : Path) :
    Action (List PendingArtifactSession) := do
  let pendingDir ← pendingArtifactsDir currentDir artifactsDir
  if ← FileSystem.pathExists pendingDir then
    let entries ← FileSystem.directoryEntries pendingDir
    let sessions ← pendingSessions currentDir pendingDir entries
    pure (sessions.insertionSort sortsBefore)
  else pure []

/-- `archive_artifact_session` -/
def archiveArtifactSession (config : RuntimeConfig) (pendingOutputPaths : OutputPaths) :
    Action OutputPaths := do
  let archiveRoot ← archiveArtifactsDir currentDir config.artifactsDir
  let archiveDir := archiveRoot / pendingOutputPaths.artifactDir.filename
  if ← FileSystem.pathExists archiveDir then
    throwFailure (.runtimeError
      ("archive artifact directory already exists: " ++ archiveDir.bytes))
  else
    FileSystem.createDirectories archiveDir.parentPath
    FileSystem.rename pendingOutputPaths.artifactDir archiveDir
    let archivedOutputPaths ← artifactPathsForSessionDir currentDir archiveDir
    writeArtifactState config archivedOutputPaths .archived
    pure archivedOutputPaths

end Text

end BtClient
