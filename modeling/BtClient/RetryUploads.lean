import BtClient.ArtifactSender

/-!
# Uploading what is pending

The functions of `main.cpp` that upload the artifacts of a session and archive them, for
the session that has just ended and for those that earlier runs have left behind.
-/

namespace BtClient

/-- What the process is surrounded by: the directory it runs in, the network, and the
texts of the exceptions that libraries throw. -/
structure Surroundings where
  currentDir : CurrentDir
  network : Network
  libraryMessage : Failure → ByteString

/-- `what()` -/
def Surroundings.what (env : Surroundings) : Failure → ByteString
  | .runtimeError message => message
  | .invalidArgument message => message
  | failure => env.libraryMessage failure

section Uploads

variable [JsonText] (env : Surroundings)

/-- `record_upload_failure_or_throw` -/
def recordUploadFailureOrThrow (config : RuntimeConfig) (outputPaths : OutputPaths)
    (uploadError : ByteString) : Action Unit :=
  catchFailure (recordArtifactUploadFailure config outputPaths uploadError) fun stateFailure =>
    throwFailure (.runtimeError (uploadError ++
      "; additionally failed to update state.json with the upload failure: " ++
      env.what stateFailure))

/-- Send the artifacts; a failure is recorded in the manifest and thrown on. -/
def sendOrRecordFailure (config : RuntimeConfig) (outputPaths : OutputPaths) :
    Action ArtifactSendResult :=
  catchFailure (sendArtifactsToDestination env.network config outputPaths) fun failure => do
    recordUploadFailureOrThrow env config outputPaths (env.what failure)
    throwFailure failure

def uploadAndArchive (config : RuntimeConfig) (outputPaths : OutputPaths) :
    Action OutputPaths := do
  let _ ← sendOrRecordFailure env config outputPaths
  archiveArtifactSession env.currentDir config outputPaths

omit [JsonText] in
/-- `upload_config`: the ids of the session, as far as they are known. -/
def uploadConfig (config : RuntimeConfig) (session : PendingArtifactSession) : RuntimeConfig :=
  { config with
    runId := if session.runId.isEmpty then config.runId else session.runId
    sessionId := if session.sessionId.isEmpty then
      session.outputPaths.artifactDir.filename.bytes else session.sessionId }

/-- The loop over the pending sessions. -/
def retrySessions (config : RuntimeConfig) (uploadedAny : Bool) :
    List PendingArtifactSession → Action Bool
  | [] => pure uploadedAny
  | session :: rest => do
      if session.state ≠ .readyToUpload then retrySessions config uploadedAny rest
      else if config.destinationUrl.isEmpty then retrySessions config uploadedAny rest
      else
        let _ ← uploadAndArchive env (uploadConfig config session) session.outputPaths
        retrySessions config true rest

/-- `retry_pending_artifact_uploads` -/
def retryPendingArtifactUploads (config : RuntimeConfig) : Action Bool := do
  let sessions ← findPendingArtifactSessions env.currentDir config.artifactsDir
  retrySessions env config false sessions

/-- The end of `main`: the exit code of the upload of the session itself. -/
def uploadSession (config : RuntimeConfig) (outputPaths : OutputPaths) : Action Int :=
  if config.destinationUrl.isEmpty then pure 0
  else
    catchFailure
      (do
        let _ ← uploadAndArchive env config outputPaths
        pure 0)
      fun _ => pure 3

end Uploads

end BtClient
