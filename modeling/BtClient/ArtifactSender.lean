import BtClient.ArtifactLifecycle

/-!
# Sending the artifacts of a session

`artifact_sender.cpp` up to the point where libcurl takes over. What libcurl and the
destination make of an upload is an arbitrary function of what they are given.
-/

namespace BtClient

/-- The end of an upload: a call of libcurl failed, with the text that the client puts
into its exception, or the destination answered. -/
inductive Reply where
  | curlFailed (message : ByteString)
  | answered (responseCode : Int) (statusLine responseBody : ByteString)

structure ArtifactSendResult where
  statusCode : Int := 0
  statusText : ByteString := []
  responseBody : ByteString := []

/-- `starts_with` -/
def startsWith (value text : ByteString) : Bool := text.isPrefixOf value

/-- `validate_destination_url` -/
def validateDestinationUrl (url : ByteString) : Action Unit :=
  if url.isEmpty then throwFailure (.invalidArgument "destination URL is empty")
  else if !startsWith url "http://" && !startsWith url "https://" then
    throwFailure (.invalidArgument "destination URL must start with http:// or https://")
  else pure ()

/-- `ensure_upload_file_exists` -/
def ensureUploadFileExists (path : Path) (label : ByteString) : Action Unit := do
  if ← FileSystem.pathExists path then pure ()
  else throwFailure (.runtimeError
    ("cannot upload " ++ label ++ "; file does not exist: " ++ path.bytes))

/-- A part of the form that carries a file. -/
structure FilePart where
  fieldName : String
  path : Path
  filename : Path
  contentType : String
  deriving DecidableEq

/-- The form of an upload. The texts come from the command line and have no byte zero in
them, so that `c_str` is the whole text. -/
structure ArtifactForm where
  fields : List (String × ByteString)
  files : List FilePart
  deriving DecidableEq

/-- `add_artifact_form_fields` -/
def artifactFormFields (config : RuntimeConfig) (outputPaths : OutputPaths) :
    List (String × ByteString) :=
  [("run_id", config.runId),
    ("session_id", config.sessionId),
    ("node_role", config.nodeRole),
    ("client_version", clientVersion),
    ("state_json_path", outputPaths.stateJsonPath.bytes),
    ("event_log_path", outputPaths.eventLogPath.bytes),
    ("summary_json_path", outputPaths.summaryJsonPath.bytes)]

/-- `add_file_part` -/
def filePart (fieldName : String) (path : Path) (contentType : String) : FilePart :=
  ⟨fieldName, path, path.filename, contentType⟩

/-- `add_artifact_files` -/
def artifactFiles (outputPaths : OutputPaths) : List FilePart :=
  [filePart "state_json" outputPaths.stateJsonPath "application/json",
    filePart "event_log" outputPaths.eventLogPath "application/x-ndjson",
    filePart "summary_json" outputPaths.summaryJsonPath "application/json"]

/-- The form that `perform_upload` puts together. -/
def artifactForm (config : RuntimeConfig) (outputPaths : OutputPaths) : ArtifactForm where
  fields := artifactFormFields config outputPaths
  files := artifactFiles outputPaths

/-- The network, as seen by the client: the reply to a form that is sent to a URL. -/
abbrev Network := ByteString → ArtifactForm → Reply

/-- `trim_http_line` -/
def trimHttpLine (line : ByteString) : ByteString :=
  (line.reverse.dropWhile fun c => c = 13 || c = 10).reverse

/-- The text of the status, as `perform_upload` puts it together. -/
def statusText (responseCode : Int) (statusLine : ByteString) : ByteString :=
  let line := trimHttpLine statusLine
  if line.isEmpty then "HTTP status " ++ ByteString.ofString (toString responseCode) else line

/-- `perform_upload`; the part that reads the files and talks to the destination is the
network. -/
def performUpload (network : Network) (config : RuntimeConfig) (outputPaths : OutputPaths) :
    Action ArtifactSendResult := do
  ensureUploadFileExists outputPaths.stateJsonPath "state JSON"
  ensureUploadFileExists outputPaths.eventLogPath "event log"
  ensureUploadFileExists outputPaths.summaryJsonPath "summary JSON"
  match network config.destinationUrl (artifactForm config outputPaths) with
  | .curlFailed message => throwFailure (.runtimeError message)
  | .answered responseCode statusLine responseBody =>
      let text := statusText responseCode statusLine
      if responseCode < 200 ∨ 300 ≤ responseCode then
        throwFailure (.runtimeError
          ("destination rejected artifacts with status: " ++ text))
      else pure ⟨responseCode, text, responseBody⟩

/-- `send_artifacts_to_destination` -/
def sendArtifactsToDestination (network : Network) (config : RuntimeConfig)
    (outputPaths : OutputPaths) : Action ArtifactSendResult := do
  validateDestinationUrl config.destinationUrl
  performUpload network config outputPaths

end BtClient
