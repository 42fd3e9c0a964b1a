import BtClient.CompleteArtifacts
import BtClient.Main
import BtClient.ReadBack

/-!
# Faults that are noticed

In a world in which every write that loses bytes is told so, this stays so through every
operation of the program up to the summary of its session: operations use up faults and make
none.
-/

namespace BtClient

open Effect FileSystem

section FileOperations

theorem keepsNotices_append (l : Location) (data : ByteString) : KeepsNotices (append l data) :=
  Keeps.bind keepsNotices_tree fun _ => keepsNotices_setTree _

theorem keepsNotices_writeBuffered (l : Location) (data : ByteString) :
    KeepsNotices (writeBuffered l data) := by
  apply Keeps.bind keepsNotices_nextFault
  intro fault
  cases fault with
  | none => exact (keepsNotices_append _ _).bind fun _ => Keeps.pure _
  | reported reached => exact (keepsNotices_append _ _).bind fun _ => Keeps.pure _
  | unnoticed reached => exact (keepsNotices_append _ _).bind fun _ => Keeps.pure _
  | crash reached => exact (keepsNotices_append _ _).bind fun _ => Keeps.throw _

theorem keepsNotices_writeFlushed (l : Location) (data : ByteString) :
    KeepsNotices (writeFlushed l data) := by
  apply Keeps.bind keepsNotices_nextFault
  intro fault
  cases fault with
  | none => exact (keepsNotices_append _ _).bind fun _ => Keeps.pure _
  | reported reached => exact (keepsNotices_append _ _).bind fun _ => Keeps.pure _
  | unnoticed reached => exact (keepsNotices_append _ _).bind fun _ => Keeps.pure _
  | crash reached => exact (keepsNotices_append _ _).bind fun _ => Keeps.throw _

theorem keepsNotices_closeStream : KeepsNotices closeStream := by
  apply Keeps.bind keepsNotices_nextFault
  intro fault
  cases fault with
  | none => exact Keeps.pure _
  | reported reached => exact Keeps.pure _
  | unnoticed reached => exact Keeps.pure _
  | crash reached => exact Keeps.throw _

theorem keepsNotices_isDirectory (p : Path) : KeepsNotices (isDirectory p) :=
  Keeps.bind keepsNotices_checkpoint fun _ =>
    Keeps.bind keepsNotices_tree fun _ => Keeps.pure _

theorem keepsNotices_isEmptyDirectory (p : Path) : KeepsNotices (isEmptyDirectory p) := by
  apply Keeps.bind keepsNotices_checkpoint
  intro _
  apply Keeps.bind keepsNotices_tree
  intro t
  split
  · exact Keeps.pure _
  · exact Keeps.throw _

theorem keepsNotices_directoryEntries (p : Path) : KeepsNotices (directoryEntries p) := by
  apply Keeps.bind keepsNotices_checkpoint
  intro _
  apply Keeps.bind keepsNotices_tree
  intro t
  split
  · split
    · exact Keeps.pure _
    · exact Keeps.throw _
  · exact Keeps.throw _

theorem keepsNotices_rename (source destination : Path) :
    KeepsNotices (rename source destination) := by
  apply Keeps.bind keepsNotices_checkpoint
  intro _
  apply Keeps.bind keepsNotices_tree
  intro t
  split
  · exact Keeps.throw _
  · split
    · split
      · exact keepsNotices_setTree _
      · exact Keeps.throw _
    · exact Keeps.throw _

theorem keepsNotices_absolutePath (currentDir : CurrentDir) (p : Path) :
    KeepsNotices (absolutePath currentDir p) := by
  unfold absolutePath
  split
  · exact Keeps.pure _
  · exact Keeps.throw _

end FileOperations

section Preparation

variable (currentDir : CurrentDir)

theorem keepsNotices_outputPath (override : Option Path) (usual : Path) :
    KeepsNotices (outputPath currentDir override usual) := by
  cases override with
  | none => exact Keeps.pure _
  | some path => exact keepsNotices_absolutePath currentDir path

theorem keepsNotices_requireNewSession (artifactDir archiveDir : Path) :
    KeepsNotices (requireNewSession artifactDir archiveDir) := by
  apply Keeps.bind (keepsNotices_pathExists _)
  intro archived
  split
  · exact Keeps.throw _
  · apply Keeps.bind (keepsNotices_pathExists _)
    intro found
    split
    · apply Keeps.bind (keepsNotices_isDirectory _)
      intro isDir
      split
      · exact Keeps.throw _
      · apply Keeps.bind (keepsNotices_isEmptyDirectory _)
        intro isEmpty
        split
        · exact Keeps.throw _
        · exact Keeps.pure _
    · exact Keeps.pure _

theorem keepsNotices_prepareOutputPaths (config : RuntimeConfig)
    (eventLogOverride summaryJsonOverride : Option Path) :
    KeepsNotices (prepareOutputPaths currentDir config eventLogOverride summaryJsonOverride) := by
  rw [prepareOutputPaths_eq]
  apply Keeps.bind (keepsNotices_absolutePath currentDir _)
  intro artifactDir
  apply Keeps.bind (keepsNotices_absolutePath currentDir _)
  intro archiveDir
  apply Keeps.bind (keepsNotices_requireNewSession _ _)
  intro _
  apply Keeps.bind (keepsNotices_createDirectories _)
  intro _
  apply Keeps.bind (keepsNotices_outputPath currentDir _ _)
  intro eventLogPath
  apply Keeps.bind (keepsNotices_outputPath currentDir _ _)
  intro summaryJsonPath
  apply Keeps.bind (keepsNotices_ensureParentDirectory _)
  intro _
  apply Keeps.bind (keepsNotices_ensureParentDirectory _)
  exact fun _ => Keeps.pure _

end Preparation

section Manifests

variable [JsonText]

theorem keepsNotices_rewriteState (config : RuntimeConfig) (outputPaths : OutputPaths)
    (state : ArtifactState) (amend : TimestampPair → Json.Members → Json.Members) :
    KeepsNotices (rewriteState config outputPaths state amend) := by
  rw [rewriteState_eq]
  apply Keeps.bind (keepsNotices_openManifest config outputPaths state amend)
  rintro ⟨value, opened⟩
  cases opened with
  | none => exact Keeps.throw _
  | some l =>
      have hdump : KeepsNotices (dumpIndented value) := by
        unfold dumpIndented
        split
        · exact Keeps.pure _
        · exact Keeps.throw _
      apply Keeps.bind hdump
      intro text
      apply Keeps.bind (keepsNotices_writeBuffered l _)
      intro good
      split
      · exact Keeps.pure _
      · exact Keeps.throw _

theorem keepsNotices_writeEventLines (events : List Json) (stream : EventStream) :
    KeepsNotices (writeEventLines stream events) := by
  induction events generalizing stream with
  | nil => exact Keeps.pure _
  | cons event rest ih =>
      have hdump : KeepsNotices (dump event) := by
        unfold dump
        split
        · exact Keeps.pure _
        · exact Keeps.throw _
      have hline : KeepsNotices (writeEventLine stream event) := by
        apply Keeps.bind hdump
        intro text
        split
        · exact (keepsNotices_writeFlushed _ _).bind fun _ => Keeps.pure _
        · exact Keeps.pure _
      exact hline.bind ih

theorem keepsNotices_openSummary (config : RuntimeConfig) (outputPaths : OutputPaths)
    (events : List Json) : KeepsNotices (openSummary config outputPaths events) := by
  apply Keeps.bind (keepsNotices_rewriteState config outputPaths .capturing _)
  intro _
  apply Keeps.bind
  · apply Keeps.bind (keepsNotices_openTruncated _)
    intro opened
    split
    · exact Keeps.pure _
    · exact Keeps.throw _
  · intro stream
    apply Keeps.bind (keepsNotices_writeEventLines events stream)
    intro stream
    apply Keeps.bind
    · apply Keeps.bind keepsNotices_closeStream
      intro closed
      split
      · exact Keeps.pure _
      · exact Keeps.throw _
    · exact fun _ => keepsNotices_openTruncated _

end Manifests

section Uploads

variable [JsonText]

omit [JsonText] in
theorem keepsNotices_pathFromStateFile (currentDir : CurrentDir) (state : Json)
    (sessionDir : Path) (key : String) (fallback : Path) :
    KeepsNotices (pathFromStateFile currentDir state sessionDir key fallback) := by
  unfold pathFromStateFile
  split
  · dsimp only
    split
    · exact Keeps.pure _
    · exact keepsNotices_absolutePath currentDir _
  · exact Keeps.pure _

theorem keepsNotices_pendingSession (currentDir : CurrentDir) (entryPath : Path) :
    KeepsNotices (pendingSession currentDir entryPath) := by
  apply Keeps.bind ((keepsNotices_absolutePath currentDir _).bind fun _ => Keeps.pure _)
  intro paths
  apply Keeps.bind (keepsNotices_pathExists _)
  intro hasStateFile
  dsimp only
  split
  · apply Keeps.catchFailure
    · apply Keeps.bind (keepsNotices_readJsonFile _)
      intro stateJson
      apply Keeps.bind (keepsNotices_pathFromStateFile currentDir _ _ _ _)
      intro stateJsonPath
      apply Keeps.bind (keepsNotices_pathFromStateFile currentDir _ _ _ _)
      intro eventLogPath
      apply Keeps.bind (keepsNotices_pathFromStateFile currentDir _ _ _ _)
      exact fun summaryJsonPath => Keeps.pure _
    · exact fun _ => Keeps.pure _
  · exact Keeps.pure _

theorem keepsNotices_findPendingArtifactSessions (currentDir : CurrentDir) (artifactsDir : Path) :
    KeepsNotices (findPendingArtifactSessions currentDir artifactsDir) := by
  have hsessions : ∀ (pendingDir : Path) (entries : List (ByteString × Bool)),
      KeepsNotices (pendingSessions currentDir pendingDir entries) := by
    intro pendingDir entries
    induction entries with
    | nil => exact Keeps.pure _
    | cons entry rest ih =>
        obtain ⟨name, isDirectory⟩ := entry
        rw [pendingSessions]
        split
        · apply Keeps.bind (keepsNotices_pendingSession currentDir _)
          exact fun session => ih.bind fun _ => Keeps.pure _
        · exact ih
  apply Keeps.bind (keepsNotices_absolutePath currentDir _)
  intro pendingDir
  apply Keeps.bind (keepsNotices_pathExists _)
  intro found
  split
  · apply Keeps.bind (keepsNotices_directoryEntries _)
    exact fun entries => (hsessions pendingDir entries).bind fun _ => Keeps.pure _
  · exact Keeps.pure _

omit [JsonText] in
theorem keepsNotices_sendArtifactsToDestination (network : Network) (config : RuntimeConfig)
    (outputPaths : OutputPaths) :
    KeepsNotices (sendArtifactsToDestination network config outputPaths) := by
  have hexists : ∀ (path : Path) (label : ByteString),
      KeepsNotices (ensureUploadFileExists path label) := by
    intro path label
    apply Keeps.bind (keepsNotices_pathExists path)
    intro found
    split
    · exact Keeps.pure _
    · exact Keeps.throw _
  have hvalidate : KeepsNotices (validateDestinationUrl config.destinationUrl) := by
    unfold validateDestinationUrl
    split
    · exact Keeps.throw _
    · split
      · exact Keeps.throw _
      · exact Keeps.pure _
  apply Keeps.bind hvalidate
  intro _
  apply Keeps.bind (hexists _ _)
  intro _
  apply Keeps.bind (hexists _ _)
  intro _
  apply Keeps.bind (hexists _ _)
  intro _
  split
  · exact Keeps.throw _
  · dsimp only
    split
    · exact Keeps.throw _
    · exact Keeps.pure _

theorem keepsNotices_uploadAndArchive (env : Surroundings) (config : RuntimeConfig)
    (outputPaths : OutputPaths) : KeepsNotices (uploadAndArchive env config outputPaths) := by
  have hsend : KeepsNotices (sendOrRecordFailure env config outputPaths) := by
    apply Keeps.catchFailure (keepsNotices_sendArtifactsToDestination _ _ _)
    intro failure
    apply Keeps.bind
    · apply Keeps.catchFailure (keepsNotices_rewriteState config outputPaths .readyToUpload _)
      exact fun _ => Keeps.throw _
    · exact fun _ => Keeps.throw _
  have hmove : KeepsNotices (moveToArchive env.currentDir config outputPaths) := by
    apply Keeps.bind (keepsNotices_absolutePath _ _)
    intro archiveRoot
    apply Keeps.bind (keepsNotices_pathExists _)
    intro found
    split
    · exact Keeps.throw _
    · apply Keeps.bind (keepsNotices_createDirectories _)
      intro _
      apply Keeps.bind (keepsNotices_rename _ _)
      exact fun _ => (keepsNotices_absolutePath _ _).bind fun _ => Keeps.pure _
  apply Keeps.bind hsend
  intro _
  rw [archiveArtifactSession_eq]
  apply Keeps.bind hmove
  intro archived
  exact (keepsNotices_rewriteState config archived .archived _).bind fun _ => Keeps.pure _

theorem keepsNotices_retryPendingArtifactUploads (env : Surroundings) (config : RuntimeConfig) :
    KeepsNotices (retryPendingArtifactUploads env config) := by
  apply Keeps.bind (keepsNotices_findPendingArtifactSessions _ _)
  intro sessions
  have hloop : ∀ uploadedAny, KeepsNotices (retrySessions env config uploadedAny sessions) := by
    induction sessions with
    | nil => exact fun _ => Keeps.pure _
    | cons session rest ih =>
        intro uploadedAny
        rw [retrySessions]
        split
        · exact ih uploadedAny
        · split
          · exact ih uploadedAny
          · exact (keepsNotices_uploadAndArchive env _ _).bind fun _ => ih true
  exact hloop false

end Uploads

end BtClient
