import BtClient.Main
import BtClient.SettledTrees

/-!
# What the steps of the program keep

A property of the tree that new directories keep, and writing to the files of a session, is kept
by the preparation of the session, by its capture, by its upload and by the retries.
-/

namespace BtClient

open Effect FileSystem

section Steps

variable {I : Tree → Prop} {config : RuntimeConfig} {outputPaths : OutputPaths}
  {currentDir : CurrentDir}

/-- `prepare_output_paths` makes directories only. -/
theorem keeps_prepareOutputPaths (hcreate : ∀ p, Keeps (OnTree I) (createDirectories p))
    (eventLogOverride summaryJsonOverride : Option Path) :
    Keeps (OnTree I)
      (prepareOutputPaths currentDir config eventLogOverride summaryJsonOverride) := by
  have hpath : ∀ (override : Option Path) (usual : Path),
      ReadsOnly (outputPath currentDir override usual) := by
    intro override usual
    cases override with
    | none => exact ReadsOnly.pure _
    | some path => exact readsOnly_absolutePath currentDir path
  rw [prepareOutputPaths_eq]
  apply Keeps.bind ((readsOnly_absolutePath currentDir _).keeps _)
  intro artifactDir
  apply Keeps.bind ((readsOnly_absolutePath currentDir _).keeps _)
  intro archiveDir
  apply Keeps.bind ((readsOnly_requireNewSession _ _).keeps _)
  intro _
  apply Keeps.bind (hcreate _)
  intro _
  apply Keeps.bind ((hpath _ _).keeps _)
  intro eventLogPath
  apply Keeps.bind ((hpath _ _).keeps _)
  intro summaryJsonPath
  apply Keeps.bind (keeps_ensureParentDirectory hcreate _)
  intro _
  apply Keeps.bind (keeps_ensureParentDirectory hcreate _)
  exact fun _ => Keeps.pure _

theorem readsOnly_sendArtifactsToDestination (network : Network) :
    ReadsOnly (sendArtifactsToDestination network config outputPaths) := by
  have hfile : ∀ (path : Path) (label : ByteString),
      ReadsOnly (ensureUploadFileExists path label) := by
    intro path label
    apply ReadsOnly.bind (readsOnly_pathExists path)
    intro found
    split
    · exact ReadsOnly.pure _
    · exact ReadsOnly.throwFailure _
  have hvalid : ReadsOnly (validateDestinationUrl config.destinationUrl) := by
    unfold validateDestinationUrl
    split
    · exact ReadsOnly.throwFailure _
    · split
      · exact ReadsOnly.throwFailure _
      · exact ReadsOnly.pure _
  apply ReadsOnly.bind hvalid
  intro _
  apply ReadsOnly.bind (hfile _ _)
  intro _
  apply ReadsOnly.bind (hfile _ _)
  intro _
  apply ReadsOnly.bind (hfile _ _)
  intro _
  split
  · exact ReadsOnly.throwFailure _
  · dsimp only
    split
    · exact ReadsOnly.throwFailure _
    · exact ReadsOnly.pure _

variable [JsonText]

/-- The capture of a session keeps what writing to its three files keeps. -/
theorem keeps_captureOutcome
    (hwrite : ∀ state, Keeps (OnTree I) (writeArtifactState config outputPaths state))
    (heventLog : Ignores outputPaths.eventLogPath.locate I)
    (hsummary : Ignores outputPaths.summaryJsonPath.locate I) (outcome : SessionOutcome) :
    Keeps (OnTree I) (captureOutcome config outputPaths outcome) := by
  apply Keeps.bind (hwrite .capturing)
  intro _
  refine Triple.bind (triple_openEventLog heventLog) fun stream => ?_
  apply Triple.of_pre
  intro hlocation
  obtain ⟨l, good⟩ := stream
  obtain rfl : l = outputPaths.eventLogPath.locate := hlocation
  apply Keeps.bind (keeps_writeEventLines heventLog outcome.events good)
  intro stream
  split
  · exact Keeps.throw _
  · apply Keeps.bind ((readsOnly_closeEventLog stream).keeps _)
    intro _
    apply Keeps.bind (keeps_writeSessionSummary hsummary _)
    exact fun _ => hwrite .readyToUpload

variable (env : Surroundings)

/-- An upload that fails is recorded in the manifest. -/
theorem keeps_sendOrRecordFailure
    (hrecord : ∀ message, Keeps (OnTree I)
      (recordArtifactUploadFailure config outputPaths message)) :
    Keeps (OnTree I) (sendOrRecordFailure env config outputPaths) := by
  apply Keeps.catchFailure ((readsOnly_sendArtifactsToDestination env.network).keeps _)
  intro failure
  apply Keeps.bind (Keeps.catchFailure (hrecord _) fun _ => Keeps.throw _)
  exact fun _ => Keeps.throw _

theorem keeps_uploadSession
    (hupload : Keeps (OnTree I) (uploadAndArchive env config outputPaths)) :
    Keeps (OnTree I) (uploadSession env config outputPaths) := by
  unfold uploadSession
  split
  · exact Keeps.pure _
  · apply Keeps.catchFailure
    · exact hupload.bind fun _ => Keeps.pure _
    · exact fun _ => Keeps.pure _

/-- The retries keep what the upload of each session keeps that is ready. -/
theorem keeps_retrySessions (sessions : List PendingArtifactSession)
    (hupload : ∀ session ∈ sessions, session.state = .readyToUpload →
      config.destinationUrl.isEmpty = false → Keeps (OnTree I)
        (uploadAndArchive env (uploadConfig config session) session.outputPaths))
    (uploadedAny : Bool) : Keeps (OnTree I) (retrySessions env config uploadedAny sessions) := by
  induction sessions generalizing uploadedAny with
  | nil => exact Keeps.pure _
  | cons session rest ih =>
      rw [List.forall_mem_cons] at hupload
      rw [retrySessions]
      split
      · exact ih hupload.2 uploadedAny
      · next hready =>
          split
          · exact ih hupload.2 uploadedAny
          · next hurl =>
              exact (hupload.1 (not_not.mp hready) (Bool.not_eq_true _ ▸ hurl)).bind fun _ =>
                ih hupload.2 true

end Steps

end BtClient
