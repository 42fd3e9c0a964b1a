import BtClient.CaptureRules
import BtClient.Discovery
import BtClient.JsonSyntax
import BtClient.PeerText
import BtClient.QuietWorlds
import BtClient.RetryUploads

/-!
# The form of a retried upload

The form of an upload is put together from a configuration and the paths of the session.
At the end of a capture these are its own; a later process takes them from the manifest,
merged with its own configuration. The manifest keeps what the form says about the
session, apart from the node role, which it does not have.
-/

namespace BtClient

open Effect FileSystem

section RetriedForm

variable [JsonText]

/-- The three paths of the files of a session agree. -/
structure SameFiles (outputPaths outputPaths' : OutputPaths) : Prop where
  stateJsonPath : outputPaths'.stateJsonPath = outputPaths.stateJsonPath
  eventLogPath : outputPaths'.eventLogPath = outputPaths.eventLogPath
  summaryJsonPath : outputPaths'.summaryJsonPath = outputPaths.summaryJsonPath

/-- The value says which session it describes, and where its files are. -/
structure NamesSession (config : RuntimeConfig) (outputPaths : OutputPaths) (value : Json) :
    Prop where
  runId : value.find "run_id" = some (.string config.runId)
  sessionId : value.find "session_id" = some (.string config.sessionId)
  files : value.find "files" = some (filesMember outputPaths)

/-- Whatever manifest is read at `l` describes the session. -/
def NamesSessionAt (config : RuntimeConfig) (outputPaths : OutputPaths) (l : Location)
    (t : Tree) : Prop :=
  ∀ content value, t.get? l = some (.file content) → JsonText.parse content = some value →
    NamesSession config outputPaths value

/-- A way to amend a manifest that only concerns its history. -/
structure IsHistoric (amend : TimestampPair → Json.Members → Json.Members) : Prop where
  lookup : ∀ now members, ∀ k ∉ historyKeys, (amend now members).lookup k = members.lookup k
  isPlain : ∀ now members, (Json.object members).isPlain JsonText.isDouble = true →
    (Json.object (amend now members)).isPlain JsonText.isDouble = true

theorem isHistoric_id : IsHistoric fun _ stateJson => stateJson where
  lookup _ _ _ _ := rfl
  isPlain _ _ h := h

theorem isHistoric_withUploadFailure (config : RuntimeConfig) (errorMessage : ByteString) :
    IsHistoric fun now stateJson =>
      withUploadFailure (uploadFailure config errorMessage now) now stateJson where
  lookup _ _ _ hk := lookup_withUploadFailure hk
  isPlain _ _ h := isPlain_withUploadFailure h (isPlain_uploadFailure _ _ _)

variable {config config' : RuntimeConfig} {outputPaths outputPaths' : OutputPaths}
  {state : ArtifactState} {amend : TimestampPair → Json.Members → Json.Members}
  {t t' : Tree} {members : Json.Members}

theorem isPlain_of_isAmended (hamend : IsHistoric amend)
    (h : IsAmended t config outputPaths state amend members) :
    (Json.object members).isPlain JsonText.isDouble = true := by
  obtain ⟨previous, createdUtc, now, hprevious, rfl⟩ := h
  exact hamend.isPlain _ _ (isPlain_manifest _ _ _ _ _ hprevious.isPlain)

theorem namesSession_of_isAmended (hamend : IsHistoric amend)
    (hrunId : config'.runId = config.runId) (hsessionId : config'.sessionId = config.sessionId)
    (hfiles : SameFiles outputPaths outputPaths')
    (h : IsAmended t config' outputPaths' state amend members) :
    NamesSession config outputPaths (.object members) := by
  obtain ⟨previous, createdUtc, now, -, rfl⟩ := h
  constructor
  · rw [Json.find, hamend.lookup _ _ _ (by decide), lookup_manifest (by decide),
      lookup_manifestMembers, ← hrunId]
    rfl
  · rw [Json.find, hamend.lookup _ _ _ (by decide), lookup_manifest (by decide),
      lookup_manifestMembers, ← hsessionId]
    rfl
  · rw [Json.find, hamend.lookup _ _ _ (by decide), manifest_files, filesMember, filesMember,
      hfiles.stateJsonPath, hfiles.eventLogPath, hfiles.summaryJsonPath]

/-- What has arrived of a manifest of the session describes the session. -/
theorem namesSessionAt_of_overwritten (hamend : IsHistoric amend)
    (hrunId : config'.runId = config.runId) (hsessionId : config'.sessionId = config.sessionId)
    (hfiles : SameFiles outputPaths outputPaths')
    (h : IsAmended t config' outputPaths' state amend members)
    (hover : Overwritten outputPaths'.stateJsonPath.locate (manifestText (.object members)) t t') :
    NamesSessionAt config outputPaths outputPaths.stateJsonPath.locate t' := by
  intro content value hget hvalue
  obtain ⟨text, htext, hhere⟩ := hover.here
  rw [hfiles.stateJsonPath, hget] at hhere
  cases hhere
  obtain ⟨rfl, -⟩ := eq_of_parse_manifestText (isPlain_of_isAmended hamend h) htext hvalue
  exact namesSession_of_isAmended hamend hrunId hsessionId hfiles h

/-- Writing a manifest of the session keeps this, however it ends. -/
theorem keeps_namesSessionAt (state : ArtifactState) (hamend : IsHistoric amend)
    (hrunId : config'.runId = config.runId) (hsessionId : config'.sessionId = config.sessionId)
    (hfiles : SameFiles outputPaths outputPaths') :
    Keeps (OnTree (NamesSessionAt config outputPaths outputPaths.stateJsonPath.locate))
      (rewriteState config' outputPaths' state amend) := by
  apply triple_onTree
  intro t hnames
  refine (triple_rewriteState t config' outputPaths' state amend).conseq (fun _ h => h) ?_ ?_
  · rintro _ w ⟨members, hamended, -, -, hover⟩
    exact namesSessionAt_of_overwritten hamend hrunId hsessionId hfiles hamended hover
  · rintro _ w (hext | ⟨members, hamended, hover⟩)
    · intro content value hget hvalue
      exact hnames content value (hext.get?_eq_file.mp hget) hvalue
    · exact namesSessionAt_of_overwritten hamend hrunId hsessionId hfiles hamended hover

/-- A process looks for pending sessions in the tree, and the session with these paths is
among those that it finds ready. -/
def FindsReady (currentDir : CurrentDir) (artifactsDir : Path) (outputPaths : OutputPaths)
    (t : Tree) (session : PendingArtifactSession) : Prop :=
  ∃ w sessions w', w.tree = t ∧
    findPendingArtifactSessions currentDir artifactsDir w = (.ok sessions, w') ∧
      session ∈ sessions ∧ session.state = .readyToUpload ∧
        session.outputPaths.artifactDir.locate = outputPaths.artifactDir.locate

/-- The trees in which a captured session may be pending: uploads of it have failed, in
its own process and in later ones, and elsewhere anything has changed. -/
inductive LeftPending (currentDir : CurrentDir) (config : RuntimeConfig)
    (outputPaths : OutputPaths) : Tree → Prop
  | captured {w w' : World} (eventLogOverride summaryJsonOverride : Option Path)
      (events : List Json) (summary : Json)
      (h : captureSession currentDir config eventLogOverride summaryJsonOverride events summary w =
        (.ok outputPaths, w')) : LeftPending currentDir config outputPaths w'.tree
  | immediateFailed {w w' : World} {r : Except Stop Unit} (errorMessage : ByteString)
      (h : LeftPending currentDir config outputPaths w.tree)
      (hrecord : recordArtifactUploadFailure config outputPaths errorMessage w = (r, w')) :
      LeftPending currentDir config outputPaths w'.tree
  | retryFailed {w w' : World} {r : Except Stop Unit} (laterDir : CurrentDir)
      (later : RuntimeConfig) (session : PendingArtifactSession) (errorMessage : ByteString)
      (h : LeftPending currentDir config outputPaths w.tree)
      (hsession : FindsReady laterDir later.artifactsDir outputPaths w.tree session)
      (hrecord : recordArtifactUploadFailure (uploadConfig later session) session.outputPaths
        errorMessage w = (r, w')) : LeftPending currentDir config outputPaths w'.tree
  | elsewhere {t t' : Tree} (h : LeftPending currentDir config outputPaths t)
      (hl : t'.get? outputPaths.stateJsonPath.locate = t.get? outputPaths.stateJsonPath.locate) :
      LeftPending currentDir config outputPaths t'

/-- The configuration names its run and its session, as `main` makes sure before it
captures. -/
structure RuntimeConfig.HasIds (config : RuntimeConfig) : Prop where
  runId : config.runId ≠ []
  sessionId : config.sessionId ≠ []

/-- The paths are absolute, and the manifest is where it usually is. -/
structure OutputPaths.IsUsual (outputPaths : OutputPaths) : Prop where
  stateJsonPath : outputPaths.stateJsonPath = outputPaths.artifactDir / "state.json"
  artifactDir_isAbsolute : outputPaths.artifactDir.isAbsolute = true
  eventLogPath_isAbsolute : outputPaths.eventLogPath.isAbsolute = true
  summaryJsonPath_isAbsolute : outputPaths.summaryJsonPath.isAbsolute = true

omit [JsonText] in
theorem isUsual_of_isPrepared {currentDir : CurrentDir} {ev su : Option Path}
    (h : IsPrepared currentDir config ev su outputPaths) : outputPaths.IsUsual := by
  have hdir := Path.isAbsolute_of_absolute currentDir.2 h.artifactDir
  exact ⟨h.stateJsonPath, hdir, h.eventLogPath.isAbsolute (Path.isAbsolute_join hdir),
    h.summaryJsonPath.isAbsolute (Path.isAbsolute_join hdir)⟩

omit [JsonText] in
theorem pathFromStateFile_of_files {currentDir : CurrentDir} {value : Json}
    {sessionDir fallback p : Path} {key : String} {files : Json.Members}
    (hfiles : value.find "files" = some (.object files))
    (hkey : files.lookup key = some (.string p.bytes)) (hp : p.isAbsolute = true) :
    pathFromStateFile currentDir value sessionDir key fallback = pure p := by
  have hvalue : jsonStringOrEmpty (.object files) key = p.bytes := by
    rw [jsonStringOrEmpty, Json.find, hkey]
  have hne : p.bytes.isEmpty = false := by
    obtain ⟨bytes⟩ := p
    cases bytes with
    | nil => cases hp
    | cons c rest => rfl
  rw [pathFromStateFile, hfiles]
  dsimp only
  rw [hvalue, hne, if_neg Bool.false_ne_true, if_pos hp, absolutePath,
    Path.absolute_of_isAbsolute _ hp]

/-- A later process finds the session as it was captured. -/
theorem session_of_findsReady {currentDir : CurrentDir} {artifactsDir : Path}
    {session : PendingArtifactSession} (hids : config.HasIds) (husual : outputPaths.IsUsual)
    (hnames : NamesSessionAt config outputPaths outputPaths.stateJsonPath.locate t)
    (h : FindsReady currentDir artifactsDir outputPaths t session) :
    session.runId = config.runId ∧ session.sessionId = config.sessionId ∧
      SameFiles outputPaths session.outputPaths := by
  obtain ⟨w, sessions, w', rfl, hfind, hmem, hready, hplace⟩ := h
  obtain ⟨-, hall⟩ :=
    (triple_findPendingArtifactSessions currentDir w.tree artifactsDir).apply_ok rfl hfind
  obtain ⟨pendingDir, name, -, hdir, hfound⟩ := hall session hmem
  rcases hfound with hunknown | ⟨content, value, hget, hparse, hread⟩
  · rw [hready] at hunknown
    cases hunknown
  have hlocate : manifestLocation (pendingDir / (⟨name⟩ : Path)) =
      outputPaths.stateJsonPath.locate := by
    rw [husual.stateJsonPath, locate_stateJson, manifestLocation, manifestLocation, ← hdir,
      hplace]
  rw [hlocate] at hget
  have htells := hnames content value hget hparse
  have hfiles : value.find "files" = some (filesMember outputPaths) := htells.files
  have hrunId : jsonStringOrEmpty value "run_id" = config.runId := by
    rw [jsonStringOrEmpty, htells.runId]
  have hsessionId : jsonStringOrEmpty value "session_id" = config.sessionId := by
    rw [jsonStringOrEmpty, htells.sessionId]
  have hstate : outputPaths.stateJsonPath.isAbsolute = true := by
    rw [husual.stateJsonPath]
    exact Path.isAbsolute_join husual.artifactDir_isAbsolute
  refine ⟨hread.runId.trans hrunId, ?_, ?_, ?_, ?_⟩
  · rw [hread.sessionId, hsessionId, if_neg (by simp [hids.sessionId])]
  · exact pure_inj w (hread.stateJsonPath.symm.trans
      (pathFromStateFile_of_files hfiles (find_filesMember "state_json") hstate))
  · exact pure_inj w (hread.eventLogPath.symm.trans
      (pathFromStateFile_of_files hfiles (find_filesMember "event_log")
        husual.eventLogPath_isAbsolute))
  · exact pure_inj w (hread.summaryJsonPath.symm.trans
      (pathFromStateFile_of_files hfiles (find_filesMember "summary_json")
        husual.summaryJsonPath_isAbsolute))

/-- When a capture returns, the manifest describes the session. -/
theorem triple_captureInto (config : RuntimeConfig) (outputPaths : OutputPaths)
    (events : List Json) (summary : Json) :
    Triple (fun _ => True) (captureInto config outputPaths events summary)
      (fun _ => OnTree (NamesSessionAt config outputPaths outputPaths.stateJsonPath.locate))
      (fun _ _ => True) := by
  unfold captureInto
  refine Triple.bind (S := fun _ _ => True) Triple.trivial fun _ => ?_
  refine Triple.bind (S := fun _ _ => True) Triple.trivial fun stream => ?_
  refine Triple.bind (S := fun _ _ => True) Triple.trivial fun stream' => ?_
  refine Triple.bind (S := fun _ _ => True) Triple.trivial fun _ => ?_
  refine Triple.bind (S := fun _ _ => True) Triple.trivial fun _ => ?_
  intro w _
  refine ((triple_rewriteState w.tree config outputPaths .readyToUpload _).conseq
    (fun _ h => h) ?_ fun _ _ _ => True.intro) w rfl
  rintro _ w' ⟨members, hamended, -, -, hover⟩
  exact namesSessionAt_of_overwritten isHistoric_id rfl rfl ⟨rfl, rfl, rfl⟩ hamended hover

/-- However often an upload has failed, the manifest describes the session. -/
theorem namesSessionAt_of_leftPending {currentDir : CurrentDir} (hids : config.HasIds)
    (h : LeftPending currentDir config outputPaths t) :
    outputPaths.IsUsual ∧
      NamesSessionAt config outputPaths outputPaths.stateJsonPath.locate t := by
  induction h with
  | captured eventLogOverride summaryJsonOverride events summary h =>
      rename_i w w'
      obtain ⟨prepared, w₁, hprepare, hrest⟩ := of_bind_ok h
      obtain ⟨⟨⟩, w₂, hcapture, hpure⟩ := of_bind_ok hrest
      obtain ⟨rfl, rfl⟩ : prepared = outputPaths ∧ w₂ = w' := by
        cases hpure
        exact ⟨rfl, rfl⟩
      obtain ⟨hprepared, -⟩ := (triple_prepareOutputPaths w.tree currentDir config
        eventLogOverride summaryJsonOverride).apply_ok rfl hprepare
      exact ⟨isUsual_of_isPrepared hprepared,
        (triple_captureInto config prepared events summary).apply_ok True.intro hcapture⟩
  | immediateFailed errorMessage _ hrecord ih =>
      refine ⟨ih.1, ?_⟩
      have hkeeps := (keeps_namesSessionAt .readyToUpload
        (isHistoric_withUploadFailure config errorMessage) rfl rfl
        (⟨rfl, rfl, rfl⟩ : SameFiles outputPaths outputPaths)).final ih.2
      rwa [← recordArtifactUploadFailure, hrecord] at hkeeps
  | retryFailed laterDir later session errorMessage _ hsession hrecord ih =>
      refine ⟨ih.1, ?_⟩
      obtain ⟨hrunId, hsessionId, hfiles⟩ := session_of_findsReady hids ih.1 ih.2 hsession
      have hconfig : (uploadConfig later session).runId = config.runId ∧
          (uploadConfig later session).sessionId = config.sessionId := by
        simp [uploadConfig, hrunId, hsessionId, hids.runId, hids.sessionId]
      have hkeeps := (keeps_namesSessionAt .readyToUpload (isHistoric_withUploadFailure
        (uploadConfig later session) errorMessage) hconfig.1 hconfig.2 hfiles).final ih.2
      rwa [← recordArtifactUploadFailure, hrecord] at hkeeps
  | elsewhere _ hl ih =>
      refine ⟨ih.1, fun content value hget hvalue => ih.2 content value ?_ hvalue⟩
      rwa [← hl]

/-- The form tells of the session what the immediate upload would have told, and what the
events in its log tell. -/
structure DescribesSession (config : RuntimeConfig) (outputPaths : OutputPaths)
    (form : ArtifactForm) : Prop where
  immediate : form = artifactForm config outputPaths
  recorded : ∀ (writer : EventWriter) (ts : TimestampPair) (eventType : String) (payload : Json)
    (peerContext : Option EventPeerContext), writer.config = config →
      ∀ key ∈ ["run_id", "session_id", "node_role"],
        (writer.event ts eventType payload peerContext).find key =
          (form.fields.lookup key).map Json.string

omit [JsonText] in
theorem nodeRole_of_describesSession {later : RuntimeConfig} {session : PendingArtifactSession}
    (h : DescribesSession config outputPaths
      (artifactForm (uploadConfig later session) session.outputPaths)) :
    later.nodeRole = config.nodeRole := by
  have hfields := congrArg (fun form => form.fields.lookup "node_role") h.immediate
  exact Option.some.inj hfields

omit [JsonText] in
theorem recorded_artifactForm (config : RuntimeConfig) (outputPaths : OutputPaths)
    (writer : EventWriter) (ts : TimestampPair) (eventType : String) (payload : Json)
    (peerContext : Option EventPeerContext) (hwriter : writer.config = config) (key : String)
    (hkey : key ∈ ["run_id", "session_id", "node_role"]) :
    (writer.event ts eventType payload peerContext).find key =
      ((artifactForm config outputPaths).fields.lookup key).map Json.string := by
  obtain ⟨hrun, hsession, hrole, -⟩ := writer.find_event_envelope ts eventType payload peerContext
  subst hwriter
  simp only [List.mem_cons, List.not_mem_nil, or_false] at hkey
  rcases hkey with rfl | rfl | rfl
  · rw [hrun]
    rfl
  · rw [hsession]
    rfl
  · rw [hrole]
    rfl

/-- A retried upload tells of a pending session what the session has recorded exactly when
the later process runs with the node role of the capture. -/
theorem describesSession_iff {currentDir laterDir : CurrentDir} {later : RuntimeConfig}
    {session : PendingArtifactSession} (hids : config.HasIds)
    (hpending : LeftPending currentDir config outputPaths t)
    (hsession : FindsReady laterDir later.artifactsDir outputPaths t session) :
    DescribesSession config outputPaths
        (artifactForm (uploadConfig later session) session.outputPaths) ↔
      later.nodeRole = config.nodeRole := by
  obtain ⟨husual, hnames⟩ := namesSessionAt_of_leftPending hids hpending
  obtain ⟨hrunId, hsessionId, hfiles⟩ := session_of_findsReady hids husual hnames hsession
  constructor
  · exact nodeRole_of_describesSession
  · intro hrole
    have hform : artifactForm (uploadConfig later session) session.outputPaths =
        artifactForm config outputPaths := by
      have hfields : artifactFormFields (uploadConfig later session) session.outputPaths =
          artifactFormFields config outputPaths := by
        simp [artifactFormFields, uploadConfig, hrunId, hsessionId, hids.runId,
          hids.sessionId, hrole, hfiles.stateJsonPath, hfiles.eventLogPath,
          hfiles.summaryJsonPath]
      have hparts : artifactFiles session.outputPaths = artifactFiles outputPaths := by
        rw [artifactFiles, artifactFiles, hfiles.stateJsonPath, hfiles.eventLogPath,
          hfiles.summaryJsonPath]
      rw [artifactForm, artifactForm, hfields, hparts]
    rw [hform]
    exact ⟨rfl, recorded_artifactForm config outputPaths⟩

end RetriedForm

section Sample

/-- A capture by a victim. -/
def victimConfig : RuntimeConfig :=
  { artifactsDir := "/d", sessionId := "s", runId := "r", nodeRole := "victim" }

def victimCapture : Except Stop OutputPaths × World :=
  captureSession rootDir victimConfig none none [] .null
    (quietWorld .empty [⟨"t0", 0⟩, ⟨"t1", 1⟩])

theorem leftPending_of_captureSession [JsonText] {currentDir : CurrentDir}
    {config : RuntimeConfig} {outputPaths : OutputPaths}
    {eventLogOverride summaryJsonOverride : Option Path} {events : List Json} {summary : Json}
    {w : World} (h : (captureSession currentDir config eventLogOverride summaryJsonOverride events
      summary w).1 = .ok outputPaths) :
    LeftPending currentDir config outputPaths (captureSession currentDir config eventLogOverride
      summaryJsonOverride events summary w).2.tree :=
  LeftPending.captured eventLogOverride summaryJsonOverride events summary (Prod.ext h rfl)

theorem leftPending_victim :
    LeftPending rootDir victimConfig (.inDirectory "/d/pending/s") victimCapture.2.tree := by
  unfold victimCapture
  exact leftPending_of_captureSession (by decide +kernel)

/-- A later process finds the session of the victim, whatever its node role. -/
theorem findsReady_victim : ∃ session, FindsReady rootDir "/d" (.inDirectory "/d/pending/s")
    victimCapture.2.tree session := by
  have hany : (match (findPendingArtifactSessions rootDir "/d"
        (quietWorld victimCapture.2.tree [])).1 with
      | .ok sessions => sessions.any fun session =>
          decide (session.state = .readyToUpload) && decide (session.outputPaths.artifactDir.locate =
            (OutputPaths.inDirectory "/d/pending/s").artifactDir.locate)
      | .error _ => false) = true := by decide +kernel
  cases hfind : findPendingArtifactSessions rootDir "/d" (quietWorld victimCapture.2.tree []) with
  | mk r w' =>
      rw [hfind] at hany
      cases r with
      | error e => cases hany
      | ok sessions =>
          obtain ⟨session, hmem, hsession⟩ := List.any_eq_true.mp hany
          rw [Bool.and_eq_true, decide_eq_true_iff, decide_eq_true_iff] at hsession
          exact ⟨session, _, sessions, w', tree_quietWorld _ _, hfind, hmem, hsession⟩

theorem describesSession_iff_victim :
    ∃ session, FindsReady rootDir "/d" (.inDirectory "/d/pending/s") victimCapture.2.tree session ∧
      (DescribesSession victimConfig (.inDirectory "/d/pending/s")
        (artifactForm (uploadConfig victimConfig session) session.outputPaths) ↔
          victimConfig.nodeRole = victimConfig.nodeRole) := by
  obtain ⟨session, hsession⟩ := findsReady_victim
  have hready : FindsReady rootDir victimConfig.artifactsDir (.inDirectory "/d/pending/s")
      victimCapture.2.tree session := hsession
  exact ⟨session, hsession,
    describesSession_iff ⟨by decide, by decide⟩ leftPending_victim hready⟩

/-- A process without a node role of its own uploads what a victim has captured under the
node role `unknown`. -/
theorem not_describesSession_victim :
    ∃ (later : RuntimeConfig) (session : PendingArtifactSession), victimConfig.HasIds ∧
      LeftPending rootDir victimConfig (.inDirectory "/d/pending/s") victimCapture.2.tree ∧
      FindsReady rootDir later.artifactsDir (.inDirectory "/d/pending/s")
        victimCapture.2.tree session ∧
      ¬ DescribesSession victimConfig (.inDirectory "/d/pending/s")
        (artifactForm (uploadConfig later session) session.outputPaths) := by
  obtain ⟨session, hsession⟩ := findsReady_victim
  refine ⟨{ artifactsDir := "/d" }, session, ⟨by decide, by decide⟩, leftPending_victim,
    hsession, ?_⟩
  intro h
  have hrole := nodeRole_of_describesSession h
  exact absurd hrole (by decide)

end Sample

end BtClient
