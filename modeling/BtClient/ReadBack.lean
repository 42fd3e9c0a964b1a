import BtClient.ArchiveAgreement
import BtClient.StateWrites

/-!
# Manifests are read back

The search for pending sessions reads the manifests that `write_artifact_state` and
`record_artifact_upload_failure` write. It puts the paths of a session together in its own
way, and finds the session as it was prepared.
-/

namespace BtClient

open Effect FileSystem

/-! ### Worlds in which no bytes are lost unnoticed -/

section Notices

variable {α β : Type}

/-- A write that loses bytes is told so. -/
def World.Notices (w : World) : Prop := ∀ reached, .unnoticed reached ∉ w.faults

theorem World.Notices.fault_ne {w : World} (h : w.Notices) (n reached : ℕ) :
    w.fault n ≠ .unnoticed reached := by
  intro heq
  rw [World.fault, List.getD_eq_getElem?_getD] at heq
  cases hget : w.faults[n]? with
  | none =>
      rw [hget] at heq
      cases heq
  | some fault =>
      rw [hget, Option.getD_some] at heq
      exact h reached (heq ▸ List.mem_of_getElem? hget)

/-- The faults only get fewer. -/
abbrev KeepsNotices (m : Action α) : Prop := Keeps World.Notices m

theorem keepsNotices_nextFault : KeepsNotices nextFault := by
  rintro ⟨t, faults, clock⟩ hw
  cases faults with
  | nil => exact hw
  | cons fault rest => exact fun reached hmem => hw reached (List.mem_cons_of_mem _ hmem)

theorem keepsNotices_checkpoint : KeepsNotices checkpoint := by
  apply Keeps.bind keepsNotices_nextFault
  intro fault
  cases fault with
  | none => exact Keeps.pure _
  | reported reached => exact Keeps.throw _
  | unnoticed reached => exact Keeps.pure _
  | crash reached => exact Keeps.throw _

theorem keepsNotices_tree : KeepsNotices tree := fun _ hw => hw

theorem keepsNotices_setTree (t : Tree) : KeepsNotices (setTree t) := fun _ hw => hw

theorem keepsNotices_captureTimestamp : KeepsNotices captureTimestamp := by
  rintro ⟨t, faults, clock⟩ hw
  cases clock <;> exact hw

theorem keepsNotices_pathExists (p : Path) : KeepsNotices (pathExists p) :=
  Keeps.bind keepsNotices_checkpoint fun _ =>
    Keeps.bind keepsNotices_tree fun _ => Keeps.pure _

theorem keepsNotices_openForReading (p : Path) : KeepsNotices (openForReading p) := by
  apply Keeps.bind keepsNotices_nextFault
  intro fault
  cases fault
  case reported => exact Keeps.pure _
  case crash => exact Keeps.throw _
  all_goals exact Keeps.bind keepsNotices_tree fun _ => Keeps.pure _

theorem keepsNotices_ensureDirectory (l : Location) : KeepsNotices (ensureDirectory l) := by
  apply Keeps.bind keepsNotices_tree
  intro t
  split
  · exact Keeps.pure _
  · exact Keeps.throw _
  · apply Keeps.bind keepsNotices_checkpoint
    intro _
    split
    · exact keepsNotices_setTree _
    · exact Keeps.throw _

theorem keepsNotices_createDirectories (p : Path) : KeepsNotices (createDirectories p) := by
  have hall : ∀ (components : List (PathComponent ByteString)) (l : Location),
      KeepsNotices (ensureDirectories l components) := by
    intro components
    induction components with
    | nil => exact keepsNotices_ensureDirectory
    | cons c rest ih =>
        exact fun l => Keeps.bind (keepsNotices_ensureDirectory l) fun _ => ih (c.next l)
  exact hall p.components []

theorem keepsNotices_ensureParentDirectory (path : Path) :
    KeepsNotices (ensureParentDirectory path) := by
  unfold ensureParentDirectory
  split
  · exact Keeps.pure _
  · exact keepsNotices_createDirectories _

theorem keepsNotices_openTruncated (p : Path) : KeepsNotices (openTruncated p) := by
  apply Keeps.bind keepsNotices_nextFault
  intro fault
  cases fault
  case reported => exact Keeps.pure _
  case crash => exact Keeps.throw _
  all_goals
    apply Keeps.bind keepsNotices_tree
    intro t
    split
    · split
      · exact Keeps.bind (keepsNotices_setTree _) fun _ => Keeps.pure _
      · exact Keeps.pure _
    · exact Keeps.pure _

variable [JsonText]

theorem keepsNotices_readJsonFile (path : Path) : KeepsNotices (readJsonFile path) := by
  apply Keeps.bind (keepsNotices_openForReading path)
  intro content
  split
  · exact Keeps.throw _
  · split
    · exact Keeps.pure _
    · exact Keeps.throw _

theorem keepsNotices_readOrElse (p : Path) (f : Json → α) (fallback : α) :
    KeepsNotices (do
      if ← pathExists p then
        catchFailure
          (do
            let previous ← readJsonFile p
            pure (f previous))
          fun _ => pure fallback
      else pure fallback : Action α) := by
  apply Keeps.bind (keepsNotices_pathExists p)
  intro found
  split
  · exact Keeps.catchFailure (Keeps.bind (keepsNotices_readJsonFile p) fun _ => Keeps.pure _)
      fun _ => Keeps.pure _
  · exact Keeps.pure _

theorem keepsNotices_openManifest (config : RuntimeConfig) (outputPaths : OutputPaths)
    (state : ArtifactState) (amend : TimestampPair → Json.Members → Json.Members) :
    KeepsNotices (openManifest config outputPaths state amend) := by
  unfold openManifest
  apply Keeps.bind (keepsNotices_createDirectories _)
  intro _
  apply Keeps.bind keepsNotices_captureTimestamp
  intro now
  have hbase : KeepsNotices (baseStateJson config outputPaths state now) :=
    Keeps.bind (keepsNotices_readOrElse outputPaths.stateJsonPath
      (fun previous => if previous.isObject then previous else .object []) _) fun _ =>
        Keeps.bind (keepsNotices_readOrElse outputPaths.stateJsonPath
          (fun previous =>
            let createdUtc := jsonStringOrEmpty previous "created_utc"
            if createdUtc.isEmpty then (now.utcTs : ByteString) else createdUtc) _)
          fun _ => Keeps.pure _
  apply Keeps.bind hbase
  intro stateJson
  apply Keeps.bind (keepsNotices_ensureParentDirectory _)
  intro _
  apply Keeps.bind (keepsNotices_openTruncated _)
  exact fun _ => Keeps.pure _

end Notices

/-! ### Manifests that have been written -/

section Written

variable [JsonText] {config : RuntimeConfig} {outputPaths : OutputPaths} {state : ArtifactState}
  {amend : TimestampPair → Json.Members → Json.Members} {w w' : World}

/-- A write that returns has written the manifest, all of it. -/
theorem holds_of_rewriteState (hamend : IsHistoric amend) (hnotices : w.Notices)
    (hrun : rewriteState config outputPaths state amend w = (.ok (), w')) :
    ∃ members, IsAmended w.tree config outputPaths state amend members ∧
      Holds w'.tree outputPaths.stateJsonPath (.object members) := by
  rw [rewriteState_eq] at hrun
  obtain ⟨⟨value, place⟩, w₁, hopen, hfinish⟩ := of_bind_ok hrun
  obtain ⟨⟨members, rfl, htogether⟩, hplace⟩ :=
    (triple_openManifest w.tree config outputPaths state amend).apply_ok rfl hopen
  have hnotices₁ : w₁.Notices :=
    (keepsNotices_openManifest config outputPaths state amend).apply_ok hnotices hopen
  refine ⟨members, htogether.isAmended, ?_⟩
  cases place with
  | none => cases hfinish
  | some l =>
      by_cases hutf : (Json.object members).isUtf8 = true
      · have hplain := isPlain_of_isAmended hamend htogether.isAmended
        have hparse := JsonText.parse_dumpIndented _ hutf hplain
        dsimp only at hfinish hplace
        rw [finishManifest_of_isUtf8 _ hutf] at hfinish
        have harrived : (w₁.fault 0).arrived (manifestText (.object members)) =
            manifestText (.object members) := by
          cases hfault : w₁.fault 0 with
          | none => rfl
          | reported reached =>
              rw [hfault] at hfinish
              cases hfinish
          | crash reached =>
              rw [hfault] at hfinish
              cases hfinish
          | unnoticed reached => exact absurd hfault (hnotices₁.fault_ne 0 reached)
        obtain ⟨-, rfl⟩ := Prod.mk.inj hfinish
        refine ⟨manifestText (.object members), ?_, ?_⟩
        · rw [harrived]
          exact hplace.find_appended _
        · rw [manifestText_of_isUtf8 hutf]
          exact hparse
      · rw [finishManifest_of_not_isUtf8 _ hutf] at hfinish
        cases hfinish

/-- The path is that of a session, and the value in its manifest says what the session is. -/
structure SaysSession (config : RuntimeConfig) (outputPaths : OutputPaths)
    (state : ArtifactState) (value : Json) : Prop extends NamesSession config outputPaths value where
  state_eq : value.find "state" = some (Json.text (artifactStateName state))

theorem saysSession_of_isAmended {t : Tree} {config' : RuntimeConfig} {members : Json.Members}
    (hamend : IsHistoric amend) (hrunId : config'.runId = config.runId)
    (hsessionId : config'.sessionId = config.sessionId)
    (h : IsAmended t config' outputPaths state amend members) :
    SaysSession config outputPaths state (.object members) := by
  refine ⟨namesSession_of_isAmended hamend hrunId hsessionId ⟨rfl, rfl, rfl⟩ h, ?_⟩
  obtain ⟨previous, createdUtc, now, -, rfl⟩ := h
  rw [Json.find, hamend.lookup _ _ _ (by decide), manifest_state]

omit [JsonText] in
@[simp] theorem artifactStateFromString_artifactStateName (state : ArtifactState) :
    artifactStateFromString (ByteString.ofString (artifactStateName state)) = state := by
  cases state <;> decide

/-- A session as the search restores it from its manifest. -/
def restored (config : RuntimeConfig) (outputPaths : OutputPaths) (state : ArtifactState) :
    PendingArtifactSession where
  outputPaths := outputPaths
  runId := config.runId
  sessionId := config.sessionId
  state := state
  stateText := artifactStateName state
  hasStateFile := true
  stateFileValid := true

/-- In a directory with a manifest of the session, the search finds the session. -/
theorem sessionAt_of_saysSession {currentDir : CurrentDir} {t : Tree} {value : Json}
    (husual : outputPaths.IsUsual) (hid : config.sessionId ≠ [])
    (hvalue : Holds t outputPaths.stateJsonPath value)
    (htells : SaysSession config outputPaths state value) :
    SessionAt currentDir t outputPaths.artifactDir (restored config outputPaths state) := by
  intro clock
  have hdir := husual.artifactDir_isAbsolute
  have hstatePath : outputPaths.stateJsonPath.isAbsolute = true := by
    rw [husual.stateJsonPath]
    exact Path.isAbsolute_join hdir
  have husualPath : (OutputPaths.inDirectory outputPaths.artifactDir).stateJsonPath =
      outputPaths.stateJsonPath := husual.stateJsonPath.symm
  have hexists : pathExists (OutputPaths.inDirectory outputPaths.artifactDir).stateJsonPath
      (quietWorld t clock) = (.ok true, quietWorld t clock) := by
    obtain ⟨content, hfind, -⟩ := hvalue
    rw [pathExists_quiet, husualPath, hfind]
    rfl
  have hread : readJsonFile (OutputPaths.inDirectory outputPaths.artifactDir).stateJsonPath
      (quietWorld t clock) = (.ok value, quietWorld t clock) := by
    rw [husualPath]
    rcases readJsonFile_quiet t clock outputPaths.stateJsonPath with
      ⟨value', hvalue', hread⟩ | ⟨hnone, -⟩
    · rwa [Option.some.inj ((valueAt_of_holds hvalue).symm.trans hvalue')]
    · rw [valueAt_of_holds hvalue] at hnone
      cases hnone
  have hfiles : value.find "files" = some (filesMember outputPaths) := htells.files
  have hrunId : jsonStringOrEmpty value "run_id" = config.runId := by
    rw [jsonStringOrEmpty, htells.runId]
  have hsessionId : jsonStringOrEmpty value "session_id" = config.sessionId := by
    rw [jsonStringOrEmpty, htells.sessionId]
  have hstate : jsonStringOrEmpty value "state" =
      ByteString.ofString (artifactStateName state) := by
    rw [jsonStringOrEmpty, htells.state_eq]
    rfl
  let start : PendingArtifactSession := {
    outputPaths := .inDirectory outputPaths.artifactDir
    sessionId := outputPaths.artifactDir.filename.bytes
    hasStateFile := true }
  have hsession : readPendingSession currentDir start (quietWorld t clock) =
      (.ok (restored config outputPaths state), quietWorld t clock) := by
    unfold readPendingSession
    rw [bind_ok hread]
    rw [pathFromStateFile_of_files hfiles (find_filesMember "state_json") hstatePath,
      pathFromStateFile_of_files hfiles (find_filesMember "event_log")
        husual.eventLogPath_isAbsolute,
      pathFromStateFile_of_files hfiles (find_filesMember "summary_json")
        husual.summaryJsonPath_isAbsolute, hrunId, hsessionId, hstate,
      artifactStateFromString_artifactStateName, if_neg (by simpa using hid)]
    rfl
  have hcatch : catchFailure (readPendingSession currentDir start)
      (fun _ => pure { start with stateText := "invalid" }) (quietWorld t clock) =
      (.ok (restored config outputPaths state), quietWorld t clock) := by
    rw [catchFailure, handle, hsession]
  unfold pendingSession
  rw [artifactPathsForSessionDir_of_isAbsolute currentDir hdir, pure_bind, bind_ok hexists,
    if_pos rfl]
  exact hcatch

end Written

/-! ### Trees of ordinary names -/

/-- Files and directories have ordinary names. -/
def HasNames (t : Tree) : Prop := ∀ k, (t.get? k).isSome → ∀ n ∈ k, Path.IsName n

theorem isName_of_mem_places {p : Path} {k : Location} (hk : k ∈ p.places) {n : ByteString}
    (hn : n ∈ k) : Path.IsName n := by
  rcases PathComponent.mem_of_mem_visited (Path.mem_places.mp hk) hn with hroot | hcomponent
  · cases hroot
  · exact Path.isName_of_mem_components hcomponent

/-- A session makes ordinary names only. -/
theorem HasNames.of_ownChanges {outputPaths : OutputPaths} {t t' : Tree} (h : HasNames t)
    (hown : OwnChanges outputPaths t t') : HasNames t' := by
  intro k hk n hn
  by_cases hplaces : k ∈ outputPaths.places
  · obtain ⟨p, -, hp⟩ := List.mem_flatMap.mp hplaces
    exact isName_of_mem_places hp hn
  · rw [hown k hplaces] at hk
    exact h k hk n hn

/-- Different names lead to different paths. -/
theorem Path.join_injective (p : Path) {m n : ByteString} (hm : IsName m) (hn : IsName n)
    (h : p / (⟨m⟩ : Path) = p / (⟨n⟩ : Path)) : m = n := by
  have hfilename := congrArg Path.filename h
  rw [Path.filename_join_name p hm, Path.filename_join_name p hn] at hfilename
  cases hfilename
  rfl

/-! ### Prepared, written and found -/

section Stored

variable [JsonText] {currentDir : CurrentDir} {request : Request} {outputPaths : OutputPaths}
  {state : ArtifactState} {t : Tree} {w w' : World}

/-- The trees after a session has been prepared and manifests of it have been written: first
with the state `capturing` or `ready_to_upload`, later for failed uploads too. Every call has
returned, and nobody else has written to the tree. -/
inductive Stored (currentDir : CurrentDir) (request : Request) (outputPaths : OutputPaths) :
    ArtifactState → Tree → Prop
  | prepared {w w₁ v v' : World} {state : ArtifactState} (hnames : HasNames w.tree)
      (haccepted : request.IsAccepted currentDir w outputPaths w₁) (hv : v.tree = w₁.tree)
      (hnotices : v.Notices) (hstate : state = .capturing ∨ state = .readyToUpload)
      (hwrite : writeArtifactState request.config outputPaths state v = (.ok (), v')) :
      Stored currentDir request outputPaths state v'.tree
  | written {before state : ArtifactState} {v v' : World}
      (h : Stored currentDir request outputPaths before v.tree) (hnotices : v.Notices)
      (hstate : state = .capturing ∨ state = .readyToUpload)
      (hwrite : writeArtifactState request.config outputPaths state v = (.ok (), v')) :
      Stored currentDir request outputPaths state v'.tree
  | uploadFailed {before : ArtifactState} {v v' : World} (errorMessage : ByteString)
      (h : Stored currentDir request outputPaths before v.tree) (hnotices : v.Notices)
      (hrecord : recordArtifactUploadFailure request.config outputPaths errorMessage v =
        (.ok (), v')) : Stored currentDir request outputPaths .readyToUpload v'.tree

/-- What is true of the tree from the first manifest on. -/
structure IsStored (currentDir : CurrentDir) (request : Request) (outputPaths : OutputPaths)
    (state : ArtifactState) (t : Tree) : Prop where
  prepared : IsPrepared currentDir request.config request.eventLogOverride
    request.summaryJsonOverride outputPaths
  names : HasNames t
  manifest : ∃ value, Holds t outputPaths.stateJsonPath value ∧
    SaysSession request.config outputPaths state value

/-- One more manifest of the session. -/
theorem isStored_of_rewriteState {amend : TimestampPair → Json.Members → Json.Members}
    (hamend : IsHistoric amend)
    (hprepared : IsPrepared currentDir request.config request.eventLogOverride
      request.summaryJsonOverride outputPaths)
    (hnames : HasNames w.tree) (hnotices : w.Notices)
    (hrun : rewriteState request.config outputPaths state amend w = (.ok (), w')) :
    IsStored currentDir request outputPaths state w'.tree := by
  obtain ⟨members, hamended, hvalue⟩ := holds_of_rewriteState hamend hnotices hrun
  have hown : OwnChanges outputPaths w.tree w'.tree := by
    intro k hk
    have hfinal : OnTree (fun t => t.get? k = w.tree.get? k)
        (rewriteState request.config outputPaths state amend w).2 :=
      (keeps_rewriteState_elsewhere hk _ request.config state amend).final rfl
    rwa [hrun] at hfinal
  exact ⟨hprepared, hnames.of_ownChanges hown, _, hvalue,
    saysSession_of_isAmended hamend rfl rfl hamended⟩

/-- Whatever manifests have been written, the last one is stored. -/
theorem isStored_of_stored (h : Stored currentDir request outputPaths state t) :
    IsStored currentDir request outputPaths state t := by
  induction h with
  | prepared hnames haccepted hv hnotices hstate hwrite =>
      rename_i w w₁ v v' state
      have hown : OwnChanges outputPaths w.tree w₁.tree := fun k hk =>
        (triple_prepareOutputPaths_elsewhere request.config request.eventLogOverride
          request.summaryJsonOverride).apply_ok rfl haccepted hk
      refine isStored_of_rewriteState isHistoric_id (isPrepared_of_isAccepted haccepted) ?_
        hnotices hwrite
      rw [hv]
      exact hnames.of_ownChanges hown
  | written _ hnotices hstate hwrite ih =>
      exact isStored_of_rewriteState isHistoric_id ih.prepared ih.names hnotices hwrite
  | uploadFailed errorMessage _ hnotices hrecord ih =>
      exact isStored_of_rewriteState (isHistoric_withUploadFailure request.config errorMessage)
        ih.prepared ih.names hnotices hrecord

/-- A session whose id is an ordinary name is read back from its manifest as it was prepared:
the search lists exactly one session for its directory, with all four paths, both ids and the
state that was written. -/
theorem stored_readBack (hid : Path.IsName request.config.sessionId)
    (h : Stored currentDir request outputPaths state t) (clock : List TimestampPair) :
    ∃ sessions, findPendingArtifactSessions currentDir request.config.artifactsDir
        (quietWorld t clock) = (.ok sessions, quietWorld t clock) ∧
      (sessions.filter fun session =>
        decide (session.outputPaths.artifactDir = outputPaths.artifactDir)) =
          [restored request.config outputPaths state] := by
  obtain ⟨hprepared, hnames, value, hvalue, htells⟩ := isStored_of_stored h
  obtain ⟨base, hbase⟩ := exists_isBase currentDir request.config
  have hdirectory := hbase.artifactDir hprepared
  have hpending := Path.isAbsolute_of_absolute currentDir.2 hbase.pending
  have hat : SessionAt currentDir t outputPaths.artifactDir
      (restored request.config outputPaths state) :=
    sessionAt_of_saysSession (isUsual_of_isPrepared hprepared) hid.1 hvalue htells
  -- the way to the manifest goes through the pending directory
  obtain ⟨content, hfind, -⟩ := hvalue
  rw [hprepared.stateJsonPath] at hfind
  obtain ⟨hreach, hdir⟩ := (reaches_join_name (by decide)).mp (find_eq_some_iff.mp hfind).1
  rw [hdirectory] at hreach hdir hat
  obtain ⟨hreachPending, hisDir⟩ := (reaches_join_name hid).mp hreach
  rw [Path.locate_join_name _ hid] at hdir
  have hfindPending : find t (base / "pending") = some .dir :=
    find_eq_some_iff.mpr ⟨hreachPending, hisDir⟩
  obtain ⟨found, hfound, hquiet⟩ :=
    exists_findPendingArtifactSessions hbase.pending hfindPending
  have hpath : ∀ (name : ByteString) (session : PendingArtifactSession),
      SessionAt currentDir t (base / "pending" / (⟨name⟩ : Path)) session →
        session.outputPaths.artifactDir = base / "pending" / (⟨name⟩ : Path) :=
    fun name session hsession => hsession.artifactDir_eq (Path.isAbsolute_join hpending)
  have hname : ∀ name ∈ directoryNames t (base / "pending").locate, Path.IsName name := by
    intro name hmem
    have hchild := FileTree.mem_children_iff.mp (List.mem_filter.mp hmem).1
    exact hnames _ hchild name (List.mem_append_right _ (List.mem_singleton_self name))
  have hmem : request.config.sessionId ∈ directoryNames t (base / "pending").locate := by
    refine List.mem_filter.mpr ⟨FileTree.mem_children_iff.mpr ?_, decide_eq_true hdir⟩
    rw [show t.get? _ = some .dir from hdir]
    rfl
  have hone := filter_eq_singleton hfound hpath
    ((FileTree.nodup_children t _).filter _)
    (fun m hm n hn => Path.join_injective _ (hname m hm) (hname n hn)) hmem
    fun session hsession => hsession.unique hat
  refine ⟨_, hquiet clock, ?_⟩
  rw [hdirectory]
  exact List.perm_singleton.mp (hone ▸ (List.perm_insertionSort sortsBefore found).filter _)

end Stored

section Sample

/-- The paths of the session of the victim. -/
def victimPaths : OutputPaths := .inDirectory "/d/pending/s"

def victimRequest : Request := { config := victimConfig }

/-- The session of the victim with its event log elsewhere. -/
def overridingRequest : Request := { config := victimConfig, eventLogOverride := some "/logs/e" }

def overridingPaths : OutputPaths := { victimPaths with eventLogPath := "/logs/e" }

def overridingPrepared : Except Stop OutputPaths × World :=
  prepareOutputPaths rootDir victimConfig (some "/logs/e") none
    (quietWorld .empty [⟨"t0", 0⟩, ⟨"t1", 1⟩])

def overridingCapturing : Except Stop Unit × World :=
  writeArtifactState overridingRequest.config overridingPaths .capturing overridingPrepared.2

def overridingFailed : Except Stop Unit × World :=
  recordArtifactUploadFailure overridingRequest.config overridingPaths "timed out"
    overridingCapturing.2

theorem notices_of_faults_nil {w : World} (h : w.faults = []) : w.Notices := by
  intro reached
  rw [h]
  exact List.not_mem_nil

theorem hasNames_empty : HasNames .empty := by
  intro k hk n hn
  cases k with
  | nil => cases hn
  | cons m k => cases hk

theorem Stored.uploadFailed_of_ok [JsonText] {currentDir : CurrentDir} {request : Request}
    {outputPaths : OutputPaths} {before : ArtifactState} {errorMessage : ByteString} {v : World}
    (h : Stored currentDir request outputPaths before v.tree) (hnotices : v.Notices)
    (hok : (recordArtifactUploadFailure request.config outputPaths errorMessage v).1 = .ok ()) :
    Stored currentDir request outputPaths .readyToUpload
      (recordArtifactUploadFailure request.config outputPaths errorMessage v).2.tree :=
  Stored.uploadFailed errorMessage h hnotices (Prod.ext hok rfl)

theorem stored_overriding :
    Stored rootDir overridingRequest overridingPaths .readyToUpload overridingFailed.2.tree := by
  have haccepted : overridingRequest.IsAccepted rootDir
      (quietWorld .empty [⟨"t0", 0⟩, ⟨"t1", 1⟩]) overridingPaths overridingPrepared.2 :=
    Prod.ext (by decide +kernel) rfl
  have hwrite : writeArtifactState overridingRequest.config overridingPaths .capturing
      overridingPrepared.2 = (.ok (), overridingCapturing.2) := Prod.ext (by decide +kernel) rfl
  have hprepared : overridingPrepared.2.Notices := notices_of_faults_nil (by decide +kernel)
  have hcapturing : overridingCapturing.2.Notices := notices_of_faults_nil (by decide +kernel)
  unfold overridingFailed
  exact Stored.uploadFailed_of_ok (Stored.prepared hasNames_empty haccepted rfl hprepared
    (Or.inl rfl) hwrite) hcapturing (by decide +kernel)

theorem stored_readBack_overriding :
    ∃ sessions, findPendingArtifactSessions rootDir overridingRequest.config.artifactsDir
        (quietWorld overridingFailed.2.tree []) =
          (.ok sessions, quietWorld overridingFailed.2.tree []) ∧
      (sessions.filter fun session =>
        decide (session.outputPaths.artifactDir = overridingPaths.artifactDir)) =
          [restored overridingRequest.config overridingPaths .readyToUpload] := by
  have hid : Path.IsName overridingRequest.config.sessionId := by decide
  exact stored_readBack hid stored_overriding []

end Sample

end BtClient
