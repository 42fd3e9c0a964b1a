import BtClient.QuietWorlds

/-!
# What the search for pending sessions finds

The search goes through the directories in the pending directory. What it says about a
session is what the manifest in its directory says; a session whose manifest cannot be
read has the state `unknown`.
-/

namespace BtClient

open Effect FileSystem

section Discovery

variable [JsonText] (currentDir : CurrentDir)

/-- The session is what its directory and the value in its manifest say. -/
structure IsReadFrom (value : Json) (session : PendingArtifactSession) : Prop where
  state : session.state = artifactStateFromString (jsonStringOrEmpty value "state")
  runId : session.runId = jsonStringOrEmpty value "run_id"
  sessionId : session.sessionId =
    if (jsonStringOrEmpty value "session_id").isEmpty then
      session.outputPaths.artifactDir.filename.bytes
    else jsonStringOrEmpty value "session_id"
  stateJsonPath : pathFromStateFile currentDir value session.outputPaths.artifactDir
    "state_json" (session.outputPaths.artifactDir / "state.json") =
      pure session.outputPaths.stateJsonPath
  eventLogPath : pathFromStateFile currentDir value session.outputPaths.artifactDir
    "event_log" (session.outputPaths.artifactDir / "session_events.ndjson") =
      pure session.outputPaths.eventLogPath
  summaryJsonPath : pathFromStateFile currentDir value session.outputPaths.artifactDir
    "summary_json" (session.outputPaths.artifactDir / "session_summary.json") =
      pure session.outputPaths.summaryJsonPath

/-- Where the manifest of a session lies. -/
def manifestLocation (artifactDir : Path) : Location :=
  artifactDir.locate ++ [ByteString.ofString "state.json"]

omit [JsonText] in
theorem locate_stateJson (artifactDir : Path) :
    (artifactDir / "state.json").locate = manifestLocation artifactDir :=
  Path.locate_join_name artifactDir (by decide)

/-- What the search says about a session in a directory. -/
def IsFound (t : Tree) (artifactDir : Path) (session : PendingArtifactSession) : Prop :=
  session.outputPaths.artifactDir = artifactDir ∧
    (session.state = .unknown ∨ ∃ content value,
      t.get? (manifestLocation artifactDir) = some (.file content) ∧
        JsonText.parse content = some value ∧ IsReadFrom currentDir value session)

omit [JsonText] in
theorem pathFromStateFile_cases (value : Json) (sessionDir : Path) (key : String)
    (fallback : Path) :
    (∃ p, pathFromStateFile currentDir value sessionDir key fallback = pure p) ∨
      ∃ f, pathFromStateFile currentDir value sessionDir key fallback = throwFailure f := by
  unfold pathFromStateFile
  split
  · dsimp only
    split
    · exact Or.inl ⟨_, rfl⟩
    · unfold absolutePath
      split
      · exact Or.inl ⟨_, rfl⟩
      · exact Or.inr ⟨_, rfl⟩
  · exact Or.inl ⟨_, rfl⟩

omit [JsonText] in
/-- To treat a path from a manifest, treat the path that it is. -/
theorem triple_pathFromStateFile {value : Json} {sessionDir fallback : Path} {key : String}
    {t : Tree} :
    Triple (OnTree (· = t)) (pathFromStateFile currentDir value sessionDir key fallback)
      (fun p w => OnTree (· = t) w ∧
        pathFromStateFile currentDir value sessionDir key fallback = pure p)
      (fun _ => OnTree (· = t)) := by
  rcases pathFromStateFile_cases currentDir value sessionDir key fallback with
    ⟨p, hp⟩ | ⟨f, hf⟩
  · rw [hp]
    exact Triple.pure fun w hw => ⟨hw, rfl⟩
  · rw [hf]
    exact Triple.throw fun w hw => hw

theorem triple_readPendingSession (t : Tree) (session : PendingArtifactSession)
    (hpaths : session.outputPaths = .inDirectory session.outputPaths.artifactDir)
    (hsessionId : session.sessionId = session.outputPaths.artifactDir.filename.bytes) :
    Triple (OnTree (· = t)) (readPendingSession currentDir session)
      (fun session' w => OnTree (· = t) w ∧
        session'.outputPaths.artifactDir = session.outputPaths.artifactDir ∧
          ∃ value, Holds t session.outputPaths.stateJsonPath value ∧
            IsReadFrom currentDir value session')
      (fun _ => OnTree (· = t)) := by
  unfold readPendingSession
  apply Triple.bind (triple_readJsonFile t _)
  intro value
  apply Triple.of_pre
  intro hvalue
  dsimp only
  refine Triple.bind (triple_pathFromStateFile currentDir) fun stateJsonPath => ?_
  apply Triple.of_pre
  intro hstateJson
  refine Triple.bind (triple_pathFromStateFile currentDir) fun eventLogPath => ?_
  apply Triple.of_pre
  intro heventLog
  refine Triple.bind (triple_pathFromStateFile currentDir) fun summaryJsonPath => ?_
  apply Triple.of_pre
  intro hsummary
  apply Triple.pure
  intro w hw
  refine ⟨hw, rfl, value, hvalue, ?_⟩
  rw [hpaths] at hstateJson heventLog hsummary
  exact {
    state := rfl
    runId := rfl
    sessionId := by rw [← hsessionId]
    stateJsonPath := hstateJson
    eventLogPath := heventLog
    summaryJsonPath := hsummary }

theorem triple_pendingSession (t : Tree) {entryPath : Path}
    (hentry : entryPath.isAbsolute = true) :
    Triple (OnTree (· = t)) (pendingSession currentDir entryPath)
      (fun session w => OnTree (· = t) w ∧ IsFound currentDir t entryPath session)
      (fun _ => OnTree (· = t)) := by
  unfold pendingSession artifactPathsForSessionDir absolutePath
  rw [Path.absolute_of_isAbsolute _ hentry]
  apply Triple.pure_bind
  apply Triple.bind (readsOnly_pathExists _ t)
  intro found
  apply Triple.ite
  · intro _
    apply triple_catchFailure (S := fun _ => OnTree (· = t))
    · refine (triple_readPendingSession currentDir t _ rfl rfl).conseq (fun _ h => h) ?_ ?_
      · rintro session w ⟨hw, hdir, value, ⟨content, hfind, hparse⟩, hread⟩
        refine ⟨hw, hdir, Or.inr ⟨content, value, ?_, hparse, hread⟩⟩
        rw [← locate_stateJson]
        exact (find_eq_some_iff.mp hfind).2
      · intro e w hw
        cases e <;> exact hw
    · exact fun _ => Triple.pure fun w hw => ⟨hw, rfl, Or.inl rfl⟩
  · exact fun _ => Triple.pure fun w hw => ⟨hw, rfl, Or.inl rfl⟩

theorem triple_pendingSessions (t : Tree) {pendingDir : Path}
    (hpending : pendingDir.isAbsolute = true) (entries : List (ByteString × Bool)) :
    Triple (OnTree (· = t)) (pendingSessions currentDir pendingDir entries)
      (fun sessions w => OnTree (· = t) w ∧ ∀ session ∈ sessions, ∃ name,
        IsFound currentDir t (pendingDir / (⟨name⟩ : Path)) session)
      (fun _ => OnTree (· = t)) := by
  induction entries with
  | nil => exact Triple.pure fun w hw => ⟨hw, by simp⟩
  | cons entry rest ih =>
      obtain ⟨name, isDirectory⟩ := entry
      rw [pendingSessions]
      apply Triple.ite
      · intro _
        apply Triple.bind (triple_pendingSession currentDir t (Path.isAbsolute_join hpending))
        intro session
        apply Triple.of_pre
        intro hsession
        apply Triple.bind ih
        intro sessions
        apply Triple.of_pre
        intro hsessions
        apply Triple.pure
        intro w hw
        refine ⟨hw, ?_⟩
        rw [List.forall_mem_cons]
        exact ⟨⟨name, hsession⟩, hsessions⟩
      · exact fun _ => ih

/-- Every session that the search finds is in a directory of the pending directory. -/
theorem triple_findPendingArtifactSessions (t : Tree) (artifactsDir : Path) :
    Triple (OnTree (· = t)) (findPendingArtifactSessions currentDir artifactsDir)
      (fun sessions w => OnTree (· = t) w ∧ ∀ session ∈ sessions, ∃ pendingDir name,
        Path.absolute currentDir (artifactsDir / "pending") = some pendingDir ∧
          IsFound currentDir t (pendingDir / (⟨name⟩ : Path)) session)
      (fun _ => OnTree (· = t)) := by
  unfold findPendingArtifactSessions pendingArtifactsDir absolutePath
  cases hpending : Path.absolute currentDir (artifactsDir / "pending") with
  | none => exact Triple.throw fun w hw => hw
  | some pendingDir =>
      have habsolute := Path.isAbsolute_of_absolute currentDir.2 hpending
      apply Triple.pure_bind
      apply Triple.bind (readsOnly_pathExists _ t)
      intro found
      apply Triple.ite
      · intro _
        apply Triple.bind (readsOnly_directoryEntries _ t)
        intro entries
        apply Triple.bind (triple_pendingSessions currentDir t habsolute entries)
        intro sessions
        apply Triple.of_pre
        intro hsessions
        apply Triple.pure
        intro w hw
        refine ⟨hw, fun session hmem => ?_⟩
        obtain ⟨name, hname⟩ := hsessions session (by simpa using hmem)
        exact ⟨pendingDir, name, rfl, hname⟩
      · exact fun _ => Triple.pure fun w hw => ⟨hw, by simp⟩

/-! ### When nothing fails -/

omit [JsonText] in
theorem exists_pathFromStateFile {sessionDir : Path} (h : sessionDir.isAbsolute = true)
    (value : Json) (key : String) (fallback : Path) :
    ∃ p, pathFromStateFile currentDir value sessionDir key fallback = pure p := by
  unfold pathFromStateFile
  split
  · dsimp only
    split
    · exact ⟨_, rfl⟩
    · have habsolute : ∀ p : Path,
          (if p.isAbsolute then p else sessionDir / p).isAbsolute = true := by
        intro p
        split
        · next hp => exact hp
        · exact Path.isAbsolute_join h
      exact ⟨_, absolutePath_eq_pure (Path.absolute_of_isAbsolute _ (habsolute _))⟩
  · exact ⟨_, rfl⟩

theorem valueAt_of_holds {t : Tree} {p : Path} {value : Json} (h : Holds t p value) :
    valueAt t p = some value := by
  obtain ⟨content, hfind, hparse⟩ := h
  rw [valueAt, contentAt, hfind]
  exact hparse

theorem holds_of_valueAt {t : Tree} {p : Path} {value : Json} (h : valueAt t p = some value) :
    Holds t p value := by
  unfold valueAt contentAt at h
  split at h
  · next content hfind => exact ⟨content, hfind, h⟩
  · rw [Option.bind_some, JsonText.parse_nil] at h
    cases h
  · cases h

/-- The session in the directory, in the state that its manifest says. -/
def IsListed (t : Tree) (artifactDir : Path) (session : PendingArtifactSession) : Prop :=
  session.outputPaths.artifactDir = artifactDir ∧ ∀ value,
    Holds t (artifactDir / "state.json") value →
      session.state = artifactStateFromString (jsonStringOrEmpty value "state")

theorem readPendingSession_quiet (t : Tree) (clock : List TimestampPair)
    {session : PendingArtifactSession} {value : Json}
    (habsolute : session.outputPaths.artifactDir.isAbsolute = true)
    (hread : readJsonFile session.outputPaths.stateJsonPath (quietWorld t clock) =
      (.ok value, quietWorld t clock)) :
    ∃ session', readPendingSession currentDir session (quietWorld t clock) =
        (.ok session', quietWorld t clock) ∧
      session'.outputPaths.artifactDir = session.outputPaths.artifactDir ∧
        session'.state = artifactStateFromString (jsonStringOrEmpty value "state") := by
  obtain ⟨p₁, hp₁⟩ := exists_pathFromStateFile currentDir habsolute value "state_json"
    session.outputPaths.stateJsonPath
  obtain ⟨p₂, hp₂⟩ := exists_pathFromStateFile currentDir habsolute value "event_log"
    session.outputPaths.eventLogPath
  obtain ⟨p₃, hp₃⟩ := exists_pathFromStateFile currentDir habsolute value "summary_json"
    session.outputPaths.summaryJsonPath
  unfold readPendingSession
  rw [bind_ok hread, hp₁, hp₂, hp₃]
  exact ⟨_, rfl, rfl, rfl⟩

theorem readOrInvalid_quiet (t : Tree) (clock : List TimestampPair)
    {session : PendingArtifactSession}
    (habsolute : session.outputPaths.artifactDir.isAbsolute = true) :
    ∃ session', catchFailure (readPendingSession currentDir session)
        (fun _ => pure { session with stateText := "invalid" }) (quietWorld t clock) =
        (.ok session', quietWorld t clock) ∧
      session'.outputPaths.artifactDir = session.outputPaths.artifactDir ∧
        ∀ value, Holds t session.outputPaths.stateJsonPath value →
          session'.state = artifactStateFromString (jsonStringOrEmpty value "state") := by
  rw [catchFailure, handle]
  rcases readJsonFile_quiet t clock session.outputPaths.stateJsonPath with
    ⟨value, hvalue, hread⟩ | ⟨hnone, f, hread⟩
  · obtain ⟨session', hsession, hdir, hstate⟩ :=
      readPendingSession_quiet currentDir t clock habsolute hread
    refine ⟨session', by rw [hsession], hdir, fun value' hvalue' => ?_⟩
    rw [hstate, Option.some.inj (hvalue.symm.trans (valueAt_of_holds hvalue'))]
  · have hstops : readPendingSession currentDir session (quietWorld t clock) =
        (.error (.thrown f), quietWorld t clock) := bind_error hread
    refine ⟨{ session with stateText := "invalid" }, by rw [hstops]; rfl, rfl, ?_⟩
    intro value hvalue
    rw [valueAt_of_holds hvalue] at hnone
    cases hnone

omit [JsonText] in
theorem artifactPathsForSessionDir_of_isAbsolute {entryPath : Path}
    (h : entryPath.isAbsolute = true) :
    artifactPathsForSessionDir currentDir entryPath = pure (.inDirectory entryPath) := by
  unfold artifactPathsForSessionDir
  rw [absolutePath_eq_pure (Path.absolute_of_isAbsolute _ h), pure_bind]

theorem pendingSession_quiet (t : Tree) (clock : List TimestampPair) {entryPath : Path}
    (hentry : entryPath.isAbsolute = true) :
    ∃ session, pendingSession currentDir entryPath (quietWorld t clock) =
        (.ok session, quietWorld t clock) ∧ IsListed t entryPath session := by
  have hexists := pathExists_quiet t clock (OutputPaths.inDirectory entryPath).stateJsonPath
  unfold pendingSession
  rw [artifactPathsForSessionDir_of_isAbsolute currentDir hentry, pure_bind]
  cases hfind : find t (OutputPaths.inDirectory entryPath).stateJsonPath with
  | none =>
      rw [hfind] at hexists
      rw [bind_ok hexists]
      refine ⟨_, rfl, rfl, fun value hvalue => ?_⟩
      obtain ⟨content, hcontent, -⟩ := hvalue
      cases hfind.symm.trans hcontent
  | some node =>
      rw [hfind] at hexists
      rw [bind_ok hexists]
      let session : PendingArtifactSession := {
        outputPaths := .inDirectory entryPath
        sessionId := entryPath.filename.bytes
        hasStateFile := true }
      have habsolute : session.outputPaths.artifactDir.isAbsolute = true := hentry
      exact readOrInvalid_quiet currentDir t clock habsolute

omit [JsonText] in
theorem directoryEntries_quiet (t : Tree) (clock : List TimestampPair) {p : Path}
    (h : find t p = some .dir) :
    directoryEntries p (quietWorld t clock) =
      (.ok ((t.children p.locate).map fun name =>
        (name, decide (t.isDir (p.locate ++ [name])))), quietWorld t clock) := by
  obtain ⟨hreach, hget⟩ := find_eq_some_iff.mp h
  have hdir : t.isDir p.locate := hget
  have htree : (do
      checkpoint
      tree) (quietWorld t clock) = (.ok t, quietWorld t clock) := rfl
  unfold directoryEntries
  rw [← bind_assoc, bind_ok htree, resolve_of_reaches hreach]
  dsimp only
  rw [if_pos hdir]
  rfl

end Discovery

end BtClient
