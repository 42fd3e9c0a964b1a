import BtClient.Discovery

/-!
# The search, directory by directory

When nothing fails, the search for pending sessions says something about every directory in
the pending directory, and what it says depends only on what is found at the place of the
manifest.
-/

namespace BtClient

open Effect FileSystem

section Found

variable [JsonText] (currentDir : CurrentDir)

/-- When nothing fails, the search says this about the session in the directory. -/
def SessionAt (t : Tree) (entryPath : Path) (session : PendingArtifactSession) : Prop :=
  ∀ clock, pendingSession currentDir entryPath (quietWorld t clock) =
    (.ok session, quietWorld t clock)

/-- What the search says about a directory is a function of what is found at the place of its
manifest. -/
theorem exists_sessionOf {entryPath : Path} (hentry : entryPath.isAbsolute = true) :
    ∃ sessionOf : Option (Node ByteString) → PendingArtifactSession,
      ∀ t, SessionAt currentDir t entryPath (sessionOf (find t (entryPath / "state.json"))) := by
  choose path hpath using fun value key fallback =>
    exists_pathFromStateFile currentDir hentry value key fallback
  let unread (found : Bool) : PendingArtifactSession := {
    outputPaths := .inDirectory entryPath
    sessionId := entryPath.filename.bytes
    hasStateFile := found }
  let read (value : Json) : PendingArtifactSession := {
    outputPaths := {
      artifactDir := entryPath
      stateJsonPath := path value "state_json" (entryPath / "state.json")
      eventLogPath := path value "event_log" (entryPath / "session_events.ndjson")
      summaryJsonPath := path value "summary_json" (entryPath / "session_summary.json") }
    stateText := jsonStringOrEmpty value "state"
    state := artifactStateFromString (jsonStringOrEmpty value "state")
    runId := jsonStringOrEmpty value "run_id"
    sessionId :=
      if (jsonStringOrEmpty value "session_id").isEmpty then entryPath.filename.bytes
      else jsonStringOrEmpty value "session_id"
    hasStateFile := true
    stateFileValid := true }
  let content (node : Node ByteString) : ByteString := match node with
    | .file content => content
    | .dir => []
  refine ⟨fun found => match found with
    | none => unread false
    | some node => match JsonText.parse (content node) with
      | none => { unread true with stateText := "invalid" }
      | some value => read value, fun t clock => ?_⟩
  have hexists := pathExists_quiet t clock (OutputPaths.inDirectory entryPath).stateJsonPath
  unfold pendingSession
  rw [artifactPathsForSessionDir_of_isAbsolute currentDir hentry, pure_bind, bind_ok hexists]
  have hstate : (OutputPaths.inDirectory entryPath).stateJsonPath = entryPath / "state.json" := rfl
  rw [hstate]
  cases hfind : find t (entryPath / "state.json") with
  | none => rfl
  | some node =>
      have hvalue : valueAt t (entryPath / "state.json") = JsonText.parse (content node) := by
        rw [valueAt, contentAt, hfind]
        cases node <;> rfl
      have hcatch : catchFailure (readPendingSession currentDir (unread true))
          (fun _ => pure { unread true with stateText := "invalid" }) (quietWorld t clock) =
          (.ok (match JsonText.parse (content node) with
            | none => { unread true with stateText := "invalid" }
            | some value => read value), quietWorld t clock) := by
        rw [catchFailure, handle]
        rcases readJsonFile_quiet t clock (unread true).outputPaths.stateJsonPath with
          ⟨value, hsome, hread⟩ | ⟨hnone, f, hread⟩
        · have hparse : JsonText.parse (content node) = some value := hvalue.symm.trans hsome
          have hsession : readPendingSession currentDir (unread true) (quietWorld t clock) =
              (.ok (read value), quietWorld t clock) := by
            unfold readPendingSession
            rw [bind_ok hread]
            dsimp only [unread, OutputPaths.inDirectory]
            rw [hpath, hpath, hpath]
            rfl
          rw [hsession, hparse]
        · have hparse : JsonText.parse (content node) = none := hvalue.symm.trans hnone
          have hsession : readPendingSession currentDir (unread true) (quietWorld t clock) =
              (.error (.thrown f), quietWorld t clock) := bind_error hread
          rw [hsession, hparse]
          rfl
      exact hcatch

variable {currentDir} {t t' : Tree} {entryPath pendingDir : Path}
  {session session' : PendingArtifactSession}

namespace SessionAt

theorem unique (h : SessionAt currentDir t entryPath session)
    (h' : SessionAt currentDir t entryPath session') : session = session' := by
  have heq := (h []).symm.trans (h' [])
  cases heq
  rfl

/-- Trees that agree about the manifest agree about the session. -/
theorem congr (hentry : entryPath.isAbsolute = true)
    (hfind : find t' (entryPath / "state.json") = find t (entryPath / "state.json"))
    (h : SessionAt currentDir t entryPath session) : SessionAt currentDir t' entryPath session := by
  obtain ⟨sessionOf, hall⟩ := exists_sessionOf currentDir hentry
  have hsession := hall t'
  rwa [hfind, (hall t).unique h] at hsession

theorem isListed (hentry : entryPath.isAbsolute = true)
    (h : SessionAt currentDir t entryPath session) : IsListed t entryPath session := by
  obtain ⟨session', hsession, hlisted⟩ := pendingSession_quiet currentDir t [] hentry
  have heq := hsession.symm.trans (h [])
  cases heq
  exact hlisted

theorem artifactDir_eq (hentry : entryPath.isAbsolute = true)
    (h : SessionAt currentDir t entryPath session) :
    session.outputPaths.artifactDir = entryPath :=
  (h.isListed hentry).1

/-- About a directory without a manifest that can be found the search knows no state. -/
theorem find_ne_none (hentry : entryPath.isAbsolute = true)
    (h : SessionAt currentDir t entryPath session) (hstate : session.state ≠ .unknown) :
    find t (entryPath / "state.json") ≠ none := by
  intro hnone
  have hexists := pathExists_quiet t [] (OutputPaths.inDirectory entryPath).stateJsonPath
  have hrun := h []
  have hnone' : find t (OutputPaths.inDirectory entryPath).stateJsonPath = none := hnone
  unfold pendingSession at hrun
  rw [artifactPathsForSessionDir_of_isAbsolute currentDir hentry, pure_bind, bind_ok hexists,
    hnone'] at hrun
  cases hrun
  exact hstate rfl

end SessionAt

/-- The sessions that are found are those of the directories, one after the other. -/
theorem exists_pendingSessions (currentDir : CurrentDir) (t : Tree)
    (hpending : pendingDir.isAbsolute = true)
    (entries : List (ByteString × Bool)) :
    ∃ sessions, List.Forall₂
        (fun e session => SessionAt currentDir t (pendingDir / (⟨e.1⟩ : Path)) session)
        (entries.filter Prod.snd) sessions ∧
      ∀ clock, pendingSessions currentDir pendingDir entries (quietWorld t clock) =
        (.ok sessions, quietWorld t clock) := by
  induction entries with
  | nil => exact ⟨[], .nil, fun _ => rfl⟩
  | cons entry rest ih =>
      obtain ⟨name, isDirectory⟩ := entry
      obtain ⟨sessions, hall, hsessions⟩ := ih
      cases isDirectory with
      | false =>
          refine ⟨sessions, hall, fun clock => ?_⟩
          rw [pendingSessions, if_neg Bool.false_ne_true]
          exact hsessions clock
      | true =>
          obtain ⟨sessionOf, hsession⟩ := exists_sessionOf currentDir
            (Path.isAbsolute_join (q := ⟨name⟩) hpending)
          refine ⟨_, .cons (hsession t) hall, fun clock => ?_⟩
          rw [pendingSessions, if_pos rfl, bind_ok (hsession t clock), bind_ok (hsessions clock)]
          rfl

omit [JsonText] in
theorem exists_related {α β : Type} {R : α → β → Prop} {xs : List α} {ys : List β}
    (h : List.Forall₂ R xs ys) {x : α} (hx : x ∈ xs) : ∃ y ∈ ys, R x y := by
  induction h with
  | nil => cases hx
  | @cons x' y xs ys hxy hrest ih =>
      rcases List.mem_cons.mp hx with rfl | hx
      · exact ⟨y, List.mem_cons_self, hxy⟩
      · obtain ⟨y', hy', hrel⟩ := ih hx
        exact ⟨y', List.mem_cons_of_mem _ hy', hrel⟩

omit [JsonText] in
/-- Of things that are related to different names, one is related to a name. -/
theorem filter_eq_singleton {α β γ : Type} [DecidableEq γ] {R : α → β → Prop} {f : β → γ}
    {g : α → γ} {xs : List α} {ys : List β} (h : List.Forall₂ R xs ys)
    (hf : ∀ x y, R x y → f y = g x) (hnodup : xs.Nodup)
    (hinj : ∀ x ∈ xs, ∀ x' ∈ xs, g x = g x' → x = x') {a : α} (ha : a ∈ xs) {b : β}
    (hb : ∀ y, R a y → y = b) : (ys.filter fun y => decide (f y = g a)) = [b] := by
  induction h with
  | nil => cases ha
  | @cons x y xs ys hxy hrest ih =>
      rw [List.nodup_cons] at hnodup
      rw [List.filter_cons]
      by_cases hx : x = a
      · subst hx
        have hnone : (ys.filter fun y => decide (f y = g x)) = [] := by
          rw [List.filter_eq_nil_iff]
          intro y' hy'
          obtain ⟨x', hx', hrel⟩ := exists_related hrest.flip hy'
          rw [decide_eq_true_eq]
          intro heq
          have hsame := hinj x' (List.mem_cons_of_mem _ hx') x List.mem_cons_self
            ((hf _ _ hrel).symm.trans heq)
          exact hnodup.1 (hsame ▸ hx')
        rw [if_pos (decide_eq_true (hf x y hxy)), hnone, hb y hxy]
      · have hne : f y ≠ g a := by
          rw [hf x y hxy]
          exact fun heq => hx (hinj x List.mem_cons_self a ha heq)
        have hrest' : a ∈ xs := (List.mem_cons.mp ha).resolve_left fun heq => hx heq.symm
        rw [if_neg (by simpa using hne)]
        exact ih hnodup.2 (fun x' hx' x'' hx'' => hinj x' (List.mem_cons_of_mem _ hx') x''
          (List.mem_cons_of_mem _ hx'')) hrest'

/-- The names of the directories in a directory. -/
def directoryNames (t : Tree) (l : Location) : List ByteString :=
  (t.children l).filter fun name => decide (t.isDir (l ++ [name]))

/-- The whole search: one session for every directory in the pending directory. -/
theorem exists_findPendingArtifactSessions {artifactsDir : Path}
    (hpending : Path.absolute currentDir (artifactsDir / "pending") = some pendingDir)
    (hdir : find t pendingDir = some .dir) :
    ∃ sessions, List.Forall₂
        (fun name session => SessionAt currentDir t (pendingDir / (⟨name⟩ : Path)) session)
        (directoryNames t pendingDir.locate) sessions ∧
      ∀ clock, findPendingArtifactSessions currentDir artifactsDir (quietWorld t clock) =
        (.ok (sessions.insertionSort sortsBefore), quietWorld t clock) := by
  obtain ⟨sessions, hall, hsessions⟩ := exists_pendingSessions currentDir t
    (Path.isAbsolute_of_absolute currentDir.2 hpending)
    ((t.children pendingDir.locate).map fun name =>
      (name, decide (t.isDir (pendingDir.locate ++ [name]))))
  refine ⟨sessions, ?_, fun clock => ?_⟩
  · rw [List.filter_map, List.forall₂_map_left_iff] at hall
    exact hall
  · unfold findPendingArtifactSessions pendingArtifactsDir
    rw [absolutePath_eq_pure hpending, pure_bind, bind_ok (pathExists_quiet t clock _), hdir,
      Option.isSome_some, if_pos rfl, bind_ok (directoryEntries_quiet t clock hdir),
      bind_ok (hsessions clock)]
    rfl

/-- A directory in the pending directory is listed. -/
theorem findPendingArtifactSessions_quiet (t : Tree) (clock : List TimestampPair)
    {artifactsDir : Path}
    (hpending : Path.absolute currentDir (artifactsDir / "pending") = some pendingDir)
    (hreach : Reaches t pendingDir) {name : ByteString}
    (hdir : t.isDir (pendingDir.locate ++ [name])) :
    ∃ sessions, findPendingArtifactSessions currentDir artifactsDir (quietWorld t clock) =
        (.ok sessions, quietWorld t clock) ∧
      ∃ session ∈ sessions, IsListed t (pendingDir / (⟨name⟩ : Path)) session := by
  have hsome : (t.get? (pendingDir.locate ++ [name])).isSome := by
    rw [show t.get? (pendingDir.locate ++ [name]) = some .dir from hdir]
    rfl
  have hroot : find t pendingDir = some .dir :=
    find_eq_some_iff.mpr ⟨hreach, FileTree.isDir_of_isSome_append hsome⟩
  have habsolute := Path.isAbsolute_of_absolute currentDir.2 hpending
  obtain ⟨found, hfound, hquiet⟩ := exists_findPendingArtifactSessions hpending hroot
  have hname : name ∈ directoryNames t pendingDir.locate :=
    List.mem_filter.mpr ⟨FileTree.mem_children_iff.mpr hsome, decide_eq_true hdir⟩
  obtain ⟨session, hsession, hat⟩ := exists_related hfound hname
  exact ⟨_, hquiet clock, session, by simpa using hsession,
    hat.isListed (Path.isAbsolute_join habsolute)⟩

end Found

end BtClient
