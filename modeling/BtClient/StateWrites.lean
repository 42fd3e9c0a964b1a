import BtClient.FoundSessions
import BtClient.MetFaults
import BtClient.RetriedForm
import BtClient.UploadHistory

/-!
# Manifests that are written in part

A manifest is put together before its file is opened, and the file is empty from then on. What
arrives in it depends on whether the manifest can be dumped and on the fault that the write
meets.
-/

namespace BtClient

open Effect FileSystem

section StateWrites

variable [JsonText]

/-! ### Up to the open file, and from there -/

/-- `rewriteState` up to the open file: the manifest, and where its file is. -/
def openManifest (config : RuntimeConfig) (outputPaths : OutputPaths) (state : ArtifactState)
    (amend : TimestampPair → Json.Members → Json.Members) : Action (Json × Option Location) := do
  FileSystem.createDirectories outputPaths.artifactDir
  let now ← captureTimestamp
  let stateJson ← baseStateJson config outputPaths state now
  ensureParentDirectory outputPaths.stateJsonPath
  let opened ← FileSystem.openTruncated outputPaths.stateJsonPath
  pure (.object (amend now stateJson), opened)

/-- The rest of `write_json_file`. -/
def finishManifest (path : Path) (value : Json) : Option Location → Action Unit
  | none => throwFailure (.runtimeError ("failed to open JSON output at " ++ path.bytes))
  | some l => do
      let text ← dumpIndented value
      let good ← FileSystem.writeBuffered l (text ++ [newline])
      if good then pure ()
      else throwFailure (.runtimeError ("failed to write JSON output at " ++ path.bytes))

theorem rewriteState_eq (config : RuntimeConfig) (outputPaths : OutputPaths)
    (state : ArtifactState) (amend : TimestampPair → Json.Members → Json.Members) :
    rewriteState config outputPaths state amend =
      (do
        let opened ← openManifest config outputPaths state amend
        finishManifest outputPaths.stateJsonPath opened.1 opened.2) := by
  unfold rewriteState openManifest writeJsonFile
  simp only [bind_assoc, pure_bind]
  refine bind_congr fun _ => bind_congr fun now => bind_congr fun stateJson =>
    bind_congr fun _ => bind_congr fun opened => ?_
  cases opened <;> rfl

theorem finishManifest_of_isUtf8 (path : Path) {value : Json} (h : value.isUtf8 = true)
    (l : Location) (w : World) :
    finishManifest path value (some l) w =
      (match w.fault 0 with
        | .none | .unnoticed _ => .ok ()
        | .reported _ => .error (.thrown (.runtimeError
            ("failed to write JSON output at " ++ path.bytes)))
        | .crash _ => .error .crash,
      { w.after 1 with tree := appended w.tree l ((w.fault 0).arrived (manifestText value)) }) := by
  have hwrite := writeBuffered_eq l (manifestText value) w
  unfold finishManifest dumpIndented
  dsimp only
  rw [if_pos h, pure_bind]
  rw [manifestText_of_isUtf8 h] at hwrite ⊢
  cases hfault : w.fault 0 with
  | none =>
      rw [hfault] at hwrite
      rw [bind_ok hwrite]
      rfl
  | reported reached =>
      rw [hfault] at hwrite
      rw [bind_ok hwrite]
      rfl
  | unnoticed reached =>
      rw [hfault] at hwrite
      rw [bind_ok hwrite]
      rfl
  | crash reached =>
      rw [hfault] at hwrite
      rw [bind_error hwrite]

/-- A manifest that cannot be dumped leaves its file as it was opened. -/
theorem finishManifest_of_not_isUtf8 (path : Path) {value : Json} (h : value.isUtf8 ≠ true)
    (l : Location) (w : World) :
    finishManifest path value (some l) w = (.error (.thrown .invalidUtf8), w) := by
  unfold finishManifest dumpIndented
  rw [if_neg h]
  rfl

/-! ### The manifest that is put together -/

omit [JsonText] in
theorem isValidUtf8_jsonStringOrEmpty {value : Json} (h : value.isUtf8 = true) (key : String) :
    ByteString.IsValidUtf8 (jsonStringOrEmpty value key) := by
  unfold jsonStringOrEmpty
  split
  · next s hfind =>
      have hstring := Json.isUtf8_of_find h hfind
      exact of_decide_eq_true hstring
  · exact ByteString.isValidUtf8_ofString ""

theorem triple_createdUtcForState (t : Tree) (outputPaths : OutputPaths) (now : TimestampPair) :
    Triple (OnTree (· = t)) (createdUtcForState outputPaths now)
      (fun createdUtc w => OnTree (· = t) w ∧ ByteString.IsValidUtf8 createdUtc)
      (fun _ => OnTree (· = t)) := by
  have hnow := ByteString.isValidUtf8_ofString now.utcTs
  apply Triple.bind (readsOnly_pathExists _ t)
  intro found
  apply Triple.ite
  · intro _
    apply triple_catchFailure (S := fun _ => OnTree (· = t))
    · refine Triple.bind ((triple_readJsonFile t outputPaths.stateJsonPath).conseq
        (fun _ h => h) (fun _ _ h => h) ?_) ?_
      · intro e w h
        cases e <;> exact h
      · intro value
        apply Triple.pure
        rintro w ⟨htree, content, -, hparse⟩
        refine ⟨htree, ?_⟩
        split
        · exact hnow
        · exact isValidUtf8_jsonStringOrEmpty (JsonText.isUtf8_of_parse hparse) _
    · exact fun _ => Triple.pure fun w hw => ⟨hw, hnow⟩
  · exact fun _ => Triple.pure fun w hw => ⟨hw, hnow⟩

/-- A manifest as `rewriteState` puts it together, from strings that can be dumped and from
those of its caller. -/
def IsPutTogether (t : Tree) (config : RuntimeConfig) (outputPaths : OutputPaths)
    (state : ArtifactState) (amend : TimestampPair → Json.Members → Json.Members)
    (members : Json.Members) : Prop :=
  ∃ previous createdUtc now, Previous t outputPaths.stateJsonPath.locate previous ∧
    ByteString.IsValidUtf8 createdUtc ∧
      members = amend now (manifest config outputPaths state previous createdUtc now)

theorem IsPutTogether.isAmended {t : Tree} {config : RuntimeConfig} {outputPaths : OutputPaths}
    {state : ArtifactState} {amend : TimestampPair → Json.Members → Json.Members}
    {members : Json.Members} (h : IsPutTogether t config outputPaths state amend members) :
    IsAmended t config outputPaths state amend members := by
  obtain ⟨previous, createdUtc, now, hprevious, -, heq⟩ := h
  exact ⟨previous, createdUtc, now, hprevious, heq⟩

/-- The tree when the file of a manifest is open: it is empty, and only directories have been
added elsewhere. -/
structure IsOpened (path : Path) (t₀ t : Tree) (l : Location) : Prop where
  locate : l = path.locate
  reaches : Reaches t path
  here : t.get? l = some (.file [])
  elsewhere : ∀ k, k ≠ l → t.get? k = t₀.get? k ∨ (t₀.get? k = none ∧ t.get? k = some .dir)

namespace IsOpened

variable {path : Path} {t₀ t : Tree} {l : Location}

omit [JsonText] in
theorem get?_appended (h : IsOpened path t₀ t l) (data : ByteString) (k : Location) :
    (appended t l data).get? k = if k = l then some (.file data) else t.get? k := by
  rw [FileSystem.get?_appended h.here]
  rfl

omit [JsonText] in
/-- What is written to the open file is found at its path. -/
theorem find_appended (h : IsOpened path t₀ t l) (data : ByteString) :
    find (appended t l data) path = some (.file data) := by
  refine find_eq_some_iff.mpr ⟨fun d hd => ?_, ?_⟩
  · have hdir := h.reaches d hd
    have hne : d ≠ l := by
      rintro rfl
      rw [FileTree.isDir, h.here] at hdir
      cases hdir
    rw [FileTree.isDir, h.get?_appended, if_neg hne]
    exact hdir
  · rw [h.get?_appended, if_pos h.locate.symm]

end IsOpened

/-- What has happened when the file of a manifest has been opened, or could not be. -/
theorem triple_openManifest (t₀ : Tree) (config : RuntimeConfig) (outputPaths : OutputPaths)
    (state : ArtifactState) (amend : TimestampPair → Json.Members → Json.Members) :
    Triple (OnTree (· = t₀)) (openManifest config outputPaths state amend)
      (fun opened => OnTree fun t =>
        (∃ members, opened.1 = .object members ∧
          IsPutTogether t₀ config outputPaths state amend members) ∧
        match opened.2 with
        | none => Extends t₀ t
        | some l => IsOpened outputPaths.stateJsonPath t₀ t l)
      (fun _ => OnTree (Extends t₀)) := by
  unfold openManifest
  refine Triple.bind (S := fun _ => OnTree (Extends t₀))
    ((createDirectories_extends t₀ outputPaths.artifactDir).conseq (fun _ h => h)
      (fun _ _ h => h.1) fun _ _ h => h) ?_
  intro _
  apply triple_onTree
  intro t₁ hext
  refine Triple.bind ((readsOnly_captureTimestamp t₁).conseq (fun _ h => h) (fun _ _ h => h)
    fun _ _ h => onTree_of_eq h hext) ?_
  intro now
  unfold baseStateJson
  simp only [bind_assoc, pure_bind]
  refine Triple.bind ((triple_loadExistingStateOrEmpty t₁ outputPaths).conseq (fun _ h => h)
    (fun _ _ h => h) fun _ _ h => onTree_of_eq h hext) ?_
  intro previous
  apply Triple.of_pre
  intro hprevious
  refine Triple.bind ((triple_createdUtcForState t₁ outputPaths now).conseq (fun _ h => h)
    (fun _ _ h => h) fun _ _ h => onTree_of_eq h hext) ?_
  intro createdUtc
  apply Triple.of_pre
  intro hcreated
  have htogether : IsPutTogether t₀ config outputPaths state amend
      (amend now (manifest config outputPaths state previous createdUtc now)) :=
    ⟨previous, createdUtc, now, hprevious.of_extends hext, hcreated, rfl⟩
  refine Triple.bind ((triple_ensureParentDirectory t₁ outputPaths.stateJsonPath).conseq
    (fun _ h => h) (fun _ _ h => h) fun _ _ h => hext.trans h) ?_
  intro _
  apply triple_onTree
  intro t₂ hmore
  have hext₂ := hext.trans hmore
  refine Triple.bind ((triple_openTruncated t₂ outputPaths.stateJsonPath).conseq (fun _ h => h)
    (fun _ _ h => h) fun _ _ h => onTree_of_eq h hext₂) ?_
  intro opened
  cases opened with
  | none => exact Triple.pure fun w hw => onTree_of_eq hw ⟨⟨_, rfl, htogether⟩, hext₂⟩
  | some l =>
      apply Triple.pure
      rintro w ⟨rfl, hreach, hw, htree⟩
      have hempty : w.tree.get? outputPaths.stateJsonPath.locate = some (.file []) := by
        rw [htree, FileTree.get?_put, if_pos rfl]
      have helse : ∀ k, k ≠ outputPaths.stateJsonPath.locate → w.tree.get? k = t₂.get? k := by
        intro k hk
        rw [htree, FileTree.get?_put, if_neg hk]
      refine ⟨⟨_, rfl, htogether⟩, rfl, ?_, hempty, ?_⟩
      · intro d hd
        have hdir := hreach d hd
        rw [FileTree.isDir, helse d fun heq => hw.2.2 (heq ▸ hdir)]
        exact hdir
      · intro k hk
        rw [helse k hk]
        exact hext₂ k

/-! ### Which manifests can be dumped -/

omit [JsonText] in
theorem isUtf8_keepMember {previous : Json} {key : String} {accepts : Json → Bool}
    {members : Json.Members} (h : (Json.object members).isUtf8 = true)
    (hprevious : previous.isUtf8 = true) :
    (Json.object (keepMember previous key accepts members)).isUtf8 = true := by
  unfold keepMember
  cases hfind : previous.find key with
  | none => exact h
  | some value =>
      dsimp only
      split
      · exact Json.Members.isUtf8_set h (Json.isUtf8_of_find hprevious hfind)
      · exact h

omit [JsonText] in
theorem isUtf8_string {s : ByteString} : (Json.string s).isUtf8 = true ↔ s.IsValidUtf8 := by
  rw [Json.isUtf8, decide_eq_true_iff]

/-- The strings of its caller that a call puts into the manifest. -/
def Call.strings (call : Call) : List ByteString :=
  [call.caller.config.runId, call.caller.config.sessionId,
    call.caller.outputPaths.artifactDir.bytes, call.caller.outputPaths.stateJsonPath.bytes,
    call.caller.outputPaths.eventLogPath.bytes, call.caller.outputPaths.summaryJsonPath.bytes] ++
  match call.write with
  | .writeArtifactState _ => []
  | .recordArtifactUploadFailure errorMessage =>
      [call.caller.config.destinationUrl, errorMessage]

/-- The strings of its caller can be dumped. -/
def Call.IsUtf8 (call : Call) : Prop := ∀ s ∈ call.strings, s.IsValidUtf8

section Strings

variable {call : Call} {previous : Json} {createdUtc : ByteString} {now : TimestampPair}

omit [JsonText] in
theorem isUtf8_manifest {config : RuntimeConfig} {outputPaths : OutputPaths}
    (now : TimestampPair) (state : ArtifactState) (hprevious : previous.isUtf8 = true)
    (hcreated : createdUtc.IsValidUtf8)
    (h : ∀ s ∈ [config.runId, config.sessionId, outputPaths.artifactDir.bytes,
      outputPaths.stateJsonPath.bytes, outputPaths.eventLogPath.bytes,
      outputPaths.summaryJsonPath.bytes], s.IsValidUtf8) :
    (Json.object (manifest config outputPaths state previous createdUtc now)).isUtf8 = true := by
  simp only [List.forall_mem_cons, List.not_mem_nil, false_implies, implies_true,
    and_true] at h
  obtain ⟨hrun, hsession, hdir, hstate, hevent, hsummary⟩ := h
  have hfiles : (filesMember outputPaths).isUtf8 = true := by
    apply Json.isUtf8_obj
    simp [isUtf8_string, hstate, hevent, hsummary]
  have hmembers : (Json.object (manifestMembers config outputPaths state createdUtc
      now)).isUtf8 = true := by
    apply Json.isUtf8_obj
    simp only [List.forall_mem_cons, List.not_mem_nil, false_implies, implies_true, and_true,
      isUtf8_string, Json.isUtf8_text]
    exact ⟨rfl, trivial, hrun, hsession, hcreated, trivial, hdir, rfl, hfiles⟩
  exact isUtf8_keepMember (isUtf8_keepMember (isUtf8_keepMember
    (isUtf8_keepMember hmembers hprevious) hprevious) hprevious) hprevious

omit [JsonText] in
theorem isUtf8_withUploadFailure {failure : Json} {members : Json.Members}
    (h : (Json.object members).isUtf8 = true) (hfailure : failure.isUtf8 = true) :
    (Json.object (withUploadFailure failure now members)).isUtf8 = true := by
  have hhistory : ∀ v ∈ failureHistory (.object members), v.isUtf8 = true := by
    unfold failureHistory
    cases hfind : (Json.object members).find "upload_failures" with
    | none => simp
    | some value =>
        have hvalue := Json.isUtf8_of_find h hfind
        cases value with
        | array items => exact Json.itemsAreUtf8_iff.mp hvalue
        | _ => simp
  have hfailures : (Json.array (failureHistory (.object members) ++ [failure])).isUtf8 =
      true := by
    apply Json.itemsAreUtf8_iff.mpr
    intro v hv
    rcases List.mem_append.mp hv with hv | hv
    · exact hhistory v hv
    · rw [List.mem_singleton.mp hv]
      exact hfailure
  exact Json.Members.isUtf8_set (Json.Members.isUtf8_set (Json.Members.isUtf8_set
    (Json.Members.isUtf8_set h hfailures) hfailure) rfl) (Json.isUtf8_text _)

omit [JsonText] in
theorem lookup_amend_manifest (call : Call) (previous : Json) (key : String)
    (hkey : key ∉ historyKeys) :
    (Json.object (call.amend now (manifest call.caller.config call.caller.outputPaths call.state
      previous createdUtc now))).find key =
        (manifestMembers call.caller.config call.caller.outputPaths call.state createdUtc
          now).lookup key := by
  rw [Json.find, call.lookup_amend _ _ hkey, lookup_manifest hkey]

omit [JsonText] in
/-- The manifest of a call can be dumped just when the strings of its caller can. -/
theorem isUtf8_amend_iff (hprevious : previous.isUtf8 = true) (hcreated : createdUtc.IsValidUtf8) :
    (Json.object (call.amend now (manifest call.caller.config call.caller.outputPaths call.state
      previous createdUtc now))).isUtf8 = true ↔ call.IsUtf8 := by
  constructor
  · intro h
    have hmember : ∀ (key : String) {s : ByteString}, key ∉ historyKeys →
        (manifestMembers call.caller.config call.caller.outputPaths call.state createdUtc
          now).lookup key = some (.string s) → s.IsValidUtf8 := by
      intro key s hkey hlookup
      have hfind := (lookup_amend_manifest call previous key hkey).trans hlookup
      exact isUtf8_string.mp (Json.isUtf8_of_find h hfind)
    have hfiles : (filesMember call.caller.outputPaths).isUtf8 = true := by
      apply Json.isUtf8_of_find h (k := "files")
      rw [lookup_amend_manifest _ _ _ (by decide), lookup_manifestMembers]
      rfl
    have hfile : ∀ {key : String} {s : ByteString},
        (filesMember call.caller.outputPaths).find key = some (.string s) → s.IsValidUtf8 :=
      fun hfind => isUtf8_string.mp (Json.isUtf8_of_find hfiles hfind)
    have hmanifest : ∀ s ∈ [call.caller.config.runId, call.caller.config.sessionId,
        call.caller.outputPaths.artifactDir.bytes, call.caller.outputPaths.stateJsonPath.bytes,
        call.caller.outputPaths.eventLogPath.bytes,
        call.caller.outputPaths.summaryJsonPath.bytes], s.IsValidUtf8 := by
      simp only [List.forall_mem_cons, List.not_mem_nil, false_implies, implies_true, and_true]
      exact ⟨hmember "run_id" (by decide) (lookup_manifestMembers _),
        hmember "session_id" (by decide) (lookup_manifestMembers _),
        hmember "artifact_dir" (by decide) (lookup_manifestMembers _),
        hfile (find_filesMember "state_json"), hfile (find_filesMember "event_log"),
        hfile (find_filesMember "summary_json")⟩
    intro s hs
    rcases List.mem_append.mp hs with hs | hs
    · exact hmanifest s hs
    · obtain ⟨caller, write⟩ := call
      cases write with
      | writeArtifactState state => cases hs
      | recordArtifactUploadFailure errorMessage =>
          have hfailure : (uploadFailure caller.config errorMessage now).isUtf8 = true := by
            apply Json.isUtf8_of_find h (k := "last_upload_failure")
            simp [Json.find, Call.amend, withUploadFailure, Json.Members.lookup_set]
          have hentry : ∀ {key : String} {t : ByteString},
              (uploadFailure caller.config errorMessage now).find key = some (.string t) →
                t.IsValidUtf8 :=
            fun hfind => isUtf8_string.mp (Json.isUtf8_of_find hfailure hfind)
          rcases List.mem_cons.mp hs with rfl | hs
          · exact hentry (Json.find_obj (by simp) "destination_url")
          · rw [List.mem_singleton.mp hs]
            exact hentry (Json.find_obj (by simp) "error")
  · intro h
    have hmanifest := isUtf8_manifest now call.state hprevious hcreated
      fun s hs => h s (List.mem_append_left _ hs)
    obtain ⟨caller, write⟩ := call
    cases write with
    | writeArtifactState state => exact hmanifest
    | recordArtifactUploadFailure errorMessage =>
        apply isUtf8_withUploadFailure hmanifest
        have hurl : caller.config.destinationUrl.IsValidUtf8 :=
          h _ (List.mem_append_right _ List.mem_cons_self)
        have herror : errorMessage.IsValidUtf8 :=
          h _ (List.mem_append_right _ (List.mem_cons_of_mem _ List.mem_cons_self))
        apply Json.isUtf8_obj
        simp [isUtf8_string, hurl, herror]

end Strings

/-! ### What is still found -/

section StillFound

variable {t t' : Tree}

/-- Every session that the search finds ready is found as it was, and its manifest says what
it said. -/
def StillFound (t t' : Tree) : Prop :=
  ∀ (currentDir : CurrentDir) (artifactsDir : Path) (clock : List TimestampPair)
    (sessions : List PendingArtifactSession) (session : PendingArtifactSession),
    findPendingArtifactSessions currentDir artifactsDir (quietWorld t clock) =
        (.ok sessions, quietWorld t clock) →
      session ∈ sessions → session.state = .readyToUpload →
        (∃ sessions', findPendingArtifactSessions currentDir artifactsDir (quietWorld t' clock) =
          (.ok sessions', quietWorld t' clock) ∧ session ∈ sessions') ∧
        ∀ value, Holds t (session.outputPaths.artifactDir / "state.json") value →
          Holds t' (session.outputPaths.artifactDir / "state.json") value

omit [JsonText] in
theorem find_of_extends (h : Extends t t') {p : Path} {node : Node ByteString}
    (hfind : find t p = some node) : find t' p = some node := by
  obtain ⟨hreach, hget⟩ := find_eq_some_iff.mp hfind
  exact find_eq_some_iff.mpr ⟨h.reaches hreach, h.get?_eq_some hget⟩

/-- A search that finds something has looked into a directory. -/
theorem exists_pendingDir {currentDir : CurrentDir} {artifactsDir : Path}
    {clock : List TimestampPair} {sessions : List PendingArtifactSession}
    {session : PendingArtifactSession}
    (hfind : findPendingArtifactSessions currentDir artifactsDir (quietWorld t clock) =
      (.ok sessions, quietWorld t clock)) (hmem : session ∈ sessions) :
    ∃ pendingDir, Path.absolute currentDir (artifactsDir / "pending") = some pendingDir ∧
      find t pendingDir = some .dir := by
  unfold findPendingArtifactSessions pendingArtifactsDir absolutePath at hfind
  cases hpending : Path.absolute currentDir (artifactsDir / "pending") with
  | none =>
      rw [hpending] at hfind
      cases hfind
  | some pendingDir =>
      rw [hpending] at hfind
      refine ⟨pendingDir, rfl, ?_⟩
      dsimp only at hfind
      rw [pure_bind, bind_ok (pathExists_quiet t clock pendingDir)] at hfind
      cases hnode : find t pendingDir with
      | none =>
          rw [hnode] at hfind
          cases hfind
          cases hmem
      | some node =>
          cases node with
          | dir => rfl
          | file content =>
              obtain ⟨hreach, hget⟩ := find_eq_some_iff.mp hnode
              have hnot : ¬ t.isDir pendingDir.locate := by
                rw [FileTree.isDir, hget]
                simp
              have hentries : directoryEntries pendingDir (quietWorld t clock) =
                  (.error (.thrown .filesystemError), quietWorld t clock) := by
                have htree : (do
                    checkpoint
                    tree) (quietWorld t clock) = (.ok t, quietWorld t clock) := rfl
                unfold directoryEntries
                rw [← bind_assoc, bind_ok htree, resolve_of_reaches hreach]
                dsimp only
                rw [if_neg hnot]
                rfl
              rw [hnode, Option.isSome_some, if_pos rfl, bind_error hentries] at hfind
              cases hfind

/-- New directories do not hide a session. -/
theorem stillFound_of_extends (h : Extends t t') : StillFound t t' := by
  intro currentDir artifactsDir clock sessions session hfind hmem hready
  obtain ⟨pendingDir, hpending, hdir⟩ := exists_pendingDir hfind hmem
  have habsolute := Path.isAbsolute_of_absolute currentDir.2 hpending
  have hentry : ∀ name : ByteString, (pendingDir / (⟨name⟩ : Path)).isAbsolute = true :=
    fun name => Path.isAbsolute_join habsolute
  obtain ⟨found, hfound, hquiet⟩ := exists_findPendingArtifactSessions hpending hdir
  obtain ⟨found', hfound', hquiet'⟩ :=
    exists_findPendingArtifactSessions hpending (find_of_extends h hdir)
  have hsessions : sessions = found.insertionSort sortsBefore := by
    have heq := hfind.symm.trans (hquiet clock)
    cases heq
    rfl
  subst hsessions
  obtain ⟨name, hname, hat⟩ : ∃ name ∈ directoryNames t pendingDir.locate,
      SessionAt currentDir t (pendingDir / (⟨name⟩ : Path)) session := by
    have hmem' : session ∈ found := by simpa using hmem
    exact exists_related hfound.flip hmem'
  have hsome : find t (pendingDir / (⟨name⟩ : Path) / "state.json") ≠ none :=
    hat.find_ne_none (hentry name) (by rw [hready]; decide)
  obtain ⟨node, hnode⟩ := Option.ne_none_iff_exists'.mp hsome
  have hat' : SessionAt currentDir t' (pendingDir / (⟨name⟩ : Path)) session :=
    hat.congr (hentry name) (by rw [hnode, find_of_extends h hnode])
  refine ⟨⟨_, hquiet' clock, ?_⟩, ?_⟩
  · have hname' : name ∈ directoryNames t' pendingDir.locate := by
      rw [directoryNames, List.mem_filter, FileTree.mem_children_iff, decide_eq_true_iff] at hname ⊢
      have hisDir := h.isDir hname.2
      exact ⟨by rw [show t'.get? _ = some .dir from hisDir]; rfl, hisDir⟩
    obtain ⟨session', hsession', hthis⟩ := exists_related hfound' hname'
    rw [List.mem_insertionSort, hat'.unique hthis]
    exact hsession'
  · rintro value ⟨content, hcontent, hparse⟩
    exact ⟨content, find_of_extends h hcontent, hparse⟩

end StillFound

end StateWrites

end BtClient
