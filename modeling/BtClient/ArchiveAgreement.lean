import BtClient.ArchivePath

/-!
# When the check and the archive agree

A request for a session with one name is tested at the place that it is moved to, and
nothing that it writes itself is in the way. A request without one can be accepted in a
world where its place in the archive is taken.
-/

namespace BtClient

open Effect FileSystem

/-! ### What archiving does not throw -/

section NotArchived

variable {α β : Type}

/-- The computation does not say that a place in the archive is taken. -/
abbrev NotArchived (m : Action α) : Prop :=
  ∀ archiveDir, Avoids (.thrown (archiveExists archiveDir)) m

theorem notArchived_bind {m : Action α} {f : α → Action β} (hm : NotArchived m)
    (hf : ∀ a, NotArchived (f a)) : NotArchived (m >>= f) :=
  fun archiveDir => Avoids.bind (hm archiveDir) fun a => hf a archiveDir

theorem notArchived_pure (a : α) : NotArchived (pure a : Action α) := fun _ => Avoids.pure a

theorem notArchived_crash : NotArchived (Effect.throw .crash : Action α) :=
  fun _ => Avoids.throw Stop.noConfusion

theorem notArchived_throwFailure {f : Failure} (h : ∀ archiveDir, f ≠ archiveExists archiveDir) :
    NotArchived (throwFailure f : Action α) :=
  fun archiveDir => Avoids.throw fun heq => h archiveDir (Stop.thrown.inj heq)

theorem notArchived_filesystemError :
    NotArchived (throwFailure .filesystemError : Action α) :=
  notArchived_throwFailure fun _ => Failure.noConfusion

/-- Messages that begin with different letters are different. -/
theorem runtimeError_ne_archiveExists {s : String} {c : UInt8} (b : ByteString)
    (hs : (ByteString.ofString s).head? = some c) (hc : c ≠ 97) (archiveDir : Path) :
    Failure.runtimeError (ByteString.ofString s ++ b) ≠ archiveExists archiveDir := by
  intro heq
  have hhead := congrArg List.head? (Failure.runtimeError.inj heq)
  have harchive : (ByteString.ofString "archive artifact directory already exists: ").head? =
      some 97 := by decide
  rw [List.head?_append, List.head?_append, hs, harchive] at hhead
  exact hc (Option.some.inj hhead)

theorem notArchived_nextFault : NotArchived nextFault := by
  rintro archiveDir ⟨tree, faults, clock⟩ -
  cases faults <;> exact True.intro

theorem notArchived_checkpoint : NotArchived checkpoint := by
  apply notArchived_bind notArchived_nextFault
  intro fault
  cases fault with
  | none => exact notArchived_pure _
  | reported reached => exact notArchived_filesystemError
  | unnoticed reached => exact notArchived_pure _
  | crash reached => exact notArchived_crash

theorem notArchived_tree : NotArchived tree := fun _ _ _ => True.intro

theorem notArchived_setTree (t : Tree) : NotArchived (setTree t) := fun _ _ _ => True.intro

theorem notArchived_captureTimestamp : NotArchived captureTimestamp := by
  rintro archiveDir ⟨tree, faults, clock⟩ -
  cases clock <;> exact True.intro

theorem notArchived_absolutePath (currentDir : CurrentDir) (p : Path) :
    NotArchived (absolutePath currentDir p) := by
  unfold absolutePath
  split
  · exact notArchived_pure _
  · exact notArchived_filesystemError

theorem notArchived_pathExists (p : Path) : NotArchived (pathExists p) :=
  notArchived_bind notArchived_checkpoint fun _ =>
    notArchived_bind notArchived_tree fun _ => notArchived_pure _

theorem notArchived_ensureDirectory (l : Location) : NotArchived (ensureDirectory l) := by
  apply notArchived_bind notArchived_tree
  intro t
  split
  · exact notArchived_pure _
  · exact notArchived_filesystemError
  · apply notArchived_bind notArchived_checkpoint
    intro _
    split
    · exact notArchived_setTree _
    · exact notArchived_filesystemError

theorem notArchived_createDirectories (p : Path) : NotArchived (createDirectories p) := by
  have hall : ∀ (components : List (PathComponent ByteString)) (l : Location),
      NotArchived (ensureDirectories l components) := by
    intro components
    induction components with
    | nil => exact notArchived_ensureDirectory
    | cons c rest ih =>
        exact fun l => notArchived_bind (notArchived_ensureDirectory l) fun _ => ih (c.next l)
  exact hall p.components []

theorem notArchived_rename (source destination : Path) :
    NotArchived (rename source destination) := by
  apply notArchived_bind notArchived_checkpoint
  intro _
  apply notArchived_bind notArchived_tree
  intro t
  split
  · exact notArchived_filesystemError
  · split
    · split
      · exact notArchived_setTree _
      · exact notArchived_filesystemError
    · exact notArchived_filesystemError

theorem notArchived_openTruncated (p : Path) : NotArchived (openTruncated p) := by
  apply notArchived_bind notArchived_nextFault
  intro fault
  cases fault
  case reported => exact notArchived_pure _
  case crash => exact notArchived_crash
  all_goals
    apply notArchived_bind notArchived_tree
    intro t
    split
    · split
      · exact notArchived_bind (notArchived_setTree _) fun _ => notArchived_pure _
      · exact notArchived_pure _
    · exact notArchived_pure _

theorem notArchived_writeBuffered (l : Location) (data : ByteString) :
    NotArchived (writeBuffered l data) := by
  have happend : ∀ (data : ByteString) {r : Action Bool}, NotArchived r →
      NotArchived (do
        append l data
        r) :=
    fun data r hr => notArchived_bind
      (notArchived_bind notArchived_tree fun _ => notArchived_setTree _) fun _ => hr
  apply notArchived_bind notArchived_nextFault
  intro fault
  cases fault with
  | none => exact happend _ (notArchived_pure _)
  | reported reached => exact happend _ (notArchived_pure _)
  | unnoticed reached => exact happend _ (notArchived_pure _)
  | crash reached => exact happend _ notArchived_crash

theorem notArchived_catchFailure {m : Action α} {handler : Failure → Action α}
    (hh : ∀ f, NotArchived (handler f)) : NotArchived (catchFailure m handler) := by
  intro archiveDir
  apply Avoids.handle
  intro e
  cases e with
  | thrown f => exact hh f archiveDir
  | crash => exact notArchived_crash archiveDir

variable [JsonText]

theorem notArchived_baseStateJson (config : RuntimeConfig) (outputPaths : OutputPaths)
    (state : ArtifactState) (now : TimestampPair) :
    NotArchived (baseStateJson config outputPaths state now) := by
  have hread : ∀ {γ : Type} (p : Path) (m : Action γ) (fallback : γ), NotArchived (do
      if ← pathExists p then
        catchFailure m fun _ => pure fallback
      else pure fallback : Action γ) := by
    intro γ p m fallback
    apply notArchived_bind (notArchived_pathExists p)
    intro found
    split
    · exact notArchived_catchFailure fun _ => notArchived_pure _
    · exact notArchived_pure _
  exact notArchived_bind (hread _ _ _) fun _ =>
    notArchived_bind (hread _ _ _) fun _ => notArchived_pure _

theorem notArchived_writeJsonFile (path : Path) (value : Json) :
    NotArchived (writeJsonFile path value) := by
  have hmessage : ∀ (s : String) {c : UInt8}, (ByteString.ofString s).head? = some c → c ≠ 97 →
      NotArchived (throwFailure (.runtimeError (s ++ path.bytes)) : Action Unit) :=
    fun s c hs hc => notArchived_throwFailure (runtimeError_ne_archiveExists _ hs hc)
  have hparent : NotArchived (ensureParentDirectory path) := by
    unfold ensureParentDirectory
    split
    · exact notArchived_pure _
    · exact notArchived_createDirectories _
  apply notArchived_bind hparent
  intro _
  apply notArchived_bind (notArchived_openTruncated path)
  intro opened
  cases opened with
  | none => exact hmessage "failed to open JSON output at " (c := 102) (by decide) (by decide)
  | some l =>
      have hdump : NotArchived (dumpIndented value) := by
        unfold dumpIndented
        split
        · exact notArchived_pure _
        · exact notArchived_throwFailure fun _ => Failure.noConfusion
      apply notArchived_bind hdump
      intro text
      apply notArchived_bind (notArchived_writeBuffered l _)
      intro good
      split
      · exact notArchived_pure _
      · exact hmessage "failed to write JSON output at " (c := 102) (by decide) (by decide)

theorem notArchived_writeArtifactState (config : RuntimeConfig) (outputPaths : OutputPaths)
    (state : ArtifactState) : NotArchived (writeArtifactState config outputPaths state) := by
  apply notArchived_bind (notArchived_createDirectories _)
  intro _
  apply notArchived_bind notArchived_captureTimestamp
  intro now
  apply notArchived_bind (notArchived_baseStateJson config outputPaths state now)
  exact fun _ => notArchived_writeJsonFile _ _

/-- Where the place in the archive is free, archiving does not find it taken. -/
theorem archiveArtifactSession_ne_archiveExists {currentDir : CurrentDir}
    {config : RuntimeConfig} {outputPaths : OutputPaths} {renamed : Path} {w : World}
    (hrenamed : renamedArchiveDir currentDir config outputPaths = some renamed)
    (hfree : find w.tree renamed = none) (archiveDir : Path) :
    (archiveArtifactSession currentDir config outputPaths w).1 ≠
      .error (.thrown (archiveExists archiveDir)) := by
  have havoid : Triple (OnTree (· = w.tree))
      (archiveArtifactSession currentDir config outputPaths) (fun _ _ => True)
        (fun e _ => e ≠ .thrown (archiveExists archiveDir)) := by
    obtain ⟨archiveRoot, hroot, rfl⟩ := Option.map_eq_some_iff.mp hrenamed
    unfold archiveArtifactSession archiveArtifactsDir absolutePath
    rw [hroot]
    apply Triple.pure_bind
    dsimp only
    refine Triple.bind (((triple_pathExists w.tree _).and
      (notArchived_pathExists _ archiveDir)).conseq (fun _ h => ⟨h, True.intro⟩)
        (fun _ _ h => h.1) fun _ _ h => h.2) fun found => ?_
    apply Triple.of_pre
    rintro rfl
    rw [hfree, Option.isSome_none, if_neg Bool.false_ne_true]
    have hrest : ∀ {γ : Type} {m : Action γ}, NotArchived m → Triple (OnTree (· = w.tree)) m
        (fun _ _ => True) (fun e _ => e ≠ .thrown (archiveExists archiveDir)) :=
      fun hm => (hm archiveDir).conseq (fun _ _ => True.intro) (fun _ _ h => h) fun _ _ h => h
    apply hrest
    apply notArchived_bind (notArchived_createDirectories _)
    intro _
    apply notArchived_bind (notArchived_rename _ _)
    intro _
    apply notArchived_bind (notArchived_bind (notArchived_absolutePath currentDir _)
      fun _ => notArchived_pure _)
    intro archivedOutputPaths
    apply notArchived_bind (notArchived_writeArtifactState config archivedOutputPaths _)
    exact fun _ => notArchived_pure _
  intro herror
  exact havoid.apply_error rfl (Prod.ext herror rfl) rfl

end NotArchived

/-! ### Writes keep what is elsewhere -/

section Capture

variable [JsonText] {outputPaths : OutputPaths} {k : Location}

omit [JsonText] in
theorem OutputPaths.notMem_places (hk : k ∉ outputPaths.places) {p : Path}
    (hp : p ∈ [outputPaths.artifactDir, outputPaths.stateJsonPath, outputPaths.eventLogPath,
      outputPaths.summaryJsonPath]) : k ∉ p.visited ∧ k ≠ p.locate := by
  have hnot : k ∉ p.places := fun hplace => hk (List.mem_flatMap.mpr ⟨p, hp, hplace⟩)
  rwa [Path.mem_places, not_or] at hnot

/-- Writing a manifest keeps what is not in a place of the session. -/
theorem keeps_rewriteState_elsewhere (hk : k ∉ outputPaths.places)
    (node : Option (Node ByteString)) (config : RuntimeConfig) (state : ArtifactState)
    (amend : TimestampPair → Json.Members → Json.Members) :
    Keeps (OnTree fun t => t.get? k = node) (rewriteState config outputPaths state amend) := by
  have hdir := OutputPaths.notMem_places hk (p := outputPaths.artifactDir) (by simp)
  have hstate := OutputPaths.notMem_places hk (p := outputPaths.stateJsonPath) (by simp)
  have hparent : Keeps (OnTree fun t => t.get? k = node)
      (ensureParentDirectory outputPaths.stateJsonPath) := by
    unfold ensureParentDirectory
    cases hempty : outputPaths.stateJsonPath.parentPath.isEmpty with
    | true => exact Keeps.pure _
    | false =>
        rw [if_neg Bool.false_ne_true]
        apply keeps_createDirectories_elsewhere
        · exact fun hvisited =>
            hstate.1 (Path.mem_visited_of_parentPath hempty (Or.inl hvisited))
        · exact fun heq => hstate.1 (Path.mem_visited_of_parentPath hempty (Or.inr heq))
  exact keeps_rewriteState (keeps_createDirectories_elsewhere hdir.1 hdir.2 node) hparent
    (ignores_get? hstate.2 node) config state amend

end Capture

/-! ### Requests with one name keep their place -/

section HasName

variable {currentDir : CurrentDir} {request first second : Request} {n : ByteString}
  {base : Path}

/-- What an accepted request has found. -/
theorem isNewSession_of_isAccepted {w w' : World} {outputPaths : OutputPaths}
    (hbase : IsBase currentDir request.config base)
    (h : request.IsAccepted currentDir w outputPaths w') :
    IsNewSession w.tree outputPaths.artifactDir
      (base / "archive" / (⟨request.config.sessionId⟩ : Path)) := by
  obtain ⟨-, ⟨archiveDir, harchiveDir, hnew⟩, -⟩ := (triple_prepareOutputPaths w.tree currentDir
    request.config request.eventLogOverride request.summaryJsonOverride).apply_ok rfl h
  rwa [Option.some.inj (hbase.tested.symm.trans harchiveDir)]

namespace Request.HasName

/-- After the session has been accepted, nothing but itself can take its place. -/
theorem find_renamed_eq_none (h : request.HasName currentDir n)
    (hbase : IsBase currentDir request.config base) {w w' : World} {outputPaths : OutputPaths}
    (haccepted : request.IsAccepted currentDir w outputPaths w') {t : Tree}
    (hown : OwnChanges outputPaths w'.tree t) :
    find t (base / "archive" / (⟨n⟩ : Path)) = none := by
  have hprepared := isPrepared_of_isAccepted haccepted
  have hplaces := h.notMem_places hbase hprepared
  have hbefore : w.tree.get? ((base / "archive").locate ++ [n]) = none := by
    by_contra hsome
    exact h.find_tested_ne_none hbase (Option.isSome_iff_ne_none.mpr hsome)
      (isNewSession_of_isAccepted hbase haccepted).archive
  have hafter : w'.tree.get? ((base / "archive").locate ++ [n]) = none :=
    (triple_prepareOutputPaths_elsewhere request.config request.eventLogOverride
      request.summaryJsonOverride).apply_ok hbefore haccepted hplaces
  cases hfind : find t (base / "archive" / (⟨n⟩ : Path)) with
  | none => rfl
  | some node =>
      have hget := (find_eq_some_iff.mp hfind).2
      rw [h.locate_renamed, hown _ hplaces, hafter] at hget
      cases hget

/-- A manifest can be read only if the directory of its session is in the pending
directory. -/
theorem reaches_pending (h : request.HasName currentDir n) {t : Tree} {name : Path}
    {node : Node ByteString} (hname : Path.IsName name.bytes)
    (hfind : find t (base / "pending" / (⟨request.config.sessionId⟩ : Path) / name) =
      some node) :
    Reaches t (base / "pending") ∧ t.isDir ((base / "pending").locate ++ [n]) := by
  obtain ⟨hreach, hdir⟩ := (reaches_join_name hname).mp (find_eq_some_iff.mp hfind).1
  refine ⟨fun d hd => hreach d (h.single.mem_visited_join.mpr (Or.inl hd)), ?_⟩
  rwa [h.single.locate_join] at hdir

variable [JsonText]

theorem pathsAgree (h : request.HasName currentDir n) : request.PathsAgree currentDir := by
  obtain ⟨base, hbase⟩ := exists_isBase currentDir request.config
  constructor
  · intro w outputPaths w' haccepted
    refine ⟨_, _, hbase.tested, h.renamed hbase (isPrepared_of_isAccepted haccepted), ?_⟩
    rw [h.locate_tested, h.locate_renamed]
  · intro w outputPaths w' haccepted
    exact ⟨_, n, hbase.pending, h.locate_artifactDir hbase (isPrepared_of_isAccepted haccepted)⟩
  · intro w outputPaths w' haccepted v hown archiveDir
    exact archiveArtifactSession_ne_archiveExists
      (h.renamed hbase (isPrepared_of_isAccepted haccepted))
      (h.find_renamed_eq_none hbase haccepted hown) archiveDir
  · intro w outputPaths w' haccepted t clock value hvalue hstate
    have hprepared := isPrepared_of_isAccepted haccepted
    obtain ⟨content, hfind, hparse⟩ := id hvalue
    rw [hprepared.stateJsonPath, hbase.artifactDir hprepared] at hfind
    obtain ⟨hreach, hdir⟩ := h.reaches_pending (by decide) hfind
    obtain ⟨sessions, hsessions, session, hmem, hpath, hlisted⟩ :=
      findPendingArtifactSessions_quiet t clock hbase.pending hreach hdir
    have hlocate : session.outputPaths.artifactDir.locate = outputPaths.artifactDir.locate := by
      rw [hpath, Path.locate_join_name _ h.single.isName,
        h.locate_artifactDir hbase hprepared]
    have hsame : Holds t (base / "pending" / (⟨n⟩ : Path) / "state.json") value := by
      refine ⟨content, find_eq_some_iff.mpr ⟨?_, ?_⟩, hparse⟩
      · refine (reaches_join_name (by decide)).mpr
          ⟨(reaches_join_name h.single.isName).mpr ⟨hreach, ?_⟩, ?_⟩
        · exact FileTree.isDir_of_isSome_append (by rw [show t.get? _ = _ from hdir]; rfl)
        · rwa [Path.locate_join_name _ h.single.isName]
      · have hget := (find_eq_some_iff.mp hfind).2
        rw [locate_stateJson, manifestLocation, h.single.locate_join] at hget
        rwa [locate_stateJson, manifestLocation, Path.locate_join_name _ h.single.isName]
    refine ⟨sessions, hsessions, session, hmem, ?_, hlocate⟩
    rw [hlisted value hsame, hstate]
    decide

omit [JsonText] in
theorem placesDiffer {m : ByteString} (hfirst : first.HasName currentDir n)
    (hsecond : second.HasName currentDir m)
    (hsame : first.config.artifactsDir = second.config.artifactsDir) :
    PlacesDiffer currentDir first second := by
  obtain ⟨base, hbase⟩ := exists_isBase currentDir first.config
  have hbase' : IsBase currentDir second.config base :=
    ⟨hsame ▸ hbase.pending, hsame ▸ hbase.archive⟩
  intro w₁ outputPaths₁ w₁' w₂ outputPaths₂ w₂' haccepted₁ haccepted₂ hkept renamed₁ renamed₂
    hrenamed₁ hrenamed₂ hlocate
  have hprepared₁ := isPrepared_of_isAccepted haccepted₁
  have hprepared₂ := isPrepared_of_isAccepted haccepted₂
  have hnew := isNewSession_of_isAccepted hbase' haccepted₂
  cases (hfirst.renamed hbase hprepared₁).symm.trans hrenamed₁
  cases (hsecond.renamed hbase' hprepared₂).symm.trans hrenamed₂
  rw [hfirst.locate_renamed, hsecond.locate_renamed] at hlocate
  obtain rfl : n = m := List.singleton_inj.mp (List.append_inj' hlocate rfl).2
  rcases hkept with ⟨hdir, hchildren⟩ | ⟨renamed, hrenamed, hfound⟩
  · -- the directory of the first session is that of the second
    rw [hbase.artifactDir hprepared₁] at hdir hchildren
    have hpending := hnew.pending
    rw [hbase'.artifactDir hprepared₂] at hpending
    obtain ⟨hreach, hget⟩ := find_eq_some_iff.mp hdir
    have hfind : find w₂.tree
        (base / "pending" / (⟨second.config.sessionId⟩ : Path)) = some .dir := by
      refine find_eq_some_iff.mpr ⟨fun d hd => hreach d ?_, ?_⟩
      · exact hfirst.single.mem_visited_join.mpr (hsecond.single.mem_visited_join.mp hd)
      · rwa [hsecond.single.locate_join, ← hfirst.single.locate_join]
    rcases hpending with hnone | ⟨-, hempty⟩
    · rw [hfind] at hnone
      cases hnone
    · rw [hsecond.single.locate_join, ← hfirst.single.locate_join] at hempty
      exact hchildren hempty
  · cases (hfirst.renamed hbase hprepared₁).symm.trans hrenamed
    obtain ⟨node, hnode⟩ := Option.isSome_iff_exists.mp hfound
    have hget := (find_eq_some_iff.mp hnode).2
    rw [hfirst.locate_renamed] at hget
    exact hsecond.find_tested_ne_none hbase' (by rw [hget]; rfl) hnew.archive

end Request.HasName

end HasName

end BtClient
