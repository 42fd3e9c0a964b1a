import BtClient.ArchiveAgreement
import BtClient.JsonSyntax

/-!
# Requests without one name

Whether a request is accepted depends on the world. When nothing fails and no file is in
the way, it is; so a request whose place in the archive could be taken unseen has a world
where it is accepted and then cannot be archived.
-/

namespace BtClient

open Effect FileSystem

/-! ### Worlds where a request is accepted -/

section Accepted

variable {currentDir : CurrentDir} {request : Request} {outputPaths : OutputPaths}
  {base : Path} {t : Tree}

/-- There is no file at any of the places. -/
def NoFileAt (places : List Location) (t : Tree) : Prop :=
  ∀ k ∈ places, ∀ content, t.get? k ≠ some (.file content)

theorem NoFileAt.of_extends {places : List Location} {t' : Tree} (h : NoFileAt places t)
    (hext : Extends t t') : NoFileAt places t' :=
  fun k hk content hcontent => h k hk content (hext.get?_eq_file.mp hcontent)

theorem triple_ensureParentDirectory_quiet (clock : List TimestampPair) {p : Path}
    (habsolute : p.isAbsolute = true) (hfile : NoFileAt p.places t) :
    Triple (· = quietWorld t clock) (ensureParentDirectory p)
      (fun _ => OnQuiet clock fun t' => Extends t t' ∧ Reaches t' p) (fun _ _ => False) := by
  have hparent := Path.isEmpty_parentPath_of_isAbsolute habsolute
  unfold ensureParentDirectory
  rw [if_neg (by simp [hparent])]
  have hfile' : ∀ k ∈ p.parentPath.places, ∀ content, t.get? k ≠ some (.file content) := by
    intro k hk
    exact hfile k (Path.mem_places.mpr (Or.inl
      (Path.mem_visited_of_parentPath hparent (Path.mem_places.mp hk))))
  refine (triple_createDirectories_quiet clock p.parentPath hfile').conseq (fun _ h => h) ?_
    fun _ _ h => h
  rintro _ w ⟨t', rfl, hmade⟩
  exact onQuiet_self ⟨hmade.extends_, fun d hd =>
    hmade.isDir d (Path.mem_places.mpr (Path.visited_subset_parentPath hd))⟩

theorem outputPath_eq_pure {override : Option Path} {usual p : Path}
    (h : IsOutputPath currentDir override usual p) :
    outputPath currentDir override usual = pure p := by
  cases override with
  | none =>
      obtain rfl : p = usual := h
      rfl
  | some path => exact absolutePath_eq_pure h

theorem requireNewSession_quiet (clock : List TimestampPair) {artifactDir archiveDir : Path}
    (harchive : find t archiveDir = none) (hpending : find t artifactDir = none) :
    requireNewSession artifactDir archiveDir (quietWorld t clock) =
      (.ok (), quietWorld t clock) := by
  unfold requireNewSession
  rw [bind_ok (pathExists_quiet t clock archiveDir), harchive, Option.isSome_none,
    if_neg Bool.false_ne_true, bind_ok (pathExists_quiet t clock artifactDir), hpending]
  rfl

/-- What is there after a request has been accepted. -/
structure IsReady (outputPaths : OutputPaths) (t t' : Tree) : Prop where
  extends_ : Extends t t'
  isDir : t'.isDir outputPaths.artifactDir.locate
  artifactDir : Reaches t' outputPaths.artifactDir
  eventLog : Reaches t' outputPaths.eventLogPath
  summaryJson : Reaches t' outputPaths.summaryJsonPath

/-- A session that is new is accepted, if nothing fails and no file is in the way. -/
theorem exists_isAccepted (hbase : IsBase currentDir request.config base)
    (hprepared : IsPrepared currentDir request.config request.eventLogOverride
      request.summaryJsonOverride outputPaths)
    (harchive : find t (base / "archive" / (⟨request.config.sessionId⟩ : Path)) = none)
    (hpending : find t outputPaths.artifactDir = none)
    (hfile : NoFileAt outputPaths.places t) (clock : List TimestampPair) :
    ∃ t', request.IsAccepted currentDir (quietWorld t clock) outputPaths (quietWorld t' clock) ∧
      IsReady outputPaths t t' := by
  have habsolute : outputPaths.artifactDir.isAbsolute = true :=
    Path.isAbsolute_of_absolute currentDir.2 hprepared.artifactDir
  have hplaces : ∀ p ∈ [outputPaths.artifactDir, outputPaths.stateJsonPath,
      outputPaths.eventLogPath, outputPaths.summaryJsonPath], NoFileAt p.places t :=
    fun p hp k hk => hfile k (List.mem_flatMap.mpr ⟨p, hp, hk⟩)
  obtain ⟨_, _, hmake, t₁, rfl, hmade⟩ := (triple_createDirectories_quiet clock
    outputPaths.artifactDir (hplaces _ (by simp))).exists_ok rfl
  obtain ⟨_, _, heventLog, t₂, rfl, hext₂, hreach₂⟩ := (triple_ensureParentDirectory_quiet clock
    (hprepared.eventLogPath.isAbsolute (Path.isAbsolute_join habsolute))
    ((hplaces outputPaths.eventLogPath (by simp)).of_extends hmade.extends_)).exists_ok rfl
  obtain ⟨_, _, hsummary, t₃, rfl, hext₃, hreach₃⟩ := (triple_ensureParentDirectory_quiet clock
    (hprepared.summaryJsonPath.isAbsolute (Path.isAbsolute_join habsolute))
    ((hplaces outputPaths.summaryJsonPath (by simp)).of_extends
      (hmade.extends_.trans hext₂))).exists_ok rfl
  refine ⟨t₃, ?_, ?_⟩
  · unfold Request.IsAccepted
    rw [prepareOutputPaths_eq, absolutePath_eq_pure hprepared.artifactDir, pure_bind,
      absolutePath_eq_pure hbase.tested, pure_bind, bind_ok (requireNewSession_quiet clock harchive hpending), bind_ok hmake,
      outputPath_eq_pure hprepared.eventLogPath, pure_bind,
      outputPath_eq_pure hprepared.summaryJsonPath, pure_bind, bind_ok heventLog,
      bind_ok hsummary, ← hprepared.stateJsonPath]
    rfl
  · have hmore := hext₂.trans hext₃
    exact {
      extends_ := hmade.extends_.trans hmore
      isDir := hmore.isDir (hmade.isDir _ (Path.mem_places.mpr (Or.inr rfl)))
      artifactDir := fun d hd =>
        hmore.isDir (hmade.isDir d (Path.mem_places.mpr (Or.inl hd)))
      eventLog := hext₃.reaches hreach₂
      summaryJson := hreach₃ }

theorem archiveArtifactSession_taken [JsonText] (clock : List TimestampPair) {renamed : Path}
    (hrenamed : renamedArchiveDir currentDir request.config outputPaths = some renamed)
    (hfound : (find t renamed).isSome) :
    (archiveArtifactSession currentDir request.config outputPaths (quietWorld t clock)).1 =
      .error (.thrown (archiveExists renamed)) := by
  obtain ⟨archiveRoot, hroot, rfl⟩ := Option.map_eq_some_iff.mp hrenamed
  unfold archiveArtifactSession archiveArtifactsDir
  rw [absolutePath_eq_pure hroot, pure_bind, bind_ok (pathExists_quiet t clock _), hfound,
    if_pos rfl]
  rfl

end Accepted

/-! ### The form of a session id -/

section Shape

variable {request : Request} {outputPaths : OutputPaths} {base : Path} {id m : ByteString}

/-- The session id ends in a name, and what stands before it comes back to where it
started. -/
structure HasShape (base : Path) (id m : ByteString) (before : List (PathComponent ByteString)) :
    Prop where
  relative : (⟨id⟩ : Path).isAbsolute = false
  components : (⟨id⟩ : Path).components = before ++ [.name m]
  back : ∀ x, PathComponent.target (base.locate ++ [x]) before = base.locate ++ [x]

namespace HasShape

variable {before : List (PathComponent ByteString)}

theorem isName (h : HasShape base id m before) : Path.IsName m :=
  Path.isName_of_mem_components (p := ⟨id⟩) (by simp [h.components])

theorem locate (h : HasShape base id m before) {p : Path} {x : ByteString}
    (hp : p.locate = base.locate ++ [x]) : (p / (⟨id⟩ : Path)).locate = p.locate ++ [m] := by
  rw [Path.locate_join h.relative, h.components, PathComponent.target_append, hp, h.back]
  rfl

theorem mem_visited (h : HasShape base id m before) {p : Path} {d : Location} :
    d ∈ (p / (⟨id⟩ : Path)).visited ↔
      d ∈ p.visited ∨ d ∈ PathComponent.visited p.locate (before ++ [.name m]) := by
  rw [Path.mem_visited_join h.relative, h.components]

end HasShape

theorem locate_pending_ne (base : Path) (m : ByteString) (c : PathComponent ByteString) :
    (base / "pending").locate ++ [m] ≠ PathComponent.next (base / "archive").locate c := by
  rw [locate_pending, locate_archive]
  intro heq
  cases c with
  | here =>
      have hlength := congrArg List.length heq
      simp [PathComponent.next] at hlength
  | up =>
      have hlength := congrArg List.length heq
      simp [PathComponent.next] at hlength
  | name n =>
      have hroot := (List.append_inj' heq rfl).1
      have hnames := List.singleton_inj.mp (List.append_inj' hroot rfl).2
      exact absurd hnames (by decide)

/-- When the session is in the pending directory and what is tested is where the session
is moved to, the session id has a form. -/
theorem exists_hasShape (hartifactDir : outputPaths.artifactDir =
      base / "pending" / (⟨request.config.sessionId⟩ : Path))
    (htested : (base / "archive" / (⟨request.config.sessionId⟩ : Path)).locate =
      (base / "archive" / outputPaths.artifactDir.filename).locate)
    (hchild : outputPaths.artifactDir.locate = (base / "pending").locate ++ [m]) :
    ∃ before, HasShape base request.config.sessionId m before := by
  rw [Path.locate_join_filename] at htested
  cases hrelative : (⟨request.config.sessionId⟩ : Path).isAbsolute with
  | true =>
      rw [Path.join_of_isAbsolute _ hrelative] at hartifactDir htested
      rw [hartifactDir] at hchild htested
      exact absurd (hchild.symm.trans htested) (locate_pending_ne base m _)
  | false =>
      rw [hartifactDir] at hchild htested
      rw [Path.filename_join (Path.hasFilename_join_name base (by decide)) hrelative] at htested
      rw [Path.locate_join hrelative] at hchild htested
      rcases PathComponent.target_cases base.locate
        (⟨request.config.sessionId⟩ : Path).components with hclimbed | ⟨r, hr⟩
      · rw [locate_pending, hclimbed _ (ByteString.ofString "archive"), ← locate_archive,
          htested, ← locate_pending] at hchild
        exact absurd hchild.symm (locate_pending_ne base m _)
      · obtain rfl : r = [m] := by
          rw [locate_pending, hr] at hchild
          exact List.append_cancel_left hchild
        have hlast : Path.toComponent (Path.filename ⟨request.config.sessionId⟩).bytes =
            .name m := by
          rw [locate_archive, hr] at htested
          cases hcomponent : Path.toComponent (Path.filename ⟨request.config.sessionId⟩).bytes with
          | here =>
              have hlength := congrArg List.length htested
              simp [hcomponent, PathComponent.next] at hlength
          | up =>
              have hlength := congrArg List.length htested
              simp [hcomponent, PathComponent.next] at hlength
          | name n =>
              rw [hcomponent] at htested
              have hnames := (List.append_inj' htested rfl).2
              rw [List.singleton_inj.mp hnames]
        obtain ⟨before, hbefore⟩ := Path.components_filename ⟨request.config.sessionId⟩
        rw [hlast] at hbefore
        refine ⟨before, hrelative, hbefore, fun x => ?_⟩
        have hx := hr x
        rw [hbefore, PathComponent.target_append] at hx
        exact (List.append_inj' hx rfl).1

end Shape

/-! ### Where the place in the archive is taken -/

section Taken

variable [JsonText] {currentDir : CurrentDir} {request : Request} {outputPaths : OutputPaths}
  {base : Path} {m : ByteString} {before : List (PathComponent ByteString)}

/-- An accepted request whose paths agree, with the form of its session id. -/
structure HasForm (currentDir : CurrentDir) (request : Request) (outputPaths : OutputPaths)
    (base : Path) (m : ByteString) (before : List (PathComponent ByteString)) : Prop where
  isBase : IsBase currentDir request.config base
  prepared : IsPrepared currentDir request.config request.eventLogOverride
    request.summaryJsonOverride outputPaths
  agree : request.PathsAgree currentDir
  shape : HasShape base request.config.sessionId m before

namespace HasForm

variable (h : HasForm currentDir request outputPaths base m before)

include h

theorem artifactDir :
    outputPaths.artifactDir = base / "pending" / (⟨request.config.sessionId⟩ : Path) :=
  h.isBase.artifactDir h.prepared

theorem locate_tested :
    (base / "archive" / (⟨request.config.sessionId⟩ : Path)).locate =
      (base / "archive").locate ++ [m] :=
  h.shape.locate (locate_archive base)

theorem locate_artifactDir :
    outputPaths.artifactDir.locate = (base / "pending").locate ++ [m] := by
  rw [h.artifactDir]
  exact h.shape.locate (locate_pending base)

theorem renamed :
    renamedArchiveDir currentDir request.config outputPaths =
      some (base / "archive" / (⟨m⟩ : Path)) := by
  rw [h.isBase.renamed, h.artifactDir,
    Path.filename_join (Path.hasFilename_join_name base (by decide)) h.shape.relative,
    Path.filename_of_components h.shape.components]

/-- The directories on the way to the archive are on the way to the session. -/
theorem mem_visited_artifactDir {d : Location} (hd : d ∈ (base / "archive").visited) :
    d ∈ outputPaths.artifactDir.visited := by
  rw [h.artifactDir, h.shape.mem_visited]
  rw [Path.mem_visited_join_name base (by decide)] at hd
  exact Or.inl ((Path.mem_visited_join_name base (by decide)).mpr hd)

/-- Once the request is accepted, nothing is in its place in the archive. -/
theorem get?_eq_none {t t' t'' : Tree} {clock : List TimestampPair}
    (haccepted : request.IsAccepted currentDir (quietWorld t clock) outputPaths
      (quietWorld t' clock)) (hown : OwnChanges outputPaths t' t'')
    (hreach : ∀ d ∈ (base / "archive").visited, t''.isDir d) :
    t''.get? ((base / "archive").locate ++ [m]) = none := by
  by_contra hne
  have hsome := Option.isSome_iff_ne_none.mpr hne
  have hfound : (find t'' (base / "archive" / (⟨m⟩ : Path))).isSome := by
    rw [find_of_reaches ((reaches_join_name h.shape.isName).mpr
      ⟨hreach, FileTree.isDir_of_isSome_append hsome⟩),
      Path.locate_join_name _ h.shape.isName]
    exact hsome
  exact h.agree.archivable haccepted (quietWorld t'' clock) hown _
    (archiveArtifactSession_taken clock h.renamed hfound)

/-- The session makes no place in the archive and does not write there. -/
theorem notMem_places : (base / "archive").locate ++ [m] ∉ outputPaths.places := by
  intro hmem
  obtain ⟨t, ht⟩ := FileTree.exists_dirs (C := ByteString) ([] : Location)
  have hnone : ∀ k : Location, k ≠ [] → t.get? k = none := by
    intro k hk
    rw [ht, if_neg (by simpa using hk)]
  have hfind : ∀ p : Path, p.locate ≠ [] → find t p = none := by
    intro p hp
    by_contra hne
    obtain ⟨node, hnode⟩ := Option.ne_none_iff_exists'.mp hne
    rw [find_eq_some_iff, hnone _ hp] at hnode
    cases hnode.2
  obtain ⟨t', haccepted, hready⟩ := exists_isAccepted h.isBase h.prepared
    (hfind _ (by rw [h.locate_tested]; simp)) (hfind _ (by rw [h.locate_artifactDir]; simp))
    (fun k _ content hcontent => by
      rw [ht] at hcontent
      split at hcontent <;> cases hcontent) []
  have harchive : ∀ d ∈ (base / "archive").visited, t'.isDir d :=
    fun d hd => hready.artifactDir d (h.mem_visited_artifactDir hd)
  have hfree := h.get?_eq_none haccepted (fun _ _ => rfl) harchive
  have hnot : ¬ t'.isDir ((base / "archive").locate ++ [m]) := by
    rw [FileTree.isDir, hfree]
    simp
  -- the place is one of the session's, so its parent has been made
  obtain ⟨p, hp, hplace⟩ := List.mem_flatMap.mp hmem
  have hreach : Reaches t' p := by
    simp only [List.mem_cons, List.not_mem_nil, or_false] at hp
    rcases hp with rfl | rfl | rfl | rfl
    · exact hready.artifactDir
    · rw [h.prepared.stateJsonPath]
      exact (reaches_join_name (by decide)).mpr ⟨hready.artifactDir, hready.isDir⟩
    · exact hready.eventLog
    · exact hready.summaryJson
  have hlocate : (base / "archive").locate ++ [m] = p.locate := by
    rcases Path.mem_places.mp hplace with hvisited | hlocate
    · exact absurd (hreach _ hvisited) hnot
    · exact hlocate
  have hparent : t'.isDir (base / "archive").locate := by
    rcases PathComponent.mem_visited_of_isPrefix (Or.inr hlocate)
      (List.prefix_append (base / "archive").locate [m]) with hroot | hvisited | heq
    · rw [List.prefix_nil.mp hroot]
      exact FileTree.get?_root t'
    · exact hreach _ hvisited
    · have hlength := congrArg List.length (heq.trans hlocate.symm)
      simp at hlength
  -- so the session can have put a file there
  have hw : t'.Writable ((base / "archive").locate ++ [m]) :=
    ⟨by simp, by rwa [List.dropLast_concat], hnot⟩
  have hown : OwnChanges outputPaths t' (t'.put _ (.file []) hw) := by
    intro k hk
    have hne : k ≠ (base / "archive").locate ++ [m] := fun heq => hk (heq ▸ hmem)
    rw [FileTree.get?_put, if_neg hne]
  have htaken := h.get?_eq_none haccepted hown
    (fun d hd => by
      have hne : d ≠ (base / "archive").locate ++ [m] := fun heq => hnot (heq ▸ harchive d hd)
      rw [FileTree.isDir, FileTree.get?_put, if_neg hne]
      exact harchive d hd)
  rw [FileTree.get?_put, if_pos rfl] at htaken
  cases htaken

/-- The way that is tested stays above the archive. -/
theorem isPrefix_of_mem_visited {d : Location}
    (hd : d ∈ (base / "archive" / (⟨request.config.sessionId⟩ : Path)).visited) :
    d <+: (base / "archive").locate := by
  -- a file is in the place of the session
  obtain ⟨t, hget⟩ := FileTree.exists_file (base / "archive").locate m ([] : ByteString)
  cases hfind : find t (base / "archive" / (⟨request.config.sessionId⟩ : Path)) with
  | some node =>
      have hdir := (find_eq_some_iff.mp hfind).1 d hd
      rw [FileTree.isDir, hget] at hdir
      split_ifs at hdir with _ hprefix
      · cases hdir
      · exact hprefix
  | none =>
      have hpending : find t outputPaths.artifactDir = none := by
        by_contra hne
        obtain ⟨node, hnode⟩ := Option.ne_none_iff_exists'.mp hne
        have hnode' := (find_eq_some_iff.mp hnode).2
        rw [hget, h.locate_artifactDir, locate_pending, locate_archive, if_neg, if_neg] at hnode'
        · cases hnode'
        · intro hprefix
          have hlength := hprefix.length_le
          simp at hlength
        · intro heq
          have hroot := (List.append_inj' heq rfl).1
          have hnames := List.singleton_inj.mp (List.append_inj' hroot rfl).2
          exact absurd hnames (by decide)
      obtain ⟨t', haccepted, hready⟩ := exists_isAccepted h.isBase h.prepared hfind hpending
        (fun k hk content hcontent => by
          rw [hget] at hcontent
          split_ifs at hcontent with heq
          · exact h.notMem_places (heq ▸ hk)
          · cases hcontent) []
      have hfile : t'.get? ((base / "archive").locate ++ [m]) = some (.file []) :=
        hready.extends_.get?_eq_some (by rw [hget, if_pos rfl])
      have hfree := h.get?_eq_none haccepted (fun _ _ => rfl)
        fun d hd => hready.artifactDir d (h.mem_visited_artifactDir hd)
      rw [hfile] at hfree
      cases hfree

theorem hasName : request.HasName currentDir m := by
  have harchive : ∀ archive, Path.absolute currentDir (request.config.artifactsDir / "archive") =
      some archive → archive = base / "archive" :=
    fun archive hpath => Option.some.inj (hpath.symm.trans h.isBase.archive)
  constructor
  · refine ⟨h.shape.relative, before, h.shape.components, ?_⟩
    have hnames : ByteString.ofString "archive" ≠ ByteString.ofString "pending" := by decide
    apply PathComponent.eq_here_of_visited hnames h.shape.back
    intro d hd
    rw [← locate_archive] at hd ⊢
    exact h.isPrefix_of_mem_visited (h.shape.mem_visited.mpr (Or.inr hd))
  · intro archive hpath d hd
    obtain rfl := harchive archive hpath
    exact h.isPrefix_of_mem_visited (h.shape.mem_visited.mpr (Or.inl hd))
  · intro archive hpath path hoverride p hp hplace
    obtain rfl := harchive archive hpath
    have hoccurs : p = outputPaths.eventLogPath ∨ p = outputPaths.summaryJsonPath := by
      rcases hoverride with hlog | hsummary
      · have heventLog := h.prepared.eventLogPath
        rw [hlog] at heventLog
        exact Or.inl (Option.some.inj (hp.symm.trans heventLog))
      · have hsummaryJson := h.prepared.summaryJsonPath
        rw [hsummary] at hsummaryJson
        exact Or.inr (Option.some.inj (hp.symm.trans hsummaryJson))
    apply h.notMem_places
    rw [OutputPaths.places, List.mem_flatMap]
    exact ⟨p, by rcases hoccurs with rfl | rfl <;> simp, hplace⟩

end HasForm

/-- A request whose paths agree has a name. -/
theorem exists_hasName {w w' : World}
    (haccepted : request.IsAccepted currentDir w outputPaths w')
    (hagree : request.PathsAgree currentDir) : ∃ n, request.HasName currentDir n := by
  obtain ⟨base, hbase⟩ := exists_isBase currentDir request.config
  have hprepared := isPrepared_of_isAccepted haccepted
  obtain ⟨tested, renamed, htested, hrenamed, hsame⟩ := hagree.tested haccepted
  obtain ⟨pending, n, hpending, hchild⟩ := hagree.child haccepted
  cases hbase.tested.symm.trans htested
  cases hbase.renamed.symm.trans hrenamed
  cases hbase.pending.symm.trans hpending
  obtain ⟨before, hshape⟩ := exists_hasShape (hbase.artifactDir hprepared) hsame hchild
  exact ⟨n, HasForm.hasName ⟨hbase, hprepared, hagree, hshape⟩⟩

/-- The check before a session and the move at its end agree, and two sessions never get
one place in the archive, exactly when each session id is one name in an archive whose
path only goes down, and no override leads to or through the place of its session. -/
theorem pathsAgree_iff {first second : Request}
    (hsame : first.config.artifactsDir = second.config.artifactsDir)
    (hfirst : ∃ w outputPaths w', first.IsAccepted currentDir w outputPaths w')
    (hsecond : ∃ w outputPaths w', second.IsAccepted currentDir w outputPaths w') :
    (first.PathsAgree currentDir ∧ second.PathsAgree currentDir ∧
      PlacesDiffer currentDir first second) ↔
    (∃ n, first.HasName currentDir n) ∧ ∃ n, second.HasName currentDir n := by
  obtain ⟨w₁, outputPaths₁, w₁', haccepted₁⟩ := hfirst
  obtain ⟨w₂, outputPaths₂, w₂', haccepted₂⟩ := hsecond
  constructor
  · rintro ⟨hagree₁, hagree₂, -⟩
    exact ⟨exists_hasName haccepted₁ hagree₁, exists_hasName haccepted₂ hagree₂⟩
  · rintro ⟨⟨n₁, hname₁⟩, n₂, hname₂⟩
    exact ⟨hname₁.pathsAgree, hname₂.pathsAgree, hname₁.placesDiffer hname₂ hsame⟩

end Taken

section Sample

/-- A request for a session in `/d`. -/
def requestFor (sessionId : ByteString) : Request where
  config := { artifactsDir := "/d", sessionId := sessionId }

theorem isAccepted_of_ok {request : Request} {w : World} {outputPaths : OutputPaths}
    (h : (prepareOutputPaths rootDir request.config request.eventLogOverride
      request.summaryJsonOverride w).1 = .ok outputPaths) :
    ∃ w', request.IsAccepted rootDir w outputPaths w' :=
  ⟨_, Prod.ext h rfl⟩

theorem hasName_requestFor {n : ByteString} (hn : Path.IsName n) :
    (requestFor n).HasName rootDir n := by
  have harchive : ∀ archive : Path, Path.absolute rootDir
      ((requestFor n).config.artifactsDir / "archive") = some archive →
        archive = "/d/archive" := by
    intro archive hpath
    exact Option.some.inj (hpath.symm.trans (by decide : Path.absolute rootDir.1
      (("/d" : Path) / "archive") = some "/d/archive"))
  constructor
  · exact ⟨Path.isAbsolute_of_isName hn, [], Path.components_of_isName hn, by simp⟩
  · intro archive hpath
    rw [harchive archive hpath]
    decide
  · rintro archive - path (hoverride | hoverride)
    · cases hoverride
    · cases hoverride

theorem pathsAgree_one_two :
    (requestFor "one").PathsAgree rootDir ∧ (requestFor "two").PathsAgree rootDir ∧
      PlacesDiffer rootDir (requestFor "one") (requestFor "two") := by
  have haccepted : ∀ n : ByteString, (prepareOutputPaths rootDir (requestFor n).config none
      none (quietWorld .empty [])).1 = .ok (.inDirectory ("/d/pending" / (⟨n⟩ : Path))) →
        ∃ w outputPaths w', (requestFor n).IsAccepted rootDir w outputPaths w' := by
    intro n hok
    obtain ⟨w', haccepted⟩ := isAccepted_of_ok hok
    exact ⟨_, _, w', haccepted⟩
  have hsame : (requestFor "one").config.artifactsDir =
      (requestFor "two").config.artifactsDir := rfl
  exact (pathsAgree_iff hsame (haccepted "one" (by decide +kernel))
    (haccepted "two" (by decide +kernel))).mpr
      ⟨⟨_, hasName_requestFor (by decide)⟩, ⟨_, hasName_requestFor (by decide)⟩⟩

/-- A world with one archived session `b`. -/
def archivedWorld : World := (createDirectories "/d/archive/b" (quietWorld .empty [])).2

/-- The session id `a/b` is accepted although the archive has a session `b`, and then the
session cannot be archived. -/
theorem not_pathsAgree_nested : ∃ outputPaths w',
    (requestFor "a/b").IsAccepted rootDir archivedWorld outputPaths w' ∧
      (archiveArtifactSession rootDir (requestFor "a/b").config outputPaths w').1 =
        .error (.thrown (archiveExists "/d/archive/b")) ∧
          ¬ (requestFor "a/b").PathsAgree rootDir := by
  have hok : (prepareOutputPaths rootDir (requestFor "a/b").config none none archivedWorld).1 =
      .ok (.inDirectory "/d/pending/a/b") := by decide +kernel
  obtain ⟨w', haccepted⟩ := isAccepted_of_ok hok
  have hw' : (prepareOutputPaths rootDir (requestFor "a/b").config none none
      archivedWorld).2 = w' := congrArg Prod.snd haccepted
  have hquiet : w' = quietWorld w'.tree [] := by
    have hfaults : w'.faults = [] := by
      rw [← hw']
      decide +kernel
    have hclock : w'.clock = [] := by
      rw [← hw']
      decide +kernel
    rw [quietWorld, ← hfaults, ← hclock]
  have hfound : (find w'.tree "/d/archive/b").isSome := by
    rw [← hw']
    decide +kernel
  have hfails : (archiveArtifactSession rootDir (requestFor "a/b").config
      (.inDirectory "/d/pending/a/b") w').1 =
        .error (.thrown (archiveExists "/d/archive/b")) := by
    rw [hquiet]
    exact archiveArtifactSession_taken [] (by decide) hfound
  exact ⟨_, w', haccepted, hfails, fun h => h.archivable haccepted w' (fun _ _ => rfl) _ hfails⟩

end Sample

end BtClient
