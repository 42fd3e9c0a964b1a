import BtClient.ArchiveRules
import BtClient.CaptureRules
import BtClient.FoundSessions

/-!
# The place in the archive

Before a session its place in the archive is put together from the session id, and the
place must be free. At the end the session is moved to a place that is put together from
the name of its directory. The two agree when the session id is one name, the way to the
archive makes no detours, and the session itself does not write to the place.
-/

namespace BtClient

open Effect FileSystem

/-- What decides about the paths of a session. -/
structure Request where
  config : RuntimeConfig
  eventLogOverride : Option Path := none
  summaryJsonOverride : Option Path := none

section Paths

variable (currentDir : CurrentDir)

/-- `prepare_output_paths` returns. -/
def Request.IsAccepted (request : Request) (w : World) (outputPaths : OutputPaths)
    (w' : World) : Prop :=
  prepareOutputPaths currentDir request.config request.eventLogOverride
    request.summaryJsonOverride w = (.ok outputPaths, w')

/-- The directory that `prepare_output_paths` tests for existence. -/
def testedArchiveDir (config : RuntimeConfig) : Option Path :=
  Path.absolute currentDir (config.artifactsDir / "archive" / (⟨config.sessionId⟩ : Path))

/-- The directory that `archive_artifact_session` renames a session to. -/
def renamedArchiveDir (config : RuntimeConfig) (outputPaths : OutputPaths) : Option Path :=
  (Path.absolute currentDir (config.artifactsDir / "archive")).map
    (· / outputPaths.artifactDir.filename)

/-- The message of a failed archiving. -/
def archiveExists (archiveDir : Path) : Failure :=
  .runtimeError ("archive artifact directory already exists: " ++ archiveDir.bytes)

/-- The places that a session makes or writes to: its directory, its files, and the
directories on the way to them. -/
def OutputPaths.places (outputPaths : OutputPaths) : List Location :=
  [outputPaths.artifactDir, outputPaths.stateJsonPath, outputPaths.eventLogPath,
    outputPaths.summaryJsonPath].flatMap Path.places

/-- Only places of the session have changed. -/
def OwnChanges (outputPaths : OutputPaths) (t t' : Tree) : Prop :=
  ∀ k, k ∉ outputPaths.places → t'.get? k = t.get? k

/-- The session id is one name; other components stay where they are. -/
def IsSingleName (id n : ByteString) : Prop :=
  (⟨id⟩ : Path).isAbsolute = false ∧ ∃ before,
    (⟨id⟩ : Path).components = before ++ [.name n] ∧ ∀ c ∈ before, c = .here

/-- The request has one name in the artifacts directory: the session id is a name, the
way to the archive only goes down, and no override leads to or through the place that the
name has in the archive. -/
structure Request.HasName (request : Request) (n : ByteString) : Prop where
  single : IsSingleName request.config.sessionId n
  straight : ∀ archive,
    Path.absolute currentDir (request.config.artifactsDir / "archive") = some archive →
      ∀ d ∈ archive.visited, d <+: archive.locate
  overrides : ∀ archive,
    Path.absolute currentDir (request.config.artifactsDir / "archive") = some archive →
      ∀ path, request.eventLogOverride = some path ∨ request.summaryJsonOverride = some path →
        ∀ p, Path.absolute currentDir path = some p → archive.locate ++ [n] ∉ p.places

end Paths

/-! ### Single names -/

section SingleName

variable {id n : ByteString}

namespace IsSingleName

theorem isName (h : IsSingleName id n) : Path.IsName n := by
  obtain ⟨-, before, hcomponents, -⟩ := h
  exact Path.isName_of_mem_components (p := ⟨id⟩) (by simp [hcomponents])

theorem locate_join (h : IsSingleName id n) (p : Path) :
    (p / (⟨id⟩ : Path)).locate = p.locate ++ [n] := by
  obtain ⟨hrelative, before, hcomponents, hhere⟩ := h
  rw [Path.locate_join hrelative, hcomponents, PathComponent.target_append,
    Path.target_of_here hhere]
  rfl

theorem mem_visited_join (h : IsSingleName id n) {p : Path} {d : Location} :
    d ∈ (p / (⟨id⟩ : Path)).visited ↔ d ∈ p.visited ∨ d = p.locate := by
  obtain ⟨hrelative, before, hcomponents, hhere⟩ := h
  rw [Path.mem_visited_join hrelative, hcomponents, PathComponent.visited_append,
    Path.target_of_here hhere]
  constructor
  · rintro (hd | hd)
    · exact Or.inl hd
    · rcases List.mem_append.mp hd with hd | hd
      · exact Or.inr (Path.eq_of_mem_visited_here hhere hd)
      · exact Or.inr (List.mem_singleton.mp hd)
  · rintro (hd | rfl)
    · exact Or.inl hd
    · exact Or.inr (List.mem_append_right _ List.mem_cons_self)

theorem filename_join (h : IsSingleName id n) {p : Path} (hp : p.hasFilename = true) :
    (p / (⟨id⟩ : Path)).filename = ⟨n⟩ := by
  obtain ⟨hrelative, before, hcomponents, -⟩ := h
  rw [Path.filename_join hp hrelative]
  exact Path.filename_of_components hcomponents

end IsSingleName

end SingleName

/-! ### The directories of a request -/

section Base

variable {currentDir : CurrentDir} {request : Request} {outputPaths : OutputPaths} {base : Path}

/-- The pending directory and the archive are next to each other. -/
structure IsBase (currentDir : CurrentDir) (config : RuntimeConfig) (base : Path) : Prop where
  pending : Path.absolute currentDir (config.artifactsDir / "pending") = some (base / "pending")
  archive : Path.absolute currentDir (config.artifactsDir / "archive") = some (base / "archive")

theorem exists_isBase (currentDir : CurrentDir) (config : RuntimeConfig) :
    ∃ base, IsBase currentDir config base := by
  obtain ⟨base, -, hjoin⟩ := Path.exists_absolute_join currentDir config.artifactsDir
  exact ⟨base, hjoin (by decide), hjoin (by decide)⟩

namespace IsBase

theorem tested (h : IsBase currentDir request.config base) :
    testedArchiveDir currentDir request.config =
      some (base / "archive" / (⟨request.config.sessionId⟩ : Path)) :=
  Path.absolute_join h.archive _

theorem renamed (h : IsBase currentDir request.config base) :
    renamedArchiveDir currentDir request.config outputPaths =
      some (base / "archive" / outputPaths.artifactDir.filename) := by
  rw [renamedArchiveDir, h.archive]
  rfl

theorem artifactDir (h : IsBase currentDir request.config base)
    (hprepared : IsPrepared currentDir request.config request.eventLogOverride
      request.summaryJsonOverride outputPaths) :
    outputPaths.artifactDir = base / "pending" / (⟨request.config.sessionId⟩ : Path) := by
  have heq := Path.absolute_join h.pending (⟨request.config.sessionId⟩ : Path)
  rw [hprepared.artifactDir] at heq
  exact Option.some.inj heq

end IsBase

theorem locate_pending (base : Path) :
    (base / "pending").locate = base.locate ++ [ByteString.ofString "pending"] :=
  Path.locate_join_name base (by decide)

theorem locate_archive (base : Path) :
    (base / "archive").locate = base.locate ++ [ByteString.ofString "archive"] :=
  Path.locate_join_name base (by decide)

end Base

/-! ### Paths that agree -/

section Agree

variable [JsonText] (currentDir : CurrentDir)

/-- What a request for a session leads to, whenever it is accepted. -/
structure Request.PathsAgree (request : Request) : Prop where
  /-- The place that is tested is the place that the session is moved to. -/
  tested : ∀ {w outputPaths w'}, request.IsAccepted currentDir w outputPaths w' →
    ∃ tested renamed, testedArchiveDir currentDir request.config = some tested ∧
      renamedArchiveDir currentDir request.config outputPaths = some renamed ∧
        tested.locate = renamed.locate
  /-- The session is in the pending directory. -/
  child : ∀ {w outputPaths w'}, request.IsAccepted currentDir w outputPaths w' →
    ∃ pending n, Path.absolute currentDir (request.config.artifactsDir / "pending") =
      some pending ∧ outputPaths.artifactDir.locate = pending.locate ++ [n]
  /-- With nobody else writing, archiving does not find the place taken. -/
  archivable : ∀ {w outputPaths w'}, request.IsAccepted currentDir w outputPaths w' →
    ∀ v, OwnChanges outputPaths w'.tree v.tree → ∀ archiveDir,
      (archiveArtifactSession currentDir request.config outputPaths v).1 ≠
        .error (.thrown (archiveExists archiveDir))
  /-- A session whose manifest says `ready_to_upload` is listed. -/
  listed : ∀ {w outputPaths w'}, request.IsAccepted currentDir w outputPaths w' →
    ∀ t clock value, Holds t outputPaths.stateJsonPath value →
      jsonStringOrEmpty value "state" = "ready_to_upload" →
      ∃ sessions, findPendingArtifactSessions currentDir request.config.artifactsDir
          (quietWorld t clock) = (.ok sessions, quietWorld t clock) ∧
        ∃ session ∈ sessions, session.state = .readyToUpload ∧
          session.outputPaths.artifactDir.locate = outputPaths.artifactDir.locate

omit [JsonText] in
/-- The session is still there: pending with something in its directory, or archived. -/
def IsKept (config : RuntimeConfig) (outputPaths : OutputPaths) (t : Tree) : Prop :=
  (find t outputPaths.artifactDir = some .dir ∧
    t.children outputPaths.artifactDir.locate ≠ []) ∨
  ∃ renamed, renamedArchiveDir currentDir config outputPaths = some renamed ∧
    (find t renamed).isSome

omit [JsonText] in
/-- Where one session is kept, no other session is accepted that is moved to the same
place. -/
def PlacesDiffer (first second : Request) : Prop :=
  ∀ {w₁ outputPaths₁ w₁' w₂ outputPaths₂ w₂'},
    first.IsAccepted currentDir w₁ outputPaths₁ w₁' →
    second.IsAccepted currentDir w₂ outputPaths₂ w₂' →
      IsKept currentDir first.config outputPaths₁ w₂.tree → ∀ renamed₁ renamed₂,
        renamedArchiveDir currentDir first.config outputPaths₁ = some renamed₁ →
        renamedArchiveDir currentDir second.config outputPaths₂ = some renamed₂ →
          renamed₁.locate ≠ renamed₂.locate

end Agree

/-! ### What a session does not touch -/

section Elsewhere

variable {currentDir : CurrentDir} {l : Location} {node : Option (Node ByteString)}

/-- A condition on the place `l` that holds in case of `c`. -/
abbrev KeptIf (c : Prop) (l : Location) (node : Option (Node ByteString)) : World → Prop :=
  OnTree fun t => c → t.get? l = node

theorem triple_createDirectories_keptIf (c : Prop) (p : Path) :
    Triple (KeptIf c l node) (createDirectories p)
      (fun _ => KeptIf (c ∧ l ∉ p.places) l node) (fun _ _ => True) := by
  by_cases hl : c ∧ l ∉ p.places
  · have hplaces : l ∉ p.visited ∧ l ≠ p.locate := by
      have hnot := hl.2
      rwa [Path.mem_places, not_or] at hnot
    exact (keeps_createDirectories_elsewhere hplaces.1 hplaces.2 node).conseq
      (fun _ h => h hl.1) (fun _ _ h _ => h) fun _ _ _ => True.intro
  · exact Triple.trivial.conseq (fun _ _ => True.intro) (fun _ _ _ h => absurd h hl)
      fun _ _ h => h

/-- The directories that the parent of a file needs are on the way to the file. -/
theorem triple_ensureParentDirectory_keptIf (c : Prop) (p : Path) :
    Triple (KeptIf c l node) (ensureParentDirectory p)
      (fun _ => KeptIf (c ∧ l ∉ p.places) l node) (fun _ _ => True) := by
  unfold ensureParentDirectory
  cases hparent : p.parentPath.isEmpty with
  | true =>
      rw [if_pos rfl]
      exact Triple.pure fun w hw hc => hw hc.1
  | false =>
      rw [if_neg Bool.false_ne_true]
      refine (triple_createDirectories_keptIf c p.parentPath).conseq (fun _ h => h) ?_
        fun _ _ h => h
      intro _ w hw hc
      refine hw ⟨hc.1, fun hl => hc.2 ?_⟩
      rw [Path.mem_places] at hl ⊢
      exact Or.inl (Path.mem_visited_of_parentPath hparent hl)

/-- Preparing a session keeps what is not in a place of the session. -/
theorem triple_prepareOutputPaths_elsewhere (config : RuntimeConfig)
    (eventLogOverride summaryJsonOverride : Option Path) :
    Triple (OnTree fun t => t.get? l = node)
      (prepareOutputPaths currentDir config eventLogOverride summaryJsonOverride)
      (fun outputPaths => KeptIf (l ∉ outputPaths.places) l node) (fun _ _ => True) := by
  have hreads : ∀ {α : Type} {m : Action α} (c : Prop), ReadsOnly m →
      Triple (KeptIf c l node) m (fun _ => KeptIf c l node) (fun _ _ => True) :=
    fun c hm => (hm.keeps _).conseq (fun _ h => h) (fun _ _ h => h) fun _ _ _ => True.intro
  have houtput : ∀ override usual, ReadsOnly (outputPath currentDir override usual) := by
    intro override usual
    cases override with
    | none => exact ReadsOnly.pure _
    | some path => exact readsOnly_absolutePath currentDir path
  rw [prepareOutputPaths_eq]
  refine Triple.bind ((hreads True (readsOnly_absolutePath currentDir _)).conseq
    (fun _ h _ => h) (fun _ _ h => h) fun _ _ h => h) fun artifactDir => ?_
  refine Triple.bind (hreads True (readsOnly_absolutePath currentDir _)) fun archiveDir => ?_
  refine Triple.bind (hreads True (readsOnly_requireNewSession artifactDir archiveDir))
    fun _ => ?_
  refine Triple.bind (triple_createDirectories_keptIf True artifactDir) fun _ => ?_
  refine Triple.bind (hreads _ (houtput _ _)) fun eventLogPath => ?_
  refine Triple.bind (hreads _ (houtput _ _)) fun summaryJsonPath => ?_
  refine Triple.bind (triple_ensureParentDirectory_keptIf _ eventLogPath) fun _ => ?_
  refine Triple.bind (triple_ensureParentDirectory_keptIf _ summaryJsonPath) fun _ => ?_
  apply Triple.pure
  intro w hw hl
  apply hw
  simp only [OutputPaths.places, List.flatMap_cons, List.mem_append, not_or] at hl
  exact ⟨⟨⟨True.intro, hl.1⟩, hl.2.2.1⟩, hl.2.2.2.1⟩

end Elsewhere

/-! ### Requests with one name -/

section HasName

variable {currentDir : CurrentDir} {request : Request} {n : ByteString} {base : Path}
  {outputPaths : OutputPaths} {w w' : World}

theorem isPrepared_of_isAccepted (h : request.IsAccepted currentDir w outputPaths w') :
    IsPrepared currentDir request.config request.eventLogOverride request.summaryJsonOverride
      outputPaths :=
  ((triple_prepareOutputPaths w.tree currentDir request.config request.eventLogOverride
    request.summaryJsonOverride).apply_ok rfl h).1

namespace Request.HasName

theorem locate_tested (h : request.HasName currentDir n) :
    (base / "archive" / (⟨request.config.sessionId⟩ : Path)).locate =
      (base / "archive").locate ++ [n] :=
  h.single.locate_join _

theorem locate_artifactDir (h : request.HasName currentDir n)
    (hbase : IsBase currentDir request.config base)
    (hprepared : IsPrepared currentDir request.config request.eventLogOverride
      request.summaryJsonOverride outputPaths) :
    outputPaths.artifactDir.locate = (base / "pending").locate ++ [n] := by
  rw [hbase.artifactDir hprepared]
  exact h.single.locate_join _

theorem renamed (h : request.HasName currentDir n)
    (hbase : IsBase currentDir request.config base)
    (hprepared : IsPrepared currentDir request.config request.eventLogOverride
      request.summaryJsonOverride outputPaths) :
    renamedArchiveDir currentDir request.config outputPaths =
      some (base / "archive" / (⟨n⟩ : Path)) := by
  rw [hbase.renamed, hbase.artifactDir hprepared,
    h.single.filename_join (Path.hasFilename_join_name base (by decide))]

theorem locate_renamed (h : request.HasName currentDir n) :
    (base / "archive" / (⟨n⟩ : Path)).locate = (base / "archive").locate ++ [n] :=
  Path.locate_join_name _ h.single.isName

/-- Where the archive has something under the name, the test finds it. -/
theorem find_tested_ne_none (h : request.HasName currentDir n)
    (hbase : IsBase currentDir request.config base) {t : Tree}
    (hsome : (t.get? ((base / "archive").locate ++ [n])).isSome) :
    find t (base / "archive" / (⟨request.config.sessionId⟩ : Path)) ≠ none := by
  have hdir : ∀ d, d <+: (base / "archive").locate → t.isDir d := by
    intro d hd
    apply FileTree.isDir_of_isPrefix hsome (hd.trans (List.prefix_append _ _))
    rintro rfl
    have hlength := hd.length_le
    simp at hlength
  have hreach : Reaches t (base / "archive" / (⟨request.config.sessionId⟩ : Path)) := by
    intro d hd
    rcases h.single.mem_visited_join.mp hd with hd | rfl
    · exact hdir d (h.straight _ hbase.archive d hd)
    · exact hdir _ (List.prefix_refl _)
  rw [find_of_reaches hreach, h.locate_tested]
  exact Option.isSome_iff_ne_none.mp hsome

/-- The session does not write to its place in the archive. -/
theorem notMem_places (h : request.HasName currentDir n)
    (hbase : IsBase currentDir request.config base)
    (hprepared : IsPrepared currentDir request.config request.eventLogOverride
      request.summaryJsonOverride outputPaths) :
    (base / "archive").locate ++ [n] ∉ outputPaths.places := by
  have hlength : ∀ {d : Location}, d.length ≠ base.locate.length + 2 →
      (base / "archive").locate ++ [n] ≠ d := by
    rintro d hd rfl
    rw [locate_archive] at hd
    simp at hd
  have hdir : (base / "archive").locate ++ [n] ∉ outputPaths.artifactDir.places := by
    rw [Path.mem_places, not_or, h.locate_artifactDir hbase hprepared,
      hbase.artifactDir hprepared]
    constructor
    · intro hd
      rcases h.single.mem_visited_join.mp hd with hd | hd
      · rcases (Path.mem_visited_join_name base (by decide)).mp hd with hd | hd
        · -- the way to the archive only goes down
          have hbelow := (h.straight _ hbase.archive _
            ((Path.mem_visited_join_name base (by decide)).mpr (Or.inl hd))).length_le
          simp at hbelow
        · exact hlength (by simp) hd
      · exact hlength (by simp [locate_pending]) hd
    · intro heq
      have hroot := (List.append_inj' heq rfl).1
      rw [locate_archive, locate_pending] at hroot
      have hnames := List.singleton_inj.mp (List.append_inj' hroot rfl).2
      exact absurd hnames (by decide)
  have hfile : ∀ {m : ByteString}, Path.IsName m →
      (base / "archive").locate ++ [n] ∉ (outputPaths.artifactDir / (⟨m⟩ : Path)).places := by
    intro m hm
    rw [Path.mem_places, not_or] at hdir ⊢
    constructor
    · intro hd
      rcases (Path.mem_visited_join_name _ hm).mp hd with hd | hd
      · exact hdir.1 hd
      · exact hdir.2 hd
    · rw [Path.locate_join_name _ hm, h.locate_artifactDir hbase hprepared]
      exact hlength (by simp [locate_pending])
  have houtput : ∀ {override : Option Path} {m : ByteString} {p : Path}, Path.IsName m →
      (∀ path, override = some path → request.eventLogOverride = some path ∨
        request.summaryJsonOverride = some path) →
      IsOutputPath currentDir override (outputPaths.artifactDir / (⟨m⟩ : Path)) p →
        (base / "archive").locate ++ [n] ∉ p.places := by
    intro override m p hm hoverride hp
    cases override with
    | none =>
        obtain rfl : p = outputPaths.artifactDir / (⟨m⟩ : Path) := hp
        exact hfile hm
    | some path => exact h.overrides _ hbase.archive path (hoverride path rfl) p hp
  simp only [OutputPaths.places, List.flatMap_cons, List.flatMap_nil, List.append_nil,
    List.mem_append, not_or]
  refine ⟨hdir, ?_, houtput (by decide) (fun path => Or.inl) hprepared.eventLogPath,
    houtput (by decide) (fun path => Or.inr) hprepared.summaryJsonPath⟩
  rw [hprepared.stateJsonPath]
  exact hfile (by decide)

end Request.HasName

end HasName

end BtClient
