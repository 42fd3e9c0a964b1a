import BtClient.AllOrNothing
import BtClient.ReadBack

/-!
# What an archived manifest names

Archiving moves the directory of a session, and then the manifest is written again with the
usual names of the files in the new place. The files are there if the session had them under
these names in its directory.
-/

namespace BtClient

open Effect FileSystem

namespace Moved

variable {a b : Location} {t t' : Tree}

/-- The files of the directory are those that were in it. -/
theorem get?_append_eq_file (h : Moved a b t t') {r : Location} {content : ByteString} :
    t'.get? (b ++ r) = some (.file content) ↔ t.get? (a ++ r) = some (.file content) := by
  refine ⟨fun hfile => ?_, h.get?_append⟩
  obtain ⟨t₁, hext, hmove, rfl⟩ := h
  have hne : a ++ r ≠ b := by
    rintro rfl
    exact hmove.2.2.2.2.2 (List.prefix_append a r)
  rw [FileTree.get?_move_append, get?_vacated hne] at hfile
  exact hext.get?_eq_file.mp hfile

end Moved

/-! ### The operations before the manifest is written -/

section Steps

variable {currentDir : CurrentDir} {config : RuntimeConfig} {outputPaths archived : OutputPaths}
  {w w₁ : World} {t : Tree} {archiveDir : Path} {a : Location}

/-- The directory in which a session is archived. -/
def archiveDirOf (currentDir : CurrentDir) (config : RuntimeConfig) (outputPaths : OutputPaths) :
    Option Path :=
  (Path.absolute currentDir (config.artifactsDir / "archive")).map
    fun archiveRoot => archiveRoot / outputPaths.artifactDir.filename

/-- The directories on the way to the path that lie in a directory or are it. -/
def movedOnWay (a : Location) (p : Path) : ℕ :=
  (p.visited.toFinset.filter fun l => a <+: l).card

theorem moveToArchive_ok
    (h : moveToArchive currentDir config outputPaths w = (.ok archived, w₁)) :
    ∃ archiveDir t,
      archiveDirOf currentDir config outputPaths = some archiveDir ∧
        archived = .inDirectory archiveDir ∧ w₁.now = w.now ∧
        w₁.faults = w.faults.drop (missingAmong w.tree archiveDir.visited + 2) ∧
        Reaches t archiveDir ∧
        ∃ hmove : (vacated t archiveDir.locate).Movable outputPaths.artifactDir.locate
          archiveDir.locate, w₁.tree = (vacated t archiveDir.locate).move _ _ hmove := by
  unfold moveToArchive archiveArtifactsDir absolutePath at h
  unfold archiveDirOf
  cases hroot : Path.absolute currentDir (config.artifactsDir / "archive") with
  | none =>
      rw [hroot] at h
      cases h
  | some archiveRoot =>
      rw [hroot] at h
      have habsolute : (archiveRoot / outputPaths.artifactDir.filename).isAbsolute = true :=
        Path.isAbsolute_join (Path.isAbsolute_of_absolute currentDir.2 hroot)
      rw [pure_bind] at h
      obtain ⟨found, w₂, hexists, h⟩ := of_bind_ok h
      obtain ⟨-, rfl, rfl⟩ := pathExists_ok_iff.mp hexists
      split at h
      · cases h
      obtain ⟨_, w₃, hmade, h⟩ := of_bind_ok h
      obtain ⟨_, w₄, hrename, h⟩ := of_bind_ok h
      obtain ⟨hmove, -, hreach, htree⟩ := (triple_rename w₃.tree _ _).apply_ok rfl hrename
      obtain ⟨hfaults, hclock⟩ := rename_ok hrename
      have hclock₃ : w₃.clock = w.clock :=
        (keeps_clock_createDirectories _ w.clock).apply_ok (s := w.after 1) rfl hmade
      unfold artifactPathsForSessionDir absolutePath at h
      rw [Path.absolute_of_isAbsolute _ habsolute] at h
      cases h
      refine ⟨archiveRoot / outputPaths.artifactDir.filename, w₃.tree, rfl, rfl, ?_, ?_, hreach,
        hmove, htree⟩
      · rw [World.now, World.now, hclock, hclock₃]
      · rw [hfaults, faults_createDirectories hmade, World.tree_after, World.faults_after,
          List.drop_drop, List.drop_drop,
          missingAmong_parentPath (Path.isEmpty_parentPath_of_isAbsolute habsolute)]
        congr 1
        omega

/-- At the new place there is the directory that has been moved. -/
theorem get?_move_target {b : Location} (hmove : (vacated t b).Movable a b) :
    ((vacated t b).move a b hmove).get? b = some .dir := by
  have hget := FileTree.get?_move_append _ a b hmove []
  rw [List.append_nil, List.append_nil] at hget
  exact hget.trans hmove.2.1

/-- After the move, those directories on the way are missing that have moved along. -/
theorem get?_move_eq_none_iff {b : Location} (hreach : Reaches t archiveDir)
    (hmove : (vacated t b).Movable a b) {l : Location} (hl : l ∈ archiveDir.visited) :
    ((vacated t b).move a b hmove).get? l = none ↔ a <+: l := by
  have hdir : t.get? l = some .dir := hreach l hl
  obtain ⟨-, -, -, -, hfree, hinside⟩ := id hmove
  by_cases hhere : l = b
  · rw [hhere, get?_move_target hmove]
    simp [hinside]
  · have hvacated : (vacated t b).get? l = some .dir := (get?_vacated hhere).trans hdir
    have hnot : ¬ b <+: l := by
      intro hbelow
      rw [FileTree.get?_eq_none_of_isPrefix hfree hbelow] at hvacated
      cases hvacated
    rw [FileTree.get?_move_of_not_isPrefix _ a b hmove hnot]
    split
    · next hwithin => simp [hwithin]
    · next hwithin => simp [hwithin, hvacated]

theorem missingAmong_move (hreach : Reaches t archiveDir)
    (hmove : (vacated t archiveDir.locate).Movable a archiveDir.locate) :
    missingAmong ((vacated t archiveDir.locate).move a archiveDir.locate hmove)
      (archiveDir.visited ++ [archiveDir.locate]) = movedOnWay a archiveDir := by
  have hset : (archiveDir.visited ++ [archiveDir.locate]).toFinset.filter
      (fun l => ((vacated t archiveDir.locate).move a archiveDir.locate hmove).get? l = none) =
        archiveDir.visited.toFinset.filter fun l => a <+: l := by
    have hhere : ((vacated t archiveDir.locate).move a archiveDir.locate hmove).get?
        archiveDir.locate ≠ none := by
      rw [get?_move_target hmove]
      exact Option.some_ne_none _
    ext l
    rw [Finset.mem_filter, Finset.mem_filter, List.mem_toFinset, List.mem_toFinset,
      List.mem_append, List.mem_singleton]
    constructor
    · rintro ⟨hl | rfl, hnone⟩
      · exact ⟨hl, (get?_move_eq_none_iff hreach hmove hl).mp hnone⟩
      · exact absurd hnone hhere
    · rintro ⟨hl, hwithin⟩
      exact ⟨Or.inl hl, (get?_move_eq_none_iff hreach hmove hl).mpr hwithin⟩
  rw [missingAmong, hset, movedOnWay]

end Steps

/-! ### Truthful manifests -/

section ArchivedFiles

variable [JsonText]

/-- The manifest at the path names the file under the key. -/
def Names (t : Tree) (stateJsonPath : Path) (key : String) (p : Path) : Prop :=
  ∃ value files, Holds t stateJsonPath value ∧ value.find "files" = some files ∧
    files.find key = some (.string p.bytes)

/-- The manifest at the path names the files of the session. -/
def NamesFiles (t : Tree) (outputPaths : OutputPaths) : Prop :=
  ∃ value, Holds t outputPaths.stateJsonPath value ∧
    value.find "files" = some (filesMember outputPaths)

/-- Everything that the archived manifest names is a file, and the event log and the summary
have the contents of those that the pending manifest has named. -/
structure IsTruthful (t t' : Tree) (pending archived : Path) : Prop where
  exist : ∀ key p, Names t' archived key p → ∃ content, find t' p = some (.file content)
  same : ∀ key ∈ ["event_log", "summary_json"], ∃ p p' content,
    Names t pending key p ∧ Names t' archived key p' ∧
      find t p = some (.file content) ∧ find t' p' = some (.file content)

omit [JsonText] in
/-- The directory of the session has the contents of its event log and of its summary under
the usual names. -/
structure OutputPaths.HasUsualContents (outputPaths : OutputPaths) (t : Tree) : Prop where
  eventLog : find t (outputPaths.artifactDir / "session_events.ndjson") =
    find t outputPaths.eventLogPath
  summary : find t (outputPaths.artifactDir / "session_summary.json") =
    find t outputPaths.summaryJsonPath

omit [JsonText] in
/-- The call that writes the manifest of an archived session. -/
def Call.archiving (config : RuntimeConfig) (archived : OutputPaths) : Call where
  caller := ⟨config, archived, ⟨"t", 0⟩, by decide⟩
  write := .writeArtifactState .archived

omit [JsonText] in
/-- The operations of an archiving before it writes the manifest in its new place: the new
directory is looked for, the directories on the way to it are made, the session is moved, and
the directories on the way that have moved along are made again. -/
def archiveSteps (outputPaths : OutputPaths) (archiveDir : Path) (t : Tree) : ℕ :=
  missingAmong t archiveDir.visited + 2 + movedOnWay outputPaths.artifactDir.locate archiveDir

/-- The text of the manifest that is written then. It is looked for and read twice; what
the reads see is what the pending manifest has said. -/
def archivedText (config : RuntimeConfig) (outputPaths : OutputPaths) (archiveDir : Path)
    (w : World) : ByteString :=
  let steps := archiveSteps outputPaths archiveDir w.tree
  let previous := valueAt w.tree outputPaths.stateJsonPath
  JsonText.dumpIndented (.object (manifest config (.inDirectory archiveDir) .archived
    (previousOf ((w.fault (steps + 1)).seen previous))
    (createdUtcOf ((w.fault (steps + 3)).seen previous) w.now) w.now)) ++ [newline]

/-- If the write of the archived manifest meets a fault that goes unnoticed, then so much of the
manifest has arrived in its file that it can be read. -/
def ArrivesReadable (currentDir : CurrentDir) (config : RuntimeConfig)
    (outputPaths : OutputPaths) (w : World) : Prop :=
  ∀ archiveDir ∈ archiveDirOf currentDir config outputPaths, ∀ reached,
    w.fault (archiveSteps outputPaths archiveDir w.tree + 5) = .unnoticed reached →
      (JsonText.parse ((archivedText config outputPaths archiveDir w).take reached)).isSome = true

section Names

variable {t : Tree} {path p p' : Path} {key : String} {value value' : Json}

theorem Holds.unique (h : Holds t path value) (h' : Holds t path value') : value = value' := by
  obtain ⟨content, hfind, hparse⟩ := h
  obtain ⟨content', hfind', hparse'⟩ := h'
  cases hfind.symm.trans hfind'
  exact Option.some.inj (hparse.symm.trans hparse')

theorem Names.unique (h : Names t path key p) (h' : Names t path key p') : p = p' := by
  obtain ⟨value, files, hvalue, hfiles, hkey⟩ := h
  obtain ⟨value', files', hvalue', hfiles', hkey'⟩ := h'
  cases hvalue.unique hvalue'
  cases hfiles.symm.trans hfiles'
  obtain ⟨bytes⟩ := p
  obtain ⟨bytes'⟩ := p'
  cases hkey.symm.trans hkey'
  rfl

variable {outputPaths : OutputPaths}

theorem NamesFiles.names (h : NamesFiles t outputPaths) {key : String} {p : Path}
    (hkey : (filesMember outputPaths).find key = some (.string p.bytes)) :
    Names t outputPaths.stateJsonPath key p := by
  obtain ⟨value, hvalue, hfiles⟩ := h
  exact ⟨value, _, hvalue, hfiles, hkey⟩

/-- The manifest names the three files and nothing else. -/
theorem NamesFiles.eq_of_names (h : NamesFiles t outputPaths)
    (hp : Names t outputPaths.stateJsonPath key p) :
    (key = "state_json" ∧ p = outputPaths.stateJsonPath) ∨
      (key = "event_log" ∧ p = outputPaths.eventLogPath) ∨
      (key = "summary_json" ∧ p = outputPaths.summaryJsonPath) := by
  obtain ⟨value, hvalue, hfiles⟩ := h
  obtain ⟨value', files, hvalue', hfiles', hkey⟩ := hp
  cases hvalue.unique hvalue'
  cases hfiles.symm.trans hfiles'
  rw [find_filesMember] at hkey
  obtain ⟨before, after, hmembers, -⟩ := List.lookup_eq_some_iff.mp hkey
  have hmem : (key, Json.string p.bytes) ∈ [
      ("state_json", Json.string outputPaths.stateJsonPath.bytes),
      ("event_log", Json.string outputPaths.eventLogPath.bytes),
      ("summary_json", Json.string outputPaths.summaryJsonPath.bytes)] := by
    rw [hmembers]
    exact List.mem_append_right _ List.mem_cons_self
  have hpath : ∀ q : Path, p.bytes = q.bytes → p = q := by
    rintro ⟨bytes⟩ hbytes
    exact congrArg Path.mk hbytes
  simp only [List.mem_cons, Prod.mk.injEq, Json.string.injEq, List.not_mem_nil, or_false]
    at hmem
  rcases hmem with ⟨rfl, hbytes⟩ | ⟨rfl, hbytes⟩ | ⟨rfl, hbytes⟩
  · exact Or.inl ⟨rfl, hpath _ hbytes⟩
  · exact Or.inr (Or.inl ⟨rfl, hpath _ hbytes⟩)
  · exact Or.inr (Or.inr ⟨rfl, hpath _ hbytes⟩)

end Names

/-! ### What archiving leaves -/

section Archived

variable {currentDir : CurrentDir} {config : RuntimeConfig}
  {outputPaths archived : OutputPaths} {w w' : World}

/-- The two steps of an archiving that returns: after the move the world is `w₁`, and the new
manifest is opened at `l` in `w₂`. -/
structure Archives (currentDir : CurrentDir) (config : RuntimeConfig)
    (outputPaths archived : OutputPaths) (w w₁ w₂ w' : World) (members : Json.Members)
    (l : Location) : Prop where
  move : moveToArchive currentDir config outputPaths w = (.ok archived, w₁)
  opens : openManifest config archived .archived (fun _ stateJson => stateJson) w₁ =
    (.ok (.object members, some l), w₂)
  paths : archived = .inDirectory archived.artifactDir
  moved : Moved outputPaths.artifactDir.locate archived.artifactDir.locate w.tree w₁.tree
  together : IsPutTogether w₁.tree config archived .archived (fun _ stateJson => stateJson) members
  isUtf8 : (Json.object members).isUtf8 = true
  opened : IsOpened archived.stateJsonPath w₁.tree w₂.tree l
  passes : (w₂.fault 0).passes = true
  tree : w'.tree = appended w₂.tree l
    ((w₂.fault 0).arrived (JsonText.dumpIndented (.object members) ++ [newline]))

theorem exists_archives
    (h : archiveArtifactSession currentDir config outputPaths w = (.ok archived, w')) :
    ∃ w₁ w₂ members l, Archives currentDir config outputPaths archived w w₁ w₂ w' members l := by
  rw [archiveArtifactSession_eq] at h
  obtain ⟨archived', w₁, hmove, hrest⟩ := of_bind_ok h
  obtain ⟨_, w₃, hwrite, hpure⟩ := of_bind_ok hrest
  cases hpure
  obtain ⟨archiveRoot, -, hpaths, hmoved⟩ :=
    (triple_moveToArchive currentDir w.tree config outputPaths).apply_ok rfl hmove
  unfold writeArtifactState at hwrite
  rw [rewriteState_eq] at hwrite
  obtain ⟨⟨value, place⟩, w₂, hopen, hfinish⟩ := of_bind_ok hwrite
  obtain ⟨⟨members, rfl, htogether⟩, hplace⟩ :=
    (triple_openManifest w₁.tree config archived .archived _).apply_ok rfl hopen
  cases place with
  | none => cases hfinish
  | some l =>
      by_cases hutf : (Json.object members).isUtf8 = true
      · rw [finishManifest_of_isUtf8 _ hutf, manifestText_of_isUtf8 hutf] at hfinish
        have hafter := congrArg (fun r => r.2.tree) hfinish
        have hpasses : (w₂.fault 0).passes = true := by
          cases hfault : w₂.fault 0 with
          | none | unnoticed => rfl
          | reported | crash =>
              rw [hfault] at hfinish
              cases hfinish
        exact ⟨w₁, w₂, members, l, hmove, hopen, by rw [hpaths]; rfl, hmoved, htogether, hutf,
          hplace, hpasses, hafter.symm⟩
      · rw [finishManifest_of_not_isUtf8 _ hutf] at hfinish
        cases hfinish

namespace Archives

variable {w₁ w₂ : World} {members : Json.Members} {l : Location}

/-- The archived manifest is the one that was written, if it can be read. -/
theorem holds_iff (h : Archives currentDir config outputPaths archived w w₁ w₂ w' members l)
    {value : Json} :
    Holds w'.tree archived.stateJsonPath value ↔ value = .object members ∧
      (JsonText.parse ((w₂.fault 0).arrived
        (JsonText.dumpIndented (.object members) ++ [newline]))).isSome = true := by
  have hfind := h.opened.find_appended
    ((w₂.fault 0).arrived (JsonText.dumpIndented (.object members) ++ [newline]))
  rw [← h.tree] at hfind
  have hpart : (w₂.fault 0).arrived (JsonText.dumpIndented (.object members) ++ [newline]) <+:
      manifestText (.object members) := by
    rw [manifestText_of_isUtf8 h.isUtf8]
    cases w₂.fault 0 with
    | none => exact List.prefix_rfl
    | reported reached => exact List.take_prefix _ _
    | unnoticed reached => exact List.take_prefix _ _
    | crash reached => exact List.take_prefix _ _
  have hplain : (Json.object members).isPlain JsonText.isDouble = true :=
    isPlain_of_isAmended isHistoric_id h.together.isAmended
  constructor
  · rintro ⟨content, hcontent, hparse⟩
    cases hfind.symm.trans hcontent
    exact ⟨(eq_of_parse_manifestText hplain hpart hparse).1, by rw [hparse]; rfl⟩
  · rintro ⟨rfl, hsome⟩
    obtain ⟨value, hparse⟩ := Option.isSome_iff_exists.mp hsome
    refine ⟨_, hfind, ?_⟩
    rw [hparse, (eq_of_parse_manifestText hplain hpart hparse).1]

theorem find_files (h : Archives currentDir config outputPaths archived w w₁ w₂ w' members l) :
    (Json.object members).find "files" = some (filesMember archived) := by
  obtain ⟨previous, createdUtc, now, -, -, rfl⟩ := h.together
  exact manifest_files

/-- A file in the archived directory is the one that was in the directory of the session. -/
theorem find_eq_file_iff
    (h : Archives currentDir config outputPaths archived w w₁ w₂ w' members l)
    {name content : ByteString} (hname : Path.IsName name) (hne : name ≠ "state.json") :
    find w'.tree (archived.artifactDir / (⟨name⟩ : Path)) = some (.file content) ↔
      w.tree.get? (outputPaths.artifactDir.locate ++ [name]) = some (.file content) := by
  have hstate : archived.stateJsonPath = archived.artifactDir / (⟨"state.json"⟩ : Path) := by
    rw [h.paths]
    rfl
  have hl : l = archived.artifactDir.locate ++ [ByteString.ofString "state.json"] := by
    rw [h.opened.locate, hstate, Path.locate_join_name _ (by decide)]
  have hk : archived.artifactDir.locate ++ [name] ≠ l := by
    rw [hl]
    intro heq
    exact hne (List.singleton_inj.mp (List.append_cancel_left heq))
  have hreach : Reaches w'.tree (archived.artifactDir / (⟨name⟩ : Path)) := by
    have hfind := h.opened.find_appended
      ((w₂.fault 0).arrived (JsonText.dumpIndented (.object members) ++ [newline]))
    rw [← h.tree, hstate] at hfind
    exact (reaches_join_name hname).mpr
      ((reaches_join_name (by decide)).mp (find_eq_some_iff.mp hfind).1)
  rw [find_of_reaches hreach, Path.locate_join_name _ hname, h.tree, h.opened.get?_appended,
    if_neg hk, ← h.moved.get?_append_eq_file]
  constructor
  · intro hfile
    rcases h.opened.elsewhere _ hk with heq | ⟨-, hdir⟩
    · rw [← heq, hfile]
    · rw [hdir] at hfile
      cases hfile
  · intro hfile
    rcases h.opened.elsewhere _ hk with heq | ⟨hnone, -⟩
    · rw [heq, hfile]
    · rw [hnone] at hfile
      cases hfile

theorem namesFiles (h : Archives currentDir config outputPaths archived w w₁ w₂ w' members l)
    (hreadable : (JsonText.parse ((w₂.fault 0).arrived
      (JsonText.dumpIndented (.object members) ++ [newline]))).isSome = true) :
    NamesFiles w'.tree archived :=
  ⟨_, h.holds_iff.mpr ⟨rfl, hreadable⟩, h.find_files⟩

/-- What an archiving writes, and the fault that the write meets. -/
theorem written (h : Archives currentDir config outputPaths archived w w₁ w₂ w' members l)
    (husual : outputPaths.IsUsual) (hnames : NamesFiles w.tree outputPaths) :
    ∃ archiveDir, archiveDirOf currentDir config outputPaths = some archiveDir ∧
      w₂.fault 0 = w.fault (archiveSteps outputPaths archiveDir w.tree + 5) ∧
      JsonText.dumpIndented (.object members) ++ [newline] =
        archivedText config outputPaths archiveDir w := by
  obtain ⟨archiveDir, t, hplace, rfl, hnow, hfaults, hreach, hmove, htree⟩ := moveToArchive_ok h.move
  refine ⟨archiveDir, hplace, ?_⟩
  obtain ⟨value, ⟨content, hfind, hparse⟩, -⟩ := hnames
  have hopen : openManifest (Call.archiving config (.inDirectory archiveDir)).caller.config
      (Call.archiving config (.inDirectory archiveDir)).caller.outputPaths
      (Call.archiving config (.inDirectory archiveDir)).state
      (Call.archiving config (.inDirectory archiveDir)).amend w₁ =
        (.ok (.object members, some l), w₂) := h.opens
  obtain ⟨read, readAgain, hopens, heq⟩ := opens_of_openManifest hopen
  -- the manifest has moved along with the directory
  have hmoved : w₁.tree.get? (archiveDir.locate ++ [ByteString.ofString "state.json"]) =
      some (.file content) := by
    refine h.moved.get?_append ?_
    rw [husual.stateJsonPath] at hfind
    have hget := (find_eq_some_iff.mp hfind).2
    rwa [Path.locate_join_name _ (by decide)] at hget
  have hbefore : (Call.archiving config (.inDirectory archiveDir)).before w₁ =
      valueAt w.tree outputPaths.stateJsonPath := by
    have hhere : (Call.archiving config (.inDirectory archiveDir)).path.locate =
        archiveDir.locate ++ [ByteString.ofString "state.json"] :=
      Path.locate_join_name _ (by decide)
    rw [Call.before, hhere, hmoved, valueAt, contentAt, hfind]
    rfl
  have hfound : ∀ {v : World}, createDirectories archiveDir w₁ = (.ok (), v) →
      find v.tree (archiveDir / (⟨"state.json"⟩ : Path)) = some (.file content) ∧
        ∀ k, v.fault k = w.fault (archiveSteps outputPaths archiveDir w.tree + k) := by
    intro v hdir
    obtain ⟨hext, hway, hisDir⟩ := (createDirectories_extends w₁.tree _).apply_ok rfl hdir
    constructor
    · refine find_eq_some_iff.mpr ⟨(reaches_join_name (by decide)).mpr ⟨hway, hisDir⟩, ?_⟩
      rw [Path.locate_join_name _ (by decide)]
      exact hext.get?_eq_some hmoved
    · intro k
      have hsteps : v.faults = w.faults.drop (archiveSteps outputPaths archiveDir w.tree) := by
        rw [faults_createDirectories hdir, hfaults, List.drop_drop, htree,
          missingAmong_move hreach hmove]
        rfl
      rw [← World.fault_after, World.fault, World.fault, hsteps, World.faults_after]
  generalize hrest : w₂.faults = rest at hopens
  cases hopens with
  | @found v _ hdir =>
      obtain ⟨-, hfault⟩ := hfound hdir
      refine ⟨?_, ?_⟩
      · rw [← w₂.headD_faults, hrest, ← hfault, ← World.faults_after, World.headD_faults,
          World.fault_after]
      · rw [heq, archivedText, Call.writtenManifest, hbefore, hfault, hfault, hnow]
        rfl
  | @missing v v' hdir hmissing =>
      obtain ⟨hthere, -⟩ := hfound hdir
      cases hthere.symm.trans hmissing

theorem arrivesReadable_iff
    (h : Archives currentDir config outputPaths archived w w₁ w₂ w' members l)
    (husual : outputPaths.IsUsual) (hnames : NamesFiles w.tree outputPaths) :
    ArrivesReadable currentDir config outputPaths w ↔
      (JsonText.parse ((w₂.fault 0).arrived
        (JsonText.dumpIndented (.object members) ++ [newline]))).isSome = true := by
  have hplain : (Json.object members).isPlain JsonText.isDouble = true :=
    isPlain_of_isAmended isHistoric_id h.together.isAmended
  have hpasses := h.passes
  obtain ⟨archiveDir, hplace, hsame, htext⟩ := h.written husual hnames
  constructor
  · intro hreadable
    cases hfault : w₂.fault 0 with
    | none =>
        rw [Fault.arrived, JsonText.parse_dumpIndented _ h.isUtf8 hplain]
        rfl
    | unnoticed reached =>
        rw [Fault.arrived, htext]
        exact hreadable archiveDir hplace reached (hsame.symm.trans hfault)
    | reported | crash =>
        rw [hfault] at hpasses
        cases hpasses
  · intro hreadable archiveDir' hplace' reached hfault
    cases hplace.symm.trans hplace'
    rw [hsame, hfault, Fault.arrived, htext] at hreadable
    exact hreadable

/-- A file that both manifests name has kept its contents just when the new manifest can be
read and the file was in the directory of the session under its usual name. -/
theorem same_iff (h : Archives currentDir config outputPaths archived w w₁ w₂ w' members l)
    (hnames : NamesFiles w.tree outputPaths) {key : String} {name content : ByteString}
    {path : Path} (hkey : (filesMember outputPaths).find key = some (.string path.bytes))
    (hkey' : (filesMember archived).find key =
      some (.string (archived.artifactDir / (⟨name⟩ : Path)).bytes))
    (hname : Path.IsName name) (hne : name ≠ "state.json")
    (hreach : Reaches w.tree (outputPaths.artifactDir / (⟨name⟩ : Path)))
    (hfile : find w.tree path = some (.file content)) :
    (∃ p p' content', Names w.tree outputPaths.stateJsonPath key p ∧
        Names w'.tree archived.stateJsonPath key p' ∧
          find w.tree p = some (.file content') ∧ find w'.tree p' = some (.file content')) ↔
      (JsonText.parse ((w₂.fault 0).arrived
          (JsonText.dumpIndented (.object members) ++ [newline]))).isSome = true ∧
        find w.tree (outputPaths.artifactDir / (⟨name⟩ : Path)) = find w.tree path := by
  have hmoved : find w'.tree (archived.artifactDir / (⟨name⟩ : Path)) = some (.file content) ↔
      find w.tree (outputPaths.artifactDir / (⟨name⟩ : Path)) = some (.file content) := by
    rw [find_of_reaches hreach, Path.locate_join_name _ hname]
    exact h.find_eq_file_iff hname hne
  constructor
  · rintro ⟨p, p', content', hp, hp', hbefore, hafter⟩
    have hreadable : (JsonText.parse ((w₂.fault 0).arrived
        (JsonText.dumpIndented (.object members) ++ [newline]))).isSome = true := by
      obtain ⟨value, files, hvalue, -⟩ := id hp'
      exact (h.holds_iff.mp hvalue).2
    cases hp.unique (hnames.names hkey)
    cases hp'.unique ((h.namesFiles hreadable).names hkey')
    cases hbefore.symm.trans hfile
    exact ⟨hreadable, by rw [hmoved.mp hafter, hfile]⟩
  · rintro ⟨hreadable, hsame⟩
    exact ⟨_, _, content, hnames.names hkey, (h.namesFiles hreadable).names hkey', hfile,
      hmoved.mpr (hsame.trans hfile)⟩

end Archives

/-- The archived manifest is truthful just when it arrives in its file and the event log and the
summary were in the directory of the session under their usual names. -/
theorem isTruthful_iff_of_isUsual (husual : outputPaths.IsUsual)
    (hnames : NamesFiles w.tree outputPaths)
    (heventLog : ∃ content, find w.tree outputPaths.eventLogPath = some (.file content))
    (hsummary : ∃ content, find w.tree outputPaths.summaryJsonPath = some (.file content))
    (harchive : archiveArtifactSession currentDir config outputPaths w = (.ok archived, w')) :
    IsTruthful w.tree w'.tree outputPaths.stateJsonPath archived.stateJsonPath ↔
      outputPaths.HasUsualContents w.tree ∧
        ArrivesReadable currentDir config outputPaths w := by
  obtain ⟨w₁, w₂, members, l, h⟩ := exists_archives harchive
  obtain ⟨eventLog, heventLog⟩ := heventLog
  obtain ⟨summary, hsummary⟩ := hsummary
  have hreach : ∀ name : ByteString, Path.IsName name →
      Reaches w.tree (outputPaths.artifactDir / (⟨name⟩ : Path)) := by
    intro name hname
    obtain ⟨value, ⟨content, hfind, -⟩, -⟩ := id hnames
    rw [husual.stateJsonPath] at hfind
    exact (reaches_join_name hname).mpr
      ((reaches_join_name (by decide)).mp (find_eq_some_iff.mp hfind).1)
  have hpaths := h.paths
  have hsameEvent := h.same_iff hnames (find_filesMember "event_log")
    (by rw [hpaths]; exact find_filesMember "event_log") (by decide) (by decide)
    (hreach _ (by decide)) heventLog
  have hsameSummary := h.same_iff hnames
    (find_filesMember "summary_json") (by rw [hpaths]; exact find_filesMember "summary_json")
    (by decide) (by decide) (hreach _ (by decide)) hsummary
  rw [h.arrivesReadable_iff husual hnames]
  constructor
  · intro htruthful
    obtain ⟨hreadable, heq⟩ := hsameEvent.mp (htruthful.same _ (by simp))
    exact ⟨⟨heq, (hsameSummary.mp (htruthful.same _ (by simp))).2⟩, hreadable⟩
  · rintro ⟨⟨heventSame, hsummarySame⟩, hreadable⟩
    have heventAfter := hsameEvent.mpr ⟨hreadable, heventSame⟩
    have hsummaryAfter := hsameSummary.mpr ⟨hreadable, hsummarySame⟩
    constructor
    · intro key p hp
      rcases (h.namesFiles hreadable).eq_of_names hp with
        ⟨-, rfl⟩ | ⟨rfl, -⟩ | ⟨rfl, -⟩
      · obtain ⟨value, ⟨content, hfind, -⟩, -⟩ := h.namesFiles hreadable
        exact ⟨content, hfind⟩
      · obtain ⟨-, p', content, -, hp', -, hfind⟩ := heventAfter
        exact ⟨content, hp.unique hp' ▸ hfind⟩
      · obtain ⟨-, p', content, -, hp', -, hfind⟩ := hsummaryAfter
        exact ⟨content, hp.unique hp' ▸ hfind⟩
    · intro key hkey
      simp only [List.mem_cons, List.not_mem_nil, or_false] at hkey
      rcases hkey with rfl | rfl
      · exact heventAfter
      · exact hsummaryAfter

/-- For a session that `prepare_output_paths` accepts, whatever its overrides. -/
theorem isTruthful_iff {request : Request} {v v' : World}
    (haccepted : request.IsAccepted currentDir v outputPaths v')
    (hnames : NamesFiles w.tree outputPaths)
    (heventLog : ∃ content, find w.tree outputPaths.eventLogPath = some (.file content))
    (hsummary : ∃ content, find w.tree outputPaths.summaryJsonPath = some (.file content))
    (harchive : archiveArtifactSession currentDir config outputPaths w = (.ok archived, w')) :
    IsTruthful w.tree w'.tree outputPaths.stateJsonPath archived.stateJsonPath ↔
      outputPaths.HasUsualContents w.tree ∧
        ArrivesReadable currentDir config outputPaths w :=
  isTruthful_iff_of_isUsual (isUsual_of_isPrepared (isPrepared_of_isAccepted haccepted)) hnames
    heventLog hsummary harchive

end Archived

end ArchivedFiles

section Sample

/-- A capture that logs nothing. -/
def emptyCapture (request : Request) : Except Stop OutputPaths × World :=
  captureSession rootDir request.config request.eventLogOverride request.summaryJsonOverride []
    .null (quietWorld .empty [⟨"t0", 0⟩, ⟨"t1", 1⟩, ⟨"t2", 2⟩])

def emptyArchive (request : Request) (outputPaths : OutputPaths) :
    Except Stop OutputPaths × World :=
  archiveArtifactSession rootDir request.config outputPaths (emptyCapture request).2

theorem isAccepted_emptyCapture {request : Request} {outputPaths : OutputPaths}
    (hok : (emptyCapture request).1 = .ok outputPaths) :
    ∃ v', request.IsAccepted rootDir
      (quietWorld .empty [⟨"t0", 0⟩, ⟨"t1", 1⟩, ⟨"t2", 2⟩]) outputPaths v' := by
  have hrun : emptyCapture request = (.ok outputPaths, (emptyCapture request).2) :=
    Prod.ext hok rfl
  obtain ⟨prepared, v', hprepare, hrest⟩ := of_bind_ok hrun
  obtain ⟨_, _, -, hpure⟩ := of_bind_ok hrest
  cases hpure
  exact ⟨v', hprepare⟩

theorem archives_emptyCapture {request : Request} {outputPaths archived : OutputPaths}
    (hok : (emptyArchive request outputPaths).1 = .ok archived) :
    archiveArtifactSession rootDir request.config outputPaths (emptyCapture request).2 =
      (.ok archived, (emptyArchive request outputPaths).2) :=
  Prod.ext hok rfl

theorem namesFiles_emptyCapture {request : Request} {outputPaths : OutputPaths}
    (hids : request.config.HasIds) (hok : (emptyCapture request).1 = .ok outputPaths)
    (hvalue : (valueAt (emptyCapture request).2.tree outputPaths.stateJsonPath).isSome = true) :
    NamesFiles (emptyCapture request).2.tree outputPaths := by
  obtain ⟨value, hvalue⟩ := Option.isSome_iff_exists.mp hvalue
  obtain ⟨content, hfind, hparse⟩ := holds_of_valueAt hvalue
  have hpending := leftPending_of_captureSession hok
  obtain ⟨-, hnames⟩ := namesSessionAt_of_leftPending hids hpending
  exact ⟨value, ⟨content, hfind, hparse⟩,
    (hnames content value (find_eq_some_iff.mp hfind).2 hparse).files⟩

theorem namesFiles_victim :
    NamesFiles (emptyCapture victimRequest).2.tree (.inDirectory "/d/pending/s") :=
  namesFiles_emptyCapture ⟨by decide, by decide⟩ (by decide +kernel) (by decide +kernel)

theorem isTruthful_iff_victim :
    IsTruthful (emptyCapture victimRequest).2.tree
        (emptyArchive victimRequest (.inDirectory "/d/pending/s")).2.tree
        (OutputPaths.inDirectory "/d/pending/s").stateJsonPath
        (OutputPaths.inDirectory "/d/archive/s").stateJsonPath ↔
      (OutputPaths.inDirectory "/d/pending/s").HasUsualContents (emptyCapture victimRequest).2.tree ∧
        ArrivesReadable rootDir victimRequest.config (.inDirectory "/d/pending/s")
          (emptyCapture victimRequest).2 := by
  have hok : (emptyCapture victimRequest).1 = .ok (.inDirectory "/d/pending/s") := by
    decide +kernel
  obtain ⟨v', haccepted⟩ := isAccepted_emptyCapture hok
  have harchive : (emptyArchive victimRequest (.inDirectory "/d/pending/s")).1 =
      .ok (.inDirectory "/d/archive/s") := by decide +kernel
  exact isTruthful_iff haccepted namesFiles_victim ⟨[], by decide +kernel⟩
    ⟨"null" ++ [newline], by decide +kernel⟩ (archives_emptyCapture harchive)

/-- A session of the victim that logs elsewhere. -/
def elsewhereRequest : Request :=
  { config := victimConfig, eventLogOverride := some "/log" }

def elsewherePaths : OutputPaths :=
  { OutputPaths.inDirectory "/d/pending/s" with eventLogPath := "/log" }

/-- The event log stays where it is, and the archived manifest names a file that is not there. -/
theorem not_isTruthful_elsewhere :
    (∃ v', elsewhereRequest.IsAccepted rootDir
        (quietWorld .empty [⟨"t0", 0⟩, ⟨"t1", 1⟩, ⟨"t2", 2⟩]) elsewherePaths v') ∧
      NamesFiles (emptyCapture elsewhereRequest).2.tree elsewherePaths ∧
      find (emptyCapture elsewhereRequest).2.tree elsewherePaths.eventLogPath =
        some (.file []) ∧
      find (emptyCapture elsewhereRequest).2.tree elsewherePaths.summaryJsonPath =
        some (.file ("null" ++ [newline])) ∧
      (emptyArchive elsewhereRequest elsewherePaths).1 = .ok (.inDirectory "/d/archive/s") ∧
      ¬ IsTruthful (emptyCapture elsewhereRequest).2.tree
        (emptyArchive elsewhereRequest elsewherePaths).2.tree elsewherePaths.stateJsonPath
        (OutputPaths.inDirectory "/d/archive/s").stateJsonPath := by
  have hok : (emptyCapture elsewhereRequest).1 = .ok elsewherePaths := by decide +kernel
  obtain ⟨v', haccepted⟩ := isAccepted_emptyCapture hok
  have hnames : NamesFiles (emptyCapture elsewhereRequest).2.tree elsewherePaths :=
    namesFiles_emptyCapture ⟨by decide, by decide⟩ hok (by decide +kernel)
  have hlog : find (emptyCapture elsewhereRequest).2.tree elsewherePaths.eventLogPath =
      some (.file []) := by decide +kernel
  have hsummary : find (emptyCapture elsewhereRequest).2.tree elsewherePaths.summaryJsonPath =
      some (.file ("null" ++ [newline])) := by decide +kernel
  have harchive : (emptyArchive elsewhereRequest elsewherePaths).1 =
      .ok (.inDirectory "/d/archive/s") := by decide +kernel
  have husual := isUsual_of_isPrepared (isPrepared_of_isAccepted haccepted)
  refine ⟨⟨v', haccepted⟩, hnames, hlog, hsummary, harchive, fun htruthful => ?_⟩
  obtain ⟨hcontents, -⟩ := (isTruthful_iff_of_isUsual husual hnames ⟨_, hlog⟩ ⟨_, hsummary⟩
    (archives_emptyCapture harchive)).mp htruthful
  have hmissing : find (emptyCapture elsewhereRequest).2.tree
      (elsewherePaths.artifactDir / "session_events.ndjson") = none := by decide +kernel
  have heventLog := hcontents.eventLog
  rw [hmissing, hlog] at heventLog
  cases heventLog

end Sample

end BtClient
