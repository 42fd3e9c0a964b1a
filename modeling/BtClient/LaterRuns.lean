import BtClient.GeneratedIds
import BtClient.GuardedTrees

/-!
# Later runs of the program

Once the event log and the summary of a session are in its directory, no later run of the
program in the same artifacts directory loses or changes them, whatever session it captures,
whatever it uploads and archives, and wherever it is cut short: they stay where they are
until the session is archived, and then they are in the archive. They get there only in a run
whose destination has taken the session.
-/

namespace BtClient

open Effect FileSystem

section Runs

variable [JsonText] {base : Path} {m n : ByteString} {r : SessionRecords}
  {watch : Watch} {t t' : Tree} {config : RuntimeConfig} {outputPaths : OutputPaths}
  {currentDir : CurrentDir}

/-! ### The session of a run -/

omit [JsonText] in
/-- The path does not go through or lead to one of the two directories. -/
def LeadsOutside (base p : Path) : Prop :=
  ∀ k ∈ p.places, ¬ (base / "pending").locate <+: k ∧ ¬ (base / "archive").locate <+: k

omit [JsonText] in
/-- On the way to the path, nothing is left that has been entered. -/
def IsStraight (p : Path) : Prop := ∀ d ∈ p.visited, d <+: p.locate

omit [JsonText] in
instance (p : Path) : Decidable (IsStraight p) :=
  inferInstanceAs (Decidable (∀ d ∈ p.visited, d <+: p.locate))

omit [JsonText] in
theorem isPendingAt_of_isPrepared {eventLogOverride summaryJsonOverride : Option Path}
    (hbase : IsBase currentDir config base) (hid : IsSingleName config.sessionId m)
    (hprepared : IsPrepared currentDir config eventLogOverride summaryJsonOverride outputPaths) :
    IsPendingAt base m outputPaths := by
  have hartifactDir : outputPaths.artifactDir = base / "pending" / (⟨config.sessionId⟩ : Path) :=
    Option.some.inj (hprepared.artifactDir.symm.trans (Path.absolute_join hbase.pending _))
  have hlocate : outputPaths.artifactDir.locate = (base / "pending").locate ++ [m] := by
    rw [hartifactDir, hid.locate_join]
  refine ⟨hid.isName, hlocate, ?_, ?_, ?_⟩
  · rw [hartifactDir, hid.filename_join (Path.hasFilename_join_name base (by decide))]
  · rw [hprepared.stateJsonPath, hartifactDir]
    exact Path.isAbsolute_join (Path.isAbsolute_join
      (Path.isAbsolute_of_absolute currentDir.2 hbase.pending))
  · rw [hprepared.stateJsonPath, locate_stateJson, manifestLocation, hlocate, List.append_assoc]
    rfl

omit [JsonText] in
theorem isStraight_join_name (hstraight : IsStraight base) {name : ByteString}
    (hname : Path.IsName name) : IsStraight (base / (⟨name⟩ : Path)) := by
  intro d hd
  rw [Path.locate_join_name base hname]
  rcases (Path.mem_visited_join_name base hname).mp hd with hd | rfl
  · exact (hstraight d hd).trans (List.prefix_append _ _)
  · exact List.prefix_append _ _

omit [JsonText] in
/-- What has something in it is found on a straight way. -/
theorem find_eq_dir {directory : Path} (hstraight : IsStraight directory) {id : ByteString}
    (hid : IsSingleName id n) {name : ByteString} {node : Node ByteString}
    (hnode : t.get? (directory.locate ++ [n] ++ [name]) = some node) :
    find t (directory / (⟨id⟩ : Path)) = some .dir := by
  have hdir : ∀ d, d <+: directory.locate ++ [n] → t.isDir d := by
    intro d hd
    refine FileTree.isDir_of_isPrefix (by rw [hnode]; rfl) (hd.trans (List.prefix_append _ _)) ?_
    rintro rfl
    have hlength := hd.length_le
    simp at hlength
  refine find_eq_some_iff.mpr ⟨fun d hd => ?_, ?_⟩
  · rcases hid.mem_visited_join.mp hd with hd | rfl
    · exact hdir d ((hstraight d hd).trans (List.prefix_append _ _))
    · exact hdir _ (List.prefix_append _ _)
  · rw [hid.locate_join]
    exact hdir _ List.prefix_rfl

omit [JsonText] in
/-- A session that keeps its records is not started again. -/
theorem ne_of_isNewSession (hstraight : IsStraight base)
    (hrecords : KeepsRecords base r t) (hid : IsSingleName config.sessionId m)
    (hnew : IsNewSession t (base / "pending" / (⟨config.sessionId⟩ : Path))
      (base / "archive" / (⟨config.sessionId⟩ : Path))) : m ≠ r.name := by
  rintro rfl
  rcases hrecords with h | h
  · have hdir := find_eq_dir (isStraight_join_name hstraight (by decide)) hid h.eventLog
    have hchild := FileTree.mem_children_iff.mpr (Option.isSome_of_eq_some h.eventLog)
    rcases hnew.pending with hnone | ⟨-, hempty⟩
    · cases hnone.symm.trans hdir
    · rw [hid.locate_join] at hempty
      have hnil : _ ∈ ([] : List ByteString) := hempty ▸ hchild
      cases hnil
  · have hdir := find_eq_dir (isStraight_join_name hstraight (by decide)) hid h.eventLog
    cases hnew.archive.symm.trans hdir

omit [JsonText] in
theorem isPrefix_of_mem_recordPlaces {k : Location} (hk : k ∈ recordPlaces base n) :
    (base / "pending").locate ++ [n] <+: k ∨ (base / "archive").locate ++ [n] <+: k := by
  obtain ⟨directory, hdirectory, hk⟩ := List.mem_flatMap.mp hk
  have hprefix : directory ++ [n] <+: k := by
    simp only [List.mem_cons, List.not_mem_nil, or_false] at hk
    rcases hk with rfl | rfl
    · exact List.prefix_append _ _
    · exact List.prefix_append _ _
  simp only [List.mem_cons, List.not_mem_nil, or_false] at hdirectory
  rcases hdirectory with rfl | rfl
  · exact Or.inl hprefix
  · exact Or.inr hprefix

/-- What another session writes next to its manifest is no manifest and no record of this
one. -/
theorem ignores_guarded_usual (hne : ∀ r ∈ watch.kept, m ≠ r.name) (hpending : IsPendingAt base m outputPaths)
    {name : ByteString} (hname : Path.IsName name) (hstate : name ≠ ByteString.ofString "state.json") :
    Ignores (outputPaths.artifactDir / (⟨name⟩ : Path)).locate
      (Guarded base watch) := by
  have hlocate : (outputPaths.artifactDir / (⟨name⟩ : Path)).locate =
      (base / "pending").locate ++ [m, name] := by
    rw [Path.locate_join_name _ hname, hpending.locate, List.append_assoc]
    rfl
  apply ignores_guarded
  · intro k heq
    rw [hlocate, manifestPlace] at heq
    have htail := List.append_cancel_left heq
    simp only [List.cons.injEq, and_true] at htail
    exact hstate htail.2.symm
  · intro r hr hmem
    rw [hlocate] at hmem
    rcases isPrefix_of_mem_recordPlaces hmem with hpre | hpre
    · rw [List.prefix_append_right_inj] at hpre
      exact hne r hr (List.cons_prefix_cons.mp hpre).1.symm
    · exact not_isPrefix_pending _ _ hpre
  · intro k _ heq
    rw [hlocate, archivedLog, List.append_assoc] at heq
    exact not_isPrefix_pending _ _ ⟨[], by rw [heq, List.append_nil]⟩

/-- What lies outside is no manifest and no record. -/
theorem ignores_guarded_outside {p : Path} (houtside : LeadsOutside base p) :
    Ignores p.locate (Guarded base watch) := by
  obtain ⟨hpending, harchive⟩ := houtside p.locate (Path.mem_places.mpr (Or.inr rfl))
  apply ignores_guarded
  · intro k heq
    exact hpending (heq ▸ List.prefix_append _ _)
  · intro r hr hmem
    rcases isPrefix_of_mem_recordPlaces hmem with hpre | hpre
    · exact hpending ((List.prefix_append _ _).trans hpre)
    · exact harchive ((List.prefix_append _ _).trans hpre)
  · intro k _ heq
    rw [archivedLog, List.append_assoc] at heq
    exact harchive (heq ▸ List.prefix_append _ _)

theorem ignores_guarded_output (hne : ∀ r ∈ watch.kept, m ≠ r.name) (hpending : IsPendingAt base m outputPaths)
    {override : Option Path} {name : ByteString} {p : Path} (hname : Path.IsName name)
    (hstate : name ≠ ByteString.ofString "state.json")
    (houtput : IsOutputPath currentDir override (outputPaths.artifactDir / (⟨name⟩ : Path)) p)
    (houtside : ∀ path ∈ override, ∀ q, Path.absolute currentDir path = some q →
      LeadsOutside base q) : Ignores p.locate (Guarded base watch) := by
  cases override with
  | none =>
      obtain rfl : p = _ := houtput
      exact ignores_guarded_usual hne hpending hname hstate
  | some path => exact ignores_guarded_outside (houtside path rfl p houtput)

/-- The capture of another session. -/
theorem keeps_captureOutcome_guarded (hpending : IsPendingAt base m outputPaths)
    (heventLog : Ignores outputPaths.eventLogPath.locate (Guarded base watch))
    (hsummary : Ignores outputPaths.summaryJsonPath.locate (Guarded base watch))
    (outcome : SessionOutcome) :
    Keeps (OnTree (Guarded base watch))
      (captureOutcome config outputPaths outcome) := by
  have hplace : outputPaths.stateJsonPath.locate =
      ((base / "pending").locate ++ [m]) ++ [ByteString.ofString "state.json"] := by
    rw [hpending.manifest, manifestPlace, List.append_assoc]
    rfl
  exact keeps_captureOutcome (fun state =>
    keeps_rewriteState_guarded isHistoric_id hpending.isAbsolute hplace config state) heventLog
      hsummary outcome

theorem keeps_uploadSession_guarded (env : Surroundings)
    (hheld : ∀ n ∈ watch.held, ¬ env.network.Delivers config.destinationUrl base n)
    (hbase : IsBase env.currentDir config base) (hpending : IsPendingAt base m outputPaths) :
    Keeps (OnTree (Guarded base watch)) (uploadSession env config outputPaths) :=
  keeps_uploadSession env (keeps_uploadAndArchive_guarded env hheld hbase hpending)

/-! ### Runs of the program -/

/-- What a later run is asked for: the same artifacts directory, a session id that is one name
or is to be generated, and no output in one of the two directories. -/
structure Arguments.StaysApart (currentDir : CurrentDir) (base : Path) (arguments : Arguments) :
    Prop where
  isBase : IsBase currentDir arguments.config base
  sessionId : arguments.config.sessionId = [] ∨ ∃ m, IsSingleName arguments.config.sessionId m
  overrides : ∀ path, arguments.eventLogOverride = some path ∨
    arguments.summaryJsonOverride = some path → ∀ q, Path.absolute currentDir path = some q →
      LeadsOutside base q

omit [JsonText] in
theorem not_isSingleName_nil : ¬ IsSingleName [] m := by
  rintro ⟨-, before, hcomponents, -⟩
  have hmem : PathComponent.name m ∈ (⟨[]⟩ : Path).components := by simp [hcomponents]
  have hcomponents : (⟨[]⟩ : Path).components = [.here] := by decide
  rw [hcomponents, List.mem_singleton] at hmem
  cases hmem

omit [JsonText] in
theorem Arguments.StaysApart.exists_isSingleName {process : Process} {arguments : Arguments}
    (h : arguments.StaysApart process.currentDir base) :
    ∃ m, IsSingleName (process.identified arguments.config).sessionId m := by
  rcases h.sessionId with hempty | ⟨m, hm⟩
  · refine ⟨generateId "session" process.sessionIdSource, ?_⟩
    simp only [Process.identified, hempty, List.isEmpty_nil, if_true]
    exact isSingleName_generateId (by decide)
  · refine ⟨m, ?_⟩
    have hne : arguments.config.sessionId.isEmpty = false := by
      cases hid : arguments.config.sessionId with
      | nil => exact absurd (hid ▸ hm) not_isSingleName_nil
      | cons c rest => rfl
    simp only [Process.identified, hne, Bool.false_eq_true, if_false]
    exact hm

/-- The session of a later run is another one. -/
theorem triple_prepareOutputPaths_guarded (hstraight : IsStraight base)
    (hbase : IsBase currentDir config base) (hid : IsSingleName config.sessionId m)
    (eventLogOverride summaryJsonOverride : Option Path) :
    Triple (OnTree (Guarded base watch))
      (prepareOutputPaths currentDir config eventLogOverride summaryJsonOverride)
      (fun outputPaths w => OnTree (Guarded base watch) w ∧ (∀ r ∈ watch.kept, m ≠ r.name) ∧
        IsPrepared currentDir config eventLogOverride summaryJsonOverride outputPaths)
      (fun _ => OnTree (Guarded base watch)) := by
  apply triple_onTree
  intro t hguarded
  have hkeeps : Keeps (OnTree (Guarded base watch))
      (prepareOutputPaths currentDir config eventLogOverride summaryJsonOverride) :=
    keeps_prepareOutputPaths keeps_createDirectories_guarded eventLogOverride summaryJsonOverride
  refine (hkeeps.and (triple_prepareOutputPaths t currentDir config eventLogOverride
    summaryJsonOverride)).conseq (fun w hw => ⟨onTree_of_eq hw hguarded, hw⟩) ?_
      fun _ _ hw => hw.1
  rintro outputPaths w ⟨hw, hprepared, ⟨archiveDir, harchiveDir, hnew⟩, -⟩
  have hartifactDir : outputPaths.artifactDir = base / "pending" / (⟨config.sessionId⟩ : Path) :=
    Option.some.inj (hprepared.artifactDir.symm.trans (Path.absolute_join hbase.pending _))
  obtain rfl : archiveDir = base / "archive" / (⟨config.sessionId⟩ : Path) :=
    Option.some.inj (harchiveDir.symm.trans (Path.absolute_join hbase.archive _))
  exact ⟨hw, fun r hr => ne_of_isNewSession hstraight (hguarded.records r hr) hid
    (hartifactDir ▸ hnew), hprepared⟩

theorem keeps_runSession_guarded {process : Process} {arguments : Arguments}
    (hheld : ∀ n ∈ watch.held,
      ¬ process.network.Delivers arguments.config.destinationUrl base n)
    (hstraight : IsStraight base) (h : arguments.StaysApart process.currentDir base) :
    Keeps (OnTree (Guarded base watch)) (runSession process arguments) := by
  have hbase : IsBase process.currentDir (process.identified arguments.config) base :=
    ⟨h.isBase.pending, h.isBase.archive⟩
  obtain ⟨m, hid⟩ := h.exists_isSingleName
  unfold runSession
  dsimp only
  refine Triple.bind (triple_prepareOutputPaths_guarded hstraight hbase hid _ _)
    fun outputPaths => ?_
  apply Triple.of_pre
  rintro ⟨hne, hprepared⟩
  have hpending := isPendingAt_of_isPrepared hbase hid hprepared
  have heventLog : Ignores outputPaths.eventLogPath.locate (Guarded base watch) :=
    ignores_guarded_output hne hpending (by decide) (by decide) hprepared.eventLogPath
      fun path hpath => h.overrides path (Or.inl hpath)
  have hsummary : Ignores outputPaths.summaryJsonPath.locate (Guarded base watch) :=
    ignores_guarded_output hne hpending (by decide) (by decide) hprepared.summaryJsonPath
      fun path hpath => h.overrides path (Or.inr hpath)
  exact (keeps_captureOutcome_guarded hpending heventLog hsummary _).bind fun _ =>
    keeps_uploadSession_guarded process.toSurroundings hheld hbase hpending

variable {process : Process}

theorem keeps_retryAtStart_guarded
    (hheld : ∀ n ∈ watch.held, ¬ process.network.Delivers config.destinationUrl base n)
    (hbase : IsBase process.currentDir config base) :
    Keeps (OnTree (Guarded base watch)) (retryAtStart process config) := by
  unfold retryAtStart
  apply Keeps.catchFailure
  · exact (keeps_retryPendingArtifactUploads_guarded process.toSurroundings hheld hbase).bind
      fun _ => Keeps.pure _
  · exact fun _ => Keeps.pure _

theorem keeps_runArguments_guarded {arguments : Arguments}
    (hheld : ∀ n ∈ watch.held,
      ¬ process.network.Delivers arguments.config.destinationUrl base n)
    (hstraight : IsStraight base)
    (h : arguments.StaysApart process.currentDir base) :
    Keeps (OnTree (Guarded base watch)) (runArguments process arguments) := by
  unfold runArguments
  split
  · exact Keeps.throw _
  · apply Keeps.bind (keeps_retryAtStart_guarded hheld h.isBase)
    intro uploaded
    cases uploaded with
    | none => exact Keeps.pure _
    | some uploaded =>
        dsimp only
        split
        · exact keeps_runSession_guarded hheld hstraight h
        · split
          · exact Keeps.pure _
          · exact Keeps.throw _

/-- The destination that the command line names has taken the session `m`. -/
def Process.Delivers (process : Process) (argv : List ByteString) (base : Path)
    (m : ByteString) : Prop :=
  ∃ arguments, parseArguments {} argv = .ok (.run arguments) ∧
    process.network.Delivers arguments.config.destinationUrl base m

variable {argv : List ByteString}

/-- Every run keeps what it is watched for, whatever its command line, as long as it stays
apart and its destination does not take a session that is held back. -/
theorem keeps_runMain_guarded (hheld : ∀ n ∈ watch.held, ¬ process.Delivers argv base n)
    (hstraight : IsStraight base)
    (h : ∀ arguments, parseArguments {} argv = .ok (.run arguments) →
      arguments.StaysApart process.currentDir base) :
    Keeps (OnTree (Guarded base watch)) (runMain process argv) := by
  unfold runMain
  split
  · exact Keeps.pure _
  · exact Keeps.pure _
  · next arguments hparsed =>
      have hheld' : ∀ n ∈ watch.held,
          ¬ process.network.Delivers arguments.config.destinationUrl base n :=
        fun n hn hdelivers => hheld n hn ⟨arguments, hparsed, hdelivers⟩
      exact Keeps.catchFailure (keeps_runArguments_guarded hheld' hstraight (h arguments hparsed))
        fun _ => Keeps.pure _

/-- One run of a process in the tree: it may meet faults and may be cut short anywhere. -/
def ProcessRun (base : Path) (process : Process) (argv : List ByteString) (t t' : Tree) : Prop :=
  ∃ (faults : List Fault) (clock : List TimestampPair),
    (∀ arguments, parseArguments {} argv = .ok (.run arguments) →
      arguments.StaysApart process.currentDir base) ∧
    (runMain process argv { tree := t, faults := faults, clock := clock }).2.tree = t'

/-- One run of the program, whatever surrounds it and whatever its session logs. -/
def ProgramRun (base : Path) (t t' : Tree) : Prop :=
  ∃ process argv, ProcessRun base process argv t t'

theorem guarded_processRun (hheld : ∀ n ∈ watch.held, ¬ process.Delivers argv base n)
    (hstraight : IsStraight base) (hrun : ProcessRun base process argv t t')
    (h : Guarded base watch t) : Guarded base watch t' := by
  obtain ⟨faults, clock, hapart, rfl⟩ := hrun
  have hkeeps : Keeps (OnTree (Guarded base watch)) (runMain process argv) :=
    keeps_runMain_guarded hheld hstraight hapart
  exact hkeeps.final h

/-- Any number of runs keep the records that are there. -/
theorem guarded_programRuns (hheld : watch.held = ∅) (hstraight : IsStraight base)
    (hruns : Relation.ReflTransGen (ProgramRun base) t t') (h : Guarded base watch t) :
    Guarded base watch t' := by
  induction hruns with
  | refl => exact h
  | tail _ hrun ih =>
      obtain ⟨process, argv, hrun⟩ := hrun
      exact guarded_processRun (Watch.forall_held hheld _) hstraight hrun ih

theorem guarded_nothing (h : Settled base t) : Guarded base .nothing t :=
  ⟨h, fun r hr => absurd hr (Set.notMem_empty r), Watch.forall_held rfl _⟩

theorem guarded_keeping (h : Settled base t) (hrecords : KeepsRecords base r t) :
    Guarded base (.keeping r) t := by
  refine ⟨h, fun r' hr' => ?_, Watch.forall_held rfl _⟩
  rw [Set.mem_singleton_iff.mp hr']
  exact hrecords

/-- Whenever a session has its records, no later run loses them or changes them: they stay in
the pending directory or go to the archive with it. -/
theorem keepsRecords_programRuns {t₀ : Tree} (hstraight : IsStraight base)
    (hsettled : Settled base t₀) (hearlier : Relation.ReflTransGen (ProgramRun base) t₀ t)
    (hrecords : HasRecords (base / "pending").locate r t)
    (hlater : Relation.ReflTransGen (ProgramRun base) t t') : KeepsRecords base r t' := by
  have hsettled' : Settled base t :=
    (guarded_programRuns rfl hstraight hearlier (guarded_nothing hsettled)).toSettled
  exact (guarded_programRuns rfl hstraight hlater
    (guarded_keeping hsettled' (Or.inl hrecords))).records r (Set.mem_singleton r)

/-- A session gets into the archive only in a run whose destination has taken it. -/
theorem delivers_of_archived {t₀ : Tree} {content : ByteString} (hstraight : IsStraight base)
    (hsettled : Settled base t₀) (hearlier : Relation.ReflTransGen (ProgramRun base) t₀ t)
    (hrun : ProcessRun base process argv t t') (hbefore : LacksFileAt (archivedLog base n) t)
    (hafter : t'.get? (archivedLog base n) = some (.file content)) :
    process.Delivers argv base n := by
  by_contra hnot
  have hsettled' : Settled base t :=
    (guarded_programRuns rfl hstraight hearlier (guarded_nothing hsettled)).toSettled
  have hheld : ∀ n' ∈ (Watch.holding n).held, ¬ process.Delivers argv base n' := by
    intro n' hn'
    rw [Set.mem_singleton_iff.mp hn']
    exact hnot
  have hguarded : Guarded base (.holding n) t := by
    refine ⟨hsettled', fun r hr => absurd hr (Set.notMem_empty r), fun n' hn' => ?_⟩
    rw [Set.mem_singleton_iff.mp hn']
    exact hbefore
  have hholds := (guarded_processRun hheld hstraight hrun hguarded).holdsBack
  exact hholds n (Set.mem_singleton n) content hafter

/-- An empty tree is settled. -/
theorem settled_empty (base : Path) : Settled base .empty := by
  refine ⟨hasNames_empty, fun n content value hget => ?_⟩
  have hne : manifestPlace (base / "pending") n ≠ [] := by simp [manifestPlace]
  obtain ⟨m, l, hcons⟩ := List.exists_cons_of_ne_nil hne
  rw [hcons] at hget
  cases hget

end Runs

section Sample

/-- A process with a destination that takes everything. -/
def takingProcess : Process where
  currentDir := rootDir
  network := fun _ _ => .answered 200 "HTTP/1.1 200 OK" []
  libraryMessage := fun _ => []
  runIdSource := ⟨⟨2024, 1, 2, 3, 4, 5, by decide, by decide, by decide, by decide, by decide⟩, 7, 8⟩
  sessionIdSource :=
    ⟨⟨2024, 1, 2, 3, 4, 5, by decide, by decide, by decide, by decide, by decide⟩, 7, 9⟩
  session := fun _ _ => ⟨[finishedEvent], .ok (.object [])⟩

/-- A run that captures the session `s`. -/
def capturingArgv : List ByteString :=
  ["-f", "magnet:?x", "--artifacts-dir", "/d", "--session-id", "s", "--run-id", "r"]

/-- A run that uploads what is pending and captures a session with a generated id. -/
def uploadingArgv : List ByteString :=
  ["-f", "magnet:?x", "--artifacts-dir", "/d", "--destination-url", "http://a"]

def capturedTree : Tree := (runMain takingProcess capturingArgv (quietWorld .empty [])).2.tree

def uploadedTree : Tree :=
  (runMain takingProcess uploadingArgv (quietWorld capturedTree [])).2.tree

def sampleRecords : SessionRecords :=
  ⟨"s", eventText [finishedEvent], JsonText.dump (.object []) ++ [newline]⟩

theorem processRun_takingProcess {argv : List ByteString} {config : RuntimeConfig} {t : Tree}
    (hparsed : parseArguments {} argv = .ok (.run { config := config }))
    (hdir : config.artifactsDir = "/d")
    (hid : config.sessionId = [] ∨ config.sessionId = "s") :
    ProcessRun "/d" takingProcess argv t
      (runMain takingProcess argv (quietWorld t [])).2.tree := by
  refine ⟨[], [], fun arguments harguments => ?_, rfl⟩
  rw [hparsed] at harguments
  cases harguments
  refine ⟨⟨by rw [hdir]; decide, by rw [hdir]; decide⟩, ?_, by simp⟩
  have hs : IsSingleName "s" "s" := ⟨by decide, [], by decide, by simp⟩
  refine hid.imp_right fun hid => ⟨"s", ?_⟩
  rw [hid]
  exact hs

theorem processRun_capturedTree :
    ProcessRun "/d" takingProcess capturingArgv .empty capturedTree :=
  processRun_takingProcess rfl rfl (Or.inr rfl)

theorem processRun_uploadedTree :
    ProcessRun "/d" takingProcess uploadingArgv capturedTree uploadedTree :=
  processRun_takingProcess rfl rfl (Or.inl rfl)

theorem keepsRecords_uploadedTree : KeepsRecords "/d" sampleRecords uploadedTree := by
  have hcapture : ProgramRun "/d" .empty capturedTree := ⟨_, _, processRun_capturedTree⟩
  have hupload : ProgramRun "/d" capturedTree uploadedTree := ⟨_, _, processRun_uploadedTree⟩
  have hrecords : HasRecords ("/d" / "pending" : Path).locate sampleRecords capturedTree :=
    ⟨by decide +kernel, by decide +kernel⟩
  exact keepsRecords_programRuns (by decide) (settled_empty "/d") (.single hcapture) hrecords
    (.single hupload)

theorem delivers_uploadedTree : takingProcess.Delivers uploadingArgv "/d" "s" := by
  have hcapture : ProgramRun "/d" .empty capturedTree := ⟨_, _, processRun_capturedTree⟩
  have hbefore : LacksFileAt (archivedLog "/d" "s") capturedTree :=
    lacksFileAt_of_get? (by decide +kernel)
  have hafter : uploadedTree.get? (archivedLog "/d" "s") = some (.file sampleRecords.eventLog) := by
    decide +kernel
  exact delivers_of_archived (by decide) (settled_empty "/d") (.single hcapture)
    processRun_uploadedTree hbefore hafter

end Sample

end BtClient
