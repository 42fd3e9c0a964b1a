import BtClient.AroundTrees
import BtClient.LaterRuns

/-!
# Files that later runs do not touch

The files that the manifest of a session names stay as they are until the session is archived,
whatever later runs capture, upload and archive, as long as these go around them: what they
write themselves leads neither to the files nor to a manifest, the check of a new session sees
its directory, and no other session is archived with one of the files in its directory.
-/

namespace BtClient

open Effect FileSystem

/-! ### Runs of the program -/

section Runs

variable {base b : Path} {m n : ByteString} {rest : Location} {t t' : Tree}
  {places files : Set (Location × Set (Node ByteString))}
  {choices : Set (Set (Location × Set (Node ByteString)))} {dirs kept : Set Location}

/-- Where the manifest of a session lies in one of the two directories. -/
def sessionManifest (directory : Path) (session : Location) : Location :=
  directory.locate ++ (session ++ [ByteString.ofString "state.json"])

/-- A manifest of the artifacts directory. -/
def IsManifestPlace (base : Path) (k : Location) : Prop :=
  ∃ session, k = sessionManifest (base / "pending") session ∨
    k = sessionManifest (base / "archive") session

/-- What is a directory before a run of the program, and what the retries at its start do not
move. -/
def Arguments.steadyDirs (arguments : Arguments) (base : Path) (t : Tree) : Set Location :=
  {d | t.isDir d ∧ (arguments.config.destinationUrl.isEmpty = true ∨ ¬ base.locate <+: d)}

/-- What a later run is asked for, when the session `n` of the pending directory has the files:
nothing that it writes leads to them or to a manifest, the path of its session leaves only steady
directories again, and it uploads no other session with one of the files in its directory. -/
structure Process.GoesAround (process : Process) (base : Path) (n : ByteString)
    (kept : Set Location) (t : Tree) (arguments : Arguments) : Prop where
  isBase : IsBase process.currentDir arguments.config base
  artifactDir : ∀ p, Path.absolute process.currentDir (arguments.config.artifactsDir / "pending" /
    (⟨(process.identified arguments.config).sessionId⟩ : Path)) = some p →
      ∀ d ∈ p.visited, d <+: p.locate ∨ d ∈ arguments.steadyDirs base t
  overrides : ∀ path, arguments.eventLogOverride = some path ∨
    arguments.summaryJsonOverride = some path → ∀ q, Path.absolute process.currentDir path = some q →
      q.locate ∉ kept ∧ ¬ IsManifestPlace base q.locate
  sessions : arguments.config.destinationUrl.isEmpty = true ∨ ∀ m ≠ n, ∀ k ∈ kept,
    (base / "pending").locate ++ [m] <+: k →
      LacksFileAt (manifestPlace (base / "pending") m) t

variable [JsonText]

/-- One run of the program in the artifacts directory that `base` leads to: it may meet faults
and may be cut short anywhere. -/
def AroundRun (base : Path) (n : ByteString) (kept : Set Location) (t t' : Tree) : Prop :=
  ∃ (process : Process) (argv : List ByteString) (faults : List Fault)
    (clock : List TimestampPair) (b : Path), b.locate = base.locate ∧
    (∀ arguments, parseArguments {} argv = .ok (.run arguments) →
      process.GoesAround b n kept t arguments) ∧
    (runMain process argv { tree := t, faults := faults, clock := clock }).2.tree = t'

/-- One of the choices of places has its nodes, and these are directories. -/
def AroundSome (base : Path) (choices : Set (Set (Location × Set (Node ByteString))))
    (dirs : Set Location) (t : Tree) : Prop :=
  ∃ places ∈ choices, Around base (places ∪ dirPlaces dirs) t

theorem triple_aroundSome {α : Type} {action : Action α} {Q : α → World → Prop}
    {E : Stop → World → Prop}
    (h : ∀ places ∈ choices, Triple (OnTree (Around base (places ∪ dirPlaces dirs))) action Q E) :
    Triple (OnTree (AroundSome base choices dirs)) action Q E := by
  rintro w ⟨places, hplaces, haround⟩
  exact h places hplaces w haround

theorem AroundSome.add_dirs (h : AroundSome base choices ∅ t) (hdirs : ∀ d ∈ dirs, t.isDir d) :
    AroundSome base choices dirs t := by
  obtain ⟨places, hplaces, haround⟩ := h
  exact ⟨places, hplaces, haround.toSettled,
    (haround.places.mono Set.subset_union_left).union (hasAll_dirPlaces.mpr hdirs)⟩

theorem Around.aroundSome (h : Around base places t) (hplaces : places ∈ choices) :
    AroundSome base choices ∅ t :=
  ⟨places, hplaces, h.toSettled,
    h.places.union (hasAll_dirPlaces.mpr fun _ hd => absurd hd (Set.notMem_empty _))⟩

variable {process : Process} {arguments : Arguments}

theorem triple_runArguments_around (haround : AroundSome base choices ∅ t)
    (hargs : process.GoesAround base n kept t arguments)
    (hfiles : ∀ places ∈ choices, ∀ p ∈ places, p.2 ⊆ anyFile)
    (hkept : ∀ places ∈ choices, ∀ p ∈ places, p.1 ∈ kept ∨ IsManifestPlace base p.1)
    (hupload : ∀ m content config outputPaths,
      arguments.config.destinationUrl.isEmpty = false →
        t.get? (manifestPlace (base / "pending") m) = some (.file content) →
          IsBase process.currentDir config base → IsPendingAt base m outputPaths →
            Keeps (OnTree (AroundSome base choices (arguments.steadyDirs base t)))
              (uploadAndArchive process.toSurroundings config outputPaths)) :
    Triple (OnTree (· = t)) (runArguments process arguments)
      (fun _ => OnTree (AroundSome base choices ∅))
      (fun _ => OnTree (AroundSome base choices ∅)) := by
  have hsteady : AroundSome base choices (arguments.steadyDirs base t) t :=
    haround.add_dirs fun d hd => hd.1
  have hweaken : ∀ {t' : Tree}, AroundSome base choices (arguments.steadyDirs base t) t' →
      AroundSome base choices ∅ t' := by
    rintro t' ⟨places, hplaces, h⟩
    exact Around.aroundSome ⟨h.toSettled, h.places.mono Set.subset_union_left⟩ hplaces
  have hsettled : Settled base t := by
    obtain ⟨places, -, h⟩ := haround
    exact h.toSettled
  unfold runArguments
  split
  · exact Triple.throw fun w hw => onTree_of_eq hw haround
  · refine Triple.bind ((triple_retryAtStart_of hsettled hargs.isBase hsteady hupload).conseq
      (fun _ h => h) (fun _ _ h => h) fun _ _ h => hweaken h) fun uploaded => ?_
    cases uploaded with
    | none => exact Triple.pure fun _ h => hweaken h
    | some uploaded =>
        dsimp only
        split
        · apply triple_aroundSome
          intro places hplaces
          refine (triple_runSession_around hargs.isBase (hfiles places hplaces) hargs.artifactDir
            fun path hpath q hq => ?_).conseq (fun _ h => h)
              (fun _ _ h => Around.aroundSome h hplaces) fun _ _ h => Around.aroundSome h hplaces
          obtain ⟨hnot, hmanifest⟩ := hargs.overrides path hpath q hq
          apply ignores_around
          · intro k heq
            exact hmanifest ⟨[k], Or.inl heq.symm⟩
          · intro p hp heq
            rcases hkept places hplaces p hp with h | h
            · exact hnot (heq ▸ h)
            · exact hmanifest (heq ▸ h)
        · split
          · exact Triple.pure fun _ h => hweaken h
          · exact Triple.throw fun _ h => hweaken h

/-! ### A session that is watched -/

omit [JsonText] in
/-- The places of a session that is in the pending directory: the files, and its manifest with
whatever content. -/
def pendingPlaces (base : Path) (session : Location)
    (files : Set (Location × Set (Node ByteString))) : Set (Location × Set (Node ByteString)) :=
  insert (sessionManifest (base / "pending") session, anyFile) files

omit [JsonText] in
/-- The places of a session that has been archived. -/
def archivedPlaces (base : Path) (session : Location) : Set (Location × Set (Node ByteString)) :=
  {(sessionManifest (base / "archive") session, anyFile)}

omit [JsonText] in
/-- The files are in their places, or the session has been archived. -/
def watching (base : Path) (session : Location)
    (files : Set (Location × Set (Node ByteString))) :
    Set (Set (Location × Set (Node ByteString))) :=
  {pendingPlaces base session files, archivedPlaces base session}

omit [JsonText] in
theorem not_isPrefix_dirPlaces (hdirs : ∀ d ∈ dirs, ¬ base.locate <+: d) (l : Location)
    {p : Location × Set (Node ByteString)} (hp : p ∈ dirPlaces dirs) :
    ¬ (base / "pending").locate ++ l <+: p.1 ∧ ¬ (base / "archive").locate ++ l <+: p.1 := by
  rw [locate_pending, locate_archive, List.append_assoc, List.append_assoc]
  exact ⟨fun h => hdirs p.1 hp.1 ((List.prefix_append _ _).trans h),
    fun h => hdirs p.1 hp.1 ((List.prefix_append _ _).trans h)⟩

omit [JsonText] in
theorem IsPendingAt.isPrefix_stateJsonPath {outputPaths : OutputPaths}
    (h : IsPendingAt base m outputPaths) :
    outputPaths.artifactDir.locate <+: outputPaths.stateJsonPath.locate := by
  rw [h.locate, h.manifest, manifestPlace, List.prefix_append_right_inj]
  exact ⟨_, rfl⟩

/-- Uploading and archiving a session, this one or one with none of the files in its
directory. -/
theorem keeps_uploadAndArchive_watching (env : Surroundings) {config : RuntimeConfig}
    {outputPaths : OutputPaths} (hbase : IsBase env.currentDir config base)
    (hpending : IsPendingAt base m outputPaths) (hdirs : ∀ d ∈ dirs, ¬ base.locate <+: d)
    (hmanifest : ∀ f ∈ files, f.1 ≠ manifestPlace (base / "pending") n)
    (hother : m ≠ n → ∀ f ∈ files, ¬ (base / "pending").locate ++ [m] <+: f.1) :
    Keeps (OnTree (AroundSome base (watching base (n :: rest) files) dirs))
      (uploadAndArchive env config outputPaths) := by
  have hstate := hpending.isPrefix_stateJsonPath
  have hkeeps : ∀ places ∈ watching base (n :: rest) files,
      (∀ p ∈ places ∪ dirPlaces dirs, ¬ outputPaths.artifactDir.locate <+: p.1) →
        Triple (OnTree (Around base (places ∪ dirPlaces dirs)))
          (uploadAndArchive env config outputPaths)
          (fun _ => OnTree (AroundSome base (watching base (n :: rest) files) dirs))
          (fun _ => OnTree (AroundSome base (watching base (n :: rest) files) dirs)) :=
    fun places hplaces haway =>
      (keeps_uploadAndArchive_around env hbase hpending.isAbsolute hstate haway).conseq
        (fun _ h => h) (fun _ _ h => ⟨places, hplaces, h⟩) fun _ _ h => ⟨places, hplaces, h⟩
  have harchived : archivedPlaces base (n :: rest) ∈ watching base (n :: rest) files :=
    Or.inr rfl
  apply triple_aroundSome
  rintro places (rfl | rfl)
  · by_cases hmn : m = n
    · subst hmn
      have hsend : Keeps (OnTree (Around base (pendingPlaces base (m :: rest) files ∪
          dirPlaces dirs))) (sendOrRecordFailure env config outputPaths) := by
        refine keeps_sendOrRecordFailure_around env hpending.isAbsolute fun p hp heq => ?_
        rw [hpending.manifest] at heq
        rcases hp with (rfl | hp) | hp
        · exact subset_rfl
        · exact absurd heq (hmanifest p hp)
        · exact absurd ⟨[], (List.append_nil _).trans heq.symm⟩
            (not_isPrefix_dirPlaces hdirs [m, ByteString.ofString "state.json"] hp).1
      have harchive : Triple (OnTree (Around base (pendingPlaces base (m :: rest) files ∪
          dirPlaces dirs))) (archiveArtifactSession env.currentDir config outputPaths)
          (fun _ => OnTree (Around base (archivedPlaces base (m :: rest) ∪ dirPlaces dirs)))
          (fun _ w => OnTree (Around base (pendingPlaces base (m :: rest) files ∪
            dirPlaces dirs)) w ∨
            OnTree (Around base (archivedPlaces base (m :: rest) ∪ dirPlaces dirs)) w) := by
        apply triple_archiveArtifactSession_around hbase
        intro t t' hplaces hmoved
        have htarget : (base / "archive" / outputPaths.artifactDir.filename).locate =
            (base / "archive").locate ++ [m] := by
          rw [hpending.filename, Path.locate_join_name _ hpending.isName]
        rw [hpending.locate, htarget] at hmoved
        refine ⟨HasAll.union ?_ ?_, ?_⟩
        · rintro p rfl
          obtain ⟨node, hnode, hget⟩ := hplaces _ (Or.inl (Or.inl rfl))
          rw [sessionManifest, List.cons_append, List.append_cons] at hget
          refine ⟨node, hnode, ?_⟩
          rw [sessionManifest, List.cons_append, List.append_cons]
          exact hmoved.get?_append hget
        · exact (hplaces.mono Set.subset_union_right).of_moved
            (fun p hp => (not_isPrefix_dirPlaces hdirs _ hp).1) hmoved
        · rintro p (rfl | hp) heq
          · exact subset_rfl
          · rw [manifestLocation, htarget, List.append_assoc] at heq
            exact absurd ⟨[], (List.append_nil _).trans heq.symm⟩
              (not_isPrefix_dirPlaces hdirs _ hp).2
      refine Triple.bind (hsend.conseq (fun _ h => h) (fun _ _ h => h)
        fun _ _ h => ⟨_, Or.inl rfl, h⟩) fun _ => ?_
      refine harchive.conseq (fun _ h => h) (fun _ _ h => ⟨_, harchived, h⟩) ?_
      rintro _ w (h | h)
      · exact ⟨_, Or.inl rfl, h⟩
      · exact ⟨_, harchived, h⟩
    · refine hkeeps _ (Or.inl rfl) fun p hp => ?_
      rw [hpending.locate]
      rcases hp with (rfl | hp) | hp
      · rw [sessionManifest, List.prefix_append_right_inj]
        exact fun h => hmn (List.cons_prefix_cons.mp h).1
      · exact hother hmn p hp
      · exact (not_isPrefix_dirPlaces hdirs _ hp).1
  · refine hkeeps _ harchived fun p hp => ?_
    rw [hpending.locate]
    rcases hp with rfl | hp
    · exact not_isPrefix_archive _ _
    · exact (not_isPrefix_dirPlaces hdirs _ hp).1

/-! ### Any number of runs -/

variable {argv : List ByteString}

theorem aroundSome_runMain {faults : List Fault} {clock : List TimestampPair}
    (haround : AroundSome base choices ∅ t)
    (hargs : ∀ arguments, parseArguments {} argv = .ok (.run arguments) →
      process.GoesAround base n kept t arguments)
    (hfiles : ∀ places ∈ choices, ∀ p ∈ places, p.2 ⊆ anyFile)
    (hkept : ∀ places ∈ choices, ∀ p ∈ places, p.1 ∈ kept ∨ IsManifestPlace base p.1)
    (hupload : ∀ arguments, process.GoesAround base n kept t arguments →
      ∀ m content config outputPaths, arguments.config.destinationUrl.isEmpty = false →
        t.get? (manifestPlace (base / "pending") m) = some (.file content) →
          IsBase process.currentDir config base → IsPendingAt base m outputPaths →
            Keeps (OnTree (AroundSome base choices (arguments.steadyDirs base t)))
              (uploadAndArchive process.toSurroundings config outputPaths)) :
    AroundSome base choices ∅
      (runMain process argv { tree := t, faults := faults, clock := clock }).2.tree := by
  have hrun : Triple (OnTree (· = t)) (runMain process argv)
      (fun _ => OnTree (AroundSome base choices ∅))
      (fun _ => OnTree (AroundSome base choices ∅)) := by
    unfold runMain
    split
    · exact Triple.pure fun _ hw => onTree_of_eq hw haround
    · exact Triple.pure fun _ hw => onTree_of_eq hw haround
    · next arguments hparsed =>
        have hgoes := hargs arguments hparsed
        apply triple_catchFailure (S := fun _ => OnTree (AroundSome base choices ∅))
        · refine (triple_runArguments_around haround hgoes hfiles hkept
            (hupload arguments hgoes)).conseq (fun _ h => h) (fun _ _ h => h) fun e _ h => ?_
          cases e <;> exact h
        · exact fun _ => Triple.pure fun _ h => h
  exact hrun.final rfl

omit [JsonText] in
theorem locate_pending_congr (h : b.locate = base.locate) :
    (b / "pending").locate = (base / "pending").locate := by
  rw [locate_pending, locate_pending, h]

omit [JsonText] in
theorem locate_archive_congr (h : b.locate = base.locate) :
    (b / "archive").locate = (base / "archive").locate := by
  rw [locate_archive, locate_archive, h]

theorem settled_congr (h : b.locate = base.locate) : Settled b t ↔ Settled base t := by
  have hplace : manifestPlace (b / "pending") = manifestPlace (base / "pending") := by
    unfold manifestPlace
    rw [locate_pending_congr h]
  constructor
  · rintro ⟨hnames, hmanifests⟩
    exact ⟨hnames, fun n => hplace ▸ hmanifests n⟩
  · rintro ⟨hnames, hmanifests⟩
    exact ⟨hnames, fun n => hplace ▸ hmanifests n⟩

theorem aroundSome_congr (h : b.locate = base.locate) :
    AroundSome b choices dirs t ↔ AroundSome base choices dirs t := by
  constructor
  · rintro ⟨places, hplaces, haround⟩
    exact ⟨places, hplaces, (settled_congr h).mp haround.toSettled, haround.places⟩
  · rintro ⟨places, hplaces, haround⟩
    exact ⟨places, hplaces, (settled_congr h).mpr haround.toSettled, haround.places⟩

omit [JsonText] in
theorem isManifestPlace_congr (h : b.locate = base.locate) {k : Location} :
    IsManifestPlace b k ↔ IsManifestPlace base k := by
  unfold IsManifestPlace sessionManifest
  rw [locate_pending_congr h, locate_archive_congr h]

omit [JsonText] in
theorem watching_congr (h : b.locate = base.locate) (session : Location) :
    watching b session files = watching base session files := by
  unfold watching pendingPlaces archivedPlaces sessionManifest
  rw [locate_pending_congr h, locate_archive_congr h]

/-- A run keeps what every upload keeps of a session with none of the files in its directory. -/
theorem aroundSome_aroundRun (hrun : AroundRun base n kept t t')
    (hfiles : ∀ places ∈ choices, ∀ p ∈ places, p.2 ⊆ anyFile)
    (hkept : ∀ places ∈ choices, ∀ p ∈ places, p.1 ∈ kept ∨ IsManifestPlace base p.1)
    (hupload : ∀ (b : Path) (env : Surroundings) (m : ByteString) (config : RuntimeConfig)
      (outputPaths : OutputPaths) (dirs : Set Location), b.locate = base.locate →
        IsBase env.currentDir config b → IsPendingAt b m outputPaths →
          (∀ d ∈ dirs, ¬ b.locate <+: d) →
            (m ≠ n → ∀ k ∈ kept, ¬ (b / "pending").locate ++ [m] <+: k) →
              Keeps (OnTree (AroundSome b choices dirs))
                (uploadAndArchive env config outputPaths))
    (h : AroundSome base choices ∅ t) : AroundSome base choices ∅ t' := by
  obtain ⟨process, argv, faults, clock, b, hb, hargs, rfl⟩ := hrun
  rw [← aroundSome_congr hb] at h ⊢
  refine aroundSome_runMain h hargs hfiles
    (fun places hplaces p hp => (hkept places hplaces p hp).imp_right (isManifestPlace_congr hb).mpr)
    fun arguments hgoes m content config outputPaths hurl hget hbase hpending => ?_
  have hdirs : ∀ d ∈ arguments.steadyDirs b t, ¬ b.locate <+: d := by
    rintro d ⟨-, hempty | hoff⟩
    · rw [hurl] at hempty
      cases hempty
    · exact hoff
  refine hupload b _ m config outputPaths _ hb hbase hpending hdirs fun hmn k hk hbelow => ?_
  rcases hgoes.sessions with hempty | hlacks
  · rw [hurl] at hempty
    cases hempty
  · exact hlacks m hmn k hk hbelow content hget

/-- A run keeps the tree settled. -/
theorem settled_aroundRun (hrun : AroundRun base n kept t t') (h : Settled base t) :
    Settled base t' := by
  have hempty : HasAll ∅ t := fun p hp => absurd hp (Set.notMem_empty p)
  have haround : AroundSome base {∅} ∅ t := Around.aroundSome ⟨h, hempty⟩ rfl
  have hsome : AroundSome base {∅} ∅ t' := by
    refine aroundSome_aroundRun hrun ?_ ?_ ?_ haround
    · rintro _ rfl p hp
      exact absurd hp (Set.notMem_empty p)
    · rintro _ rfl p hp
      exact absurd hp (Set.notMem_empty p)
    · intro b env m config outputPaths dirs _ hbase hpending hdirs _
      apply triple_aroundSome
      rintro _ rfl
      refine (keeps_uploadAndArchive_around env hbase hpending.isAbsolute
        hpending.isPrefix_stateJsonPath fun p hp => ?_).conseq (fun _ h => h)
          (fun _ _ h => ⟨∅, rfl, h⟩) fun _ _ h => ⟨∅, rfl, h⟩
      rw [hpending.locate]
      rcases hp with hp | hp
      · exact absurd hp (Set.notMem_empty p)
      · exact (not_isPrefix_dirPlaces hdirs _ hp).1
  obtain ⟨places, -, h'⟩ := hsome
  exact h'.toSettled

/-- A run that goes around the files leaves them in their places unless it archives the
session. -/
theorem watching_aroundRun (hrun : AroundRun base n kept t t')
    (hfiles : ∀ f ∈ files, f.2 ⊆ anyFile) (hkept : ∀ f ∈ files, f.1 ∈ kept)
    (hmanifest : ∀ f ∈ files, f.1 ≠ manifestPlace (base / "pending") n)
    (h : AroundSome base (watching base (n :: rest) files) ∅ t) :
    AroundSome base (watching base (n :: rest) files) ∅ t' := by
  refine aroundSome_aroundRun hrun ?_ ?_ ?_ h
  · rintro places (rfl | rfl) p hp
    · rcases hp with rfl | hp
      · exact subset_rfl
      · exact hfiles p hp
    · obtain rfl : p = _ := hp
      exact subset_rfl
  · rintro places (rfl | rfl) p hp
    · rcases hp with rfl | hp
      · exact Or.inr ⟨_, Or.inl rfl⟩
      · exact Or.inl (hkept p hp)
    · obtain rfl : p = _ := hp
      exact Or.inr ⟨_, Or.inr rfl⟩
  · intro b env m config outputPaths dirs hb hbase hpending hdirs hother
    rw [← watching_congr hb]
    refine keeps_uploadAndArchive_watching env hbase hpending hdirs (fun f hf => ?_)
      fun hmn f hf => hother hmn f.1 (hkept f hf)
    rw [manifestPlace, locate_pending_congr hb]
    exact hmanifest f hf

/-- The manifest says that its session is ready, and it names the two files. -/
structure HasReadyFiles (t : Tree) (stateJsonPath eventLogPath summaryJsonPath : Path)
    (eventLog summary : ByteString) : Prop where
  isReady : SaysReady t stateJsonPath
  namesEventLog : Names t stateJsonPath "event_log" eventLogPath
  namesSummary : Names t stateJsonPath "summary_json" summaryJsonPath
  eventLog : find t eventLogPath = some (.file eventLog)
  summary : find t summaryJsonPath = some (.file summary)

/-- Once a session is ready in the pending directory, the two files that its manifest names keep
their contents until it is in the archive. -/
theorem untouched_aroundRuns {t₀ : Tree} {stateJsonPath eventLogPath summaryJsonPath : Path}
    {eventLog summary : ByteString} (hsettled : Settled base t₀)
    (hearlier : Relation.ReflTransGen (AroundRun base n ∅) t₀ t)
    (hplace : stateJsonPath.locate = sessionManifest (base / "pending") (n :: rest))
    (hready : HasReadyFiles t stateJsonPath eventLogPath summaryJsonPath eventLog summary)
    (heventLog : eventLogPath.locate ≠ manifestPlace (base / "pending") n)
    (hsummary : summaryJsonPath.locate ≠ manifestPlace (base / "pending") n)
    (hlater : Relation.ReflTransGen
      (AroundRun base n {eventLogPath.locate, summaryJsonPath.locate}) t t')
    (hnot : LacksFileAt (sessionManifest (base / "archive") (n :: rest)) t') :
    t'.get? eventLogPath.locate = some (.file eventLog) ∧
      t'.get? summaryJsonPath.locate = some (.file summary) := by
  let files : Set (Location × Set (Node ByteString)) :=
    {(eventLogPath.locate, {.file eventLog}), (summaryJsonPath.locate, {.file summary})}
  have hsettled' : Settled base t := by
    clear hready hlater
    induction hearlier with
    | refl => exact hsettled
    | tail _ hrun ih => exact settled_aroundRun hrun ih
  have hat : HasAll (pendingPlaces base (n :: rest) files) t := by
    obtain ⟨value, ⟨content, hcontent, -⟩, -⟩ := hready.isReady
    rintro p (rfl | rfl | rfl)
    · exact ⟨_, ⟨content, rfl⟩, hplace ▸ (find_eq_some_iff.mp hcontent).2⟩
    · exact ⟨_, rfl, (find_eq_some_iff.mp hready.eventLog).2⟩
    · exact ⟨_, rfl, (find_eq_some_iff.mp hready.summary).2⟩
  have haround : AroundSome base (watching base (n :: rest) files) ∅ t :=
    Around.aroundSome ⟨hsettled', hat⟩ (Or.inl rfl)
  have hruns : AroundSome base (watching base (n :: rest) files) ∅ t' := by
    clear hnot
    induction hlater with
    | refl => exact haround
    | tail _ hrun ih =>
        refine watching_aroundRun hrun ?_ ?_ ?_ ih
        · rintro f (rfl | rfl) node rfl
          · exact ⟨eventLog, rfl⟩
          · exact ⟨summary, rfl⟩
        · rintro f (rfl | rfl)
          · exact Or.inl rfl
          · exact Or.inr rfl
        · rintro f (rfl | rfl)
          · exact heventLog
          · exact hsummary
  obtain ⟨places, rfl | rfl, h⟩ := hruns
  · have hfiles : ∀ f ∈ files, ∃ node ∈ f.2, t'.get? f.1 = some node := fun f hf =>
      h.places f (Or.inl (Or.inr hf))
    obtain ⟨_, rfl, hlog⟩ := hfiles (eventLogPath.locate, {.file eventLog}) (Or.inl rfl)
    obtain ⟨_, rfl, hsum⟩ :=
      hfiles (summaryJsonPath.locate, {.file summary}) (Or.inr (Set.mem_singleton _))
    exact ⟨hlog, hsum⟩
  · obtain ⟨_, ⟨content, rfl⟩, hget⟩ := h.places _ (Or.inl rfl)
    exact absurd hget (hnot content)

/-- A path that is read from a manifest is named in it. -/
theorem names_of_valueAt {path p : Path} {key : String} (hne : p.bytes ≠ [])
    (h : ((valueAt t path).bind fun value => value.find "files").map
      (fun files => jsonStringOrEmpty files key) = some p.bytes) : Names t path key p := by
  obtain ⟨files, hfiles, htext⟩ := Option.map_eq_some_iff.mp h
  obtain ⟨value, hvalue, hfind⟩ := Option.bind_eq_some_iff.mp hfiles
  refine ⟨value, files, holds_of_valueAt hvalue, hfind, ?_⟩
  unfold jsonStringOrEmpty at htext
  split at htext
  · next text hkey => rw [hkey, htext]
  · exact absurd htext.symm hne

end Runs

section Sample

/-- A run that captures the session `q` and writes its event log elsewhere. -/
def elsewhereArgv : List ByteString :=
  ["-f", "magnet:?x", "--artifacts-dir", "/d", "--session-id", "q", "--run-id", "r",
    "--event-log", "/e"]

def laterTree : Tree := (runMain takingProcess elsewhereArgv (quietWorld capturedTree [])).2.tree

theorem hasReadyFiles_capturedTree :
    HasReadyFiles capturedTree "/d/pending/s/state.json" "/d/pending/s/session_events.ndjson"
      "/d/pending/s/session_summary.json" sampleRecords.eventLog sampleRecords.summary where
  isReady := saysReady_of_valueAt (by decide +kernel)
  namesEventLog := names_of_valueAt (by decide) (by decide +kernel)
  namesSummary := names_of_valueAt (by decide) (by decide +kernel)
  eventLog := by decide +kernel
  summary := by decide +kernel

/-- Without a destination, a session on a straight way goes around what its overrides miss. -/
theorem goesAround_takingProcess {kept : Set Location} {t : Tree} {arguments : Arguments}
    (hdir : arguments.config.artifactsDir = "/d") (hurl : arguments.config.destinationUrl = [])
    (hid : arguments.config.sessionId ≠ [])
    (hstraight : IsStraight ("/d" / "pending" / (⟨arguments.config.sessionId⟩ : Path)))
    (hoverrides : ∀ path, arguments.eventLogOverride = some path ∨
      arguments.summaryJsonOverride = some path → ∀ q, Path.absolute rootDir path = some q →
        q.locate ∉ kept ∧ ¬ IsManifestPlace "/d" q.locate) :
    takingProcess.GoesAround "/d" "s" kept t arguments := by
  have hsession : (takingProcess.identified arguments.config).sessionId =
      arguments.config.sessionId := if_neg (by simpa using hid)
  refine ⟨⟨by rw [hdir]; decide, by rw [hdir]; decide⟩, fun p hp d hd => Or.inl ?_, hoverrides,
    Or.inl (by rw [hurl]; rfl)⟩
  have habsolute : ("/d" / "pending" / (⟨arguments.config.sessionId⟩ : Path) : Path).isAbsolute =
      true := Path.isAbsolute_join (by decide)
  rw [hsession, hdir] at hp
  obtain rfl := Option.some.inj ((Path.absolute_of_isAbsolute rootDir habsolute).symm.trans hp)
  exact hstraight d hd

theorem aroundRun_takingProcess {argv : List ByteString} {kept : Set Location} {t : Tree}
    {arguments : Arguments} (hparsed : parseArguments {} argv = .ok (.run arguments))
    (hgoes : takingProcess.GoesAround "/d" "s" kept t arguments) :
    AroundRun "/d" "s" kept t (runMain takingProcess argv (quietWorld t [])).2.tree := by
  refine ⟨takingProcess, argv, [], [], "/d", rfl, fun arguments' harguments => ?_, rfl⟩
  rw [hparsed] at harguments
  cases harguments
  exact hgoes

theorem not_isManifestPlace_e : ¬ IsManifestPlace "/d" ("/e" : Path).locate := by
  rintro ⟨session, h | h⟩
  · have hlength := congrArg List.length h
    have hpending : (("/d" / "pending" : Path).locate).length = 2 := by decide
    rw [sessionManifest, List.length_append, hpending] at hlength
    have hone : ("/e" : Path).locate.length = 1 := by decide
    omega
  · have hlength := congrArg List.length h
    have harchive : (("/d" / "archive" : Path).locate).length = 2 := by decide
    rw [sessionManifest, List.length_append, harchive] at hlength
    have hone : ("/e" : Path).locate.length = 1 := by decide
    omega

theorem untouched_laterTree :
    laterTree.get? ("/d/pending/s/session_events.ndjson" : Path).locate =
        some (.file sampleRecords.eventLog) ∧
      laterTree.get? ("/d/pending/s/session_summary.json" : Path).locate =
        some (.file sampleRecords.summary) := by
  have hcapture : AroundRun "/d" "s" ∅ .empty capturedTree :=
    aroundRun_takingProcess rfl (goesAround_takingProcess rfl rfl (by decide) (by decide)
      fun path hpath => by rcases hpath with hpath | hpath <;> cases hpath)
  have hlater : AroundRun "/d" "s" {("/d/pending/s/session_events.ndjson" : Path).locate,
      ("/d/pending/s/session_summary.json" : Path).locate} capturedTree laterTree := by
    refine aroundRun_takingProcess rfl (goesAround_takingProcess rfl rfl (by decide) (by decide)
      fun path hpath q hq => ?_)
    obtain rfl : path = "/e" := by
      rcases hpath with hpath | hpath <;> cases hpath
      rfl
    obtain rfl : ("/e" : Path) = q := Option.some.inj hq
    exact ⟨by decide, not_isManifestPlace_e⟩
  have hnot : LacksFileAt (sessionManifest ("/d" / "archive") ["s"]) laterTree :=
    lacksFileAt_of_get? (by decide +kernel)
  exact untouched_aroundRuns (settled_empty "/d") (.single hcapture) (by decide)
    hasReadyFiles_capturedTree (by decide) (by decide) (.single hlater) hnot

/-- A run whose session has an id that leads back, so that the check does not see the directory. -/
def backArgv : List ByteString :=
  ["-f", "magnet:?x", "--artifacts-dir", "/d", "--session-id", "x/../s", "--run-id", "r"]

/-- A run with an event log in the directory of the session `s`. -/
def ontoArgv : List ByteString :=
  ["-f", "magnet:?x", "--artifacts-dir", "/d", "--session-id", "q", "--run-id", "r",
    "--event-log", "/d/pending/s/session_events.ndjson"]

/-- A process whose sessions log nothing. -/
def silentProcess : Process :=
  { takingProcess with session := fun _ _ => ⟨[], .ok (.object [])⟩ }

def silentRun (argv : List ByteString) : Except Stop Int × World :=
  runMain silentProcess argv (quietWorld capturedTree [])

/-- The run returns with the event log of the session `s` empty, and `s` is not archived. -/
structure EmptiesPending (argv : List ByteString) : Prop where
  returns : (silentRun argv).1 = .ok 0
  notArchived : (silentRun argv).2.tree.get? (sessionManifest ("/d" / "archive") ["s"]) = none
  empty : find (silentRun argv).2.tree "/d/pending/s/session_events.ndjson" = some (.file [])

/-- The session `s` is ready, and a later run of another session empties its event log: once
through an id that leads back and once through an override. -/
theorem emptied_capturedTree :
    HasReadyFiles capturedTree "/d/pending/s/state.json" "/d/pending/s/session_events.ndjson"
        "/d/pending/s/session_summary.json" sampleRecords.eventLog sampleRecords.summary ∧
      sampleRecords.eventLog ≠ [] ∧ EmptiesPending backArgv ∧ EmptiesPending ontoArgv := by
  refine ⟨hasReadyFiles_capturedTree, by decide +kernel, ?_, ?_⟩
  · exact ⟨by decide +kernel, by decide +kernel, by decide +kernel⟩
  · exact ⟨by decide +kernel, by decide +kernel, by decide +kernel⟩

end Sample

end BtClient
