import BtClient.GuardedTrees

/-!
# Trees with things in their places

Files and directories stay in their places through the operations of the program, as long as a
session that is archived has none of them in its directory and nothing is written to them. The
directory of a new session has none of them in it when the check of `prepare_output_paths` has
seen it.
-/

namespace BtClient

open Effect FileSystem

/-! ### What is in its place -/

section Places

variable {a b k l : Location} {t t' : Tree} {node : Node ByteString}

/-- Nothing is moved to a directory with something in it. -/
theorem Moved.not_isPrefix (h : Moved a b t t') (hk : t.get? k = some node) (hne : k ≠ b) :
    ¬ b <+: k := by
  intro hb
  obtain ⟨t₁, hext, ⟨-, -, -, -, hfree, -⟩, -⟩ := h
  have hnode := hext.get?_eq_some hk
  rw [← get?_vacated hne, FileTree.get?_eq_none_of_isPrefix hfree hb] at hnode
  cases hnode

/-- What is not in the directory that is moved stays where it is. -/
theorem Moved.get?_eq_of_not_below (h : Moved a b t t') (ha : ¬ a <+: k)
    (hk : t.get? k = some node) : t'.get? k = some node := by
  by_cases hkb : k = b
  · subst hkb
    obtain ⟨t₁, hext, hmove, rfl⟩ := h
    have hnode := hext.get?_eq_some hk
    -- Only an empty directory makes way, and then the moved one is in its place.
    by_cases hremovable : t₁.Removable k
    · cases hnode.symm.trans hremovable.2.1
      have hmoved := FileTree.get?_move_append _ a k hmove []
      rw [List.append_nil, List.append_nil] at hmoved
      exact hmoved.trans hmove.2.1
    · have hfree := hmove.2.2.2.2.1
      rw [vacated, dif_neg hremovable] at hfree
      cases hnode.symm.trans hfree
  · have hb := h.not_isPrefix hk hkb
    obtain ⟨t₁, hext, hmove, rfl⟩ := h
    rw [FileTree.get?_move_of_not_isPrefix _ _ _ _ hb, if_neg ha, get?_vacated hkb]
    exact hext.get?_eq_some hk

/-- Some file. -/
def anyFile : Set (Node ByteString) := {node | ∃ content, node = .file content}

/-- Each of the places has one of its nodes. -/
def HasAll (places : Set (Location × Set (Node ByteString))) (t : Tree) : Prop :=
  ∀ p ∈ places, ∃ node ∈ p.2, t.get? p.1 = some node

variable {places more : Set (Location × Set (Node ByteString))}

theorem HasAll.mono (h : HasAll more t) (hsubset : places ⊆ more) : HasAll places t :=
  fun p hp => h p (hsubset hp)

theorem HasAll.union (h : HasAll places t) (h' : HasAll more t) : HasAll (places ∪ more) t := by
  rintro p (hp | hp)
  · exact h p hp
  · exact h' p hp

theorem stable_hasAll : Stable (HasAll places) := by
  intro t t' hext h p hp
  obtain ⟨node, hmem, hget⟩ := h p hp
  exact ⟨node, hmem, hext.get?_eq_some hget⟩

theorem ignores_hasAll (hl : ∀ p ∈ places, p.1 ≠ l) : Ignores l (HasAll places) := by
  intro t t' hsame _ h p hp
  obtain ⟨node, hmem, hget⟩ := h p hp
  exact ⟨node, hmem, (hsame _ (hl p hp)).trans hget⟩

theorem HasAll.of_moved (h : HasAll places t) (ha : ∀ p ∈ places, ¬ a <+: p.1)
    (hmoved : Moved a b t t') : HasAll places t' := by
  intro p hp
  obtain ⟨node, hmem, hget⟩ := h p hp
  exact ⟨node, hmem, hmoved.get?_eq_of_not_below (ha p hp) hget⟩

/-- A manifest that is written is some file. -/
theorem keeps_rewriteState_hasAll [JsonText] {outputPaths : OutputPaths}
    (hl : ∀ p ∈ places, p.1 = outputPaths.stateJsonPath.locate → anyFile ⊆ p.2)
    (config : RuntimeConfig) (state : ArtifactState)
    (amend : TimestampPair → Json.Members → Json.Members) :
    Keeps (OnTree (HasAll places)) (rewriteState config outputPaths state amend) := by
  apply triple_onTree
  intro t h
  have hover : ∀ {t' : Tree} {full : ByteString},
      Overwritten outputPaths.stateJsonPath.locate full t t' → HasAll places t' := by
    intro t' full hover p hp
    obtain ⟨node, hmem, hget⟩ := h p hp
    by_cases hplace : p.1 = outputPaths.stateJsonPath.locate
    · obtain ⟨text, -, hhere⟩ := hover.here
      exact ⟨.file text, hl p hp hplace ⟨text, rfl⟩, hplace ▸ hhere⟩
    · exact ⟨node, hmem, hover.get?_of_ne hplace hget⟩
  refine (triple_rewriteState t config outputPaths state amend).conseq (fun _ h => h) ?_ ?_
  · rintro _ w ⟨members, -, -, -, hwritten⟩
    exact hover hwritten
  · rintro _ w (hext | ⟨members, -, hwritten⟩)
    · exact stable_hasAll _ _ hext h
    · exact hover hwritten

end Places

/-! ### Going around the places -/

section Around

variable [JsonText] {base : Path} {m n : ByteString} {t t' : Tree}
  {places moved : Set (Location × Set (Node ByteString))} {config : RuntimeConfig}
  {outputPaths : OutputPaths} {currentDir : CurrentDir}

/-- Only the program has written to the tree, and the places have their nodes. -/
structure Around (base : Path) (places : Set (Location × Set (Node ByteString))) (t : Tree) :
    Prop extends Settled base t where
  places : HasAll places t

theorem keeps_around {α : Type} {action : Action α} (hnames : Keeps (OnTree HasNames) action)
    (hmanifests : Keeps (OnTree (ManifestsAreOwn (base / "pending"))) action)
    (hplaces : Keeps (OnTree (HasAll places)) action) :
    Keeps (OnTree (Around base places)) action :=
  ((hnames.and hmanifests).and hplaces).conseq
    (fun _ h => ⟨⟨h.names, h.manifests⟩, h.places⟩)
    (fun _ _ h => ⟨⟨h.1.1, h.1.2⟩, h.2⟩) fun _ _ h => ⟨⟨h.1.1, h.1.2⟩, h.2⟩

theorem keeps_createDirectories_around (p : Path) :
    Keeps (OnTree (Around base places)) (createDirectories p) :=
  keeps_around (keeps_createDirectories_hasNames p)
    (keeps_createDirectories stable_manifestsAreOwn p) (keeps_createDirectories stable_hasAll p)

theorem ignores_around {p : Path} (hmanifest : ∀ n, manifestPlace (base / "pending") n ≠ p.locate)
    (hplaces : ∀ q ∈ places, q.1 ≠ p.locate) : Ignores p.locate (Around base places) := by
  intro t t' hsame hdir h
  exact ⟨⟨ignores_hasNames p t t' hsame hdir h.names,
    ignores_manifestsAreOwn hmanifest t t' hsame hdir h.manifests⟩,
    ignores_hasAll hplaces t t' hsame hdir h.places⟩

theorem keeps_rewriteState_around {amend : TimestampPair → Json.Members → Json.Members}
    (hamend : IsHistoric amend) (habsolute : outputPaths.stateJsonPath.isAbsolute = true)
    (hplaces : ∀ p ∈ places, p.1 = outputPaths.stateJsonPath.locate → anyFile ⊆ p.2)
    (config : RuntimeConfig) (state : ArtifactState) :
    Keeps (OnTree (Around base places)) (rewriteState config outputPaths state amend) :=
  keeps_around (keeps_rewriteState_hasNames config outputPaths state amend)
    (keeps_rewriteState_manifestsAreOwn hamend habsolute config state)
    (keeps_rewriteState_hasAll hplaces config state amend)

/-- An upload that fails is recorded in the manifest. -/
theorem keeps_sendOrRecordFailure_around (env : Surroundings)
    (habsolute : outputPaths.stateJsonPath.isAbsolute = true)
    (hplaces : ∀ p ∈ places, p.1 = outputPaths.stateJsonPath.locate → anyFile ⊆ p.2) :
    Keeps (OnTree (Around base places)) (sendOrRecordFailure env config outputPaths) :=
  keeps_sendOrRecordFailure env fun _ =>
    keeps_rewriteState_around (isHistoric_withUploadFailure _ _) habsolute hplaces config
      .readyToUpload

omit [JsonText] in
/-- A path whose last step leads back ends in dots. -/
theorem endsInDots_of_up {p : Path} (hup : Path.toComponent p.filename.bytes = .up) :
    p.endsInDots = true := by
  obtain ⟨before, hcomponents⟩ := Path.components_filename p
  rw [hup, Path.components, List.map_eq_append_iff] at hcomponents
  obtain ⟨segments, last, hsplit, -, hlast⟩ := hcomponents
  obtain ⟨segment, rfl, hsegment⟩ := List.map_eq_singleton_iff.mp hlast
  have hdots : segment = ByteString.ofString ".." := by
    unfold Path.toComponent at hsegment
    split at hsegment
    · cases hsegment
    · split at hsegment
      · assumption
      · cases hsegment
  have hlast : [ByteString.ofString ".."].filter (fun segment => segment ≠ []) =
      [ByteString.ofString ".."] := by decide
  rw [Path.endsInDots, hsplit, hdots, List.filter_append, hlast, List.getLast?_concat]
  decide

omit [JsonText] in
/-- A directory whose path leads back at its end is not moved. -/
theorem triple_moveToArchive_endsInDots :
    Triple (fun _ => True) (moveToArchive currentDir config outputPaths)
      (fun _ _ => outputPaths.artifactDir.endsInDots = false) (fun _ _ => True) := by
  have hrename : ∀ destination, Triple (fun _ => True)
      (rename outputPaths.artifactDir destination)
      (fun _ _ => True ∧ outputPaths.artifactDir.endsInDots = false) (fun _ _ => True) := by
    intro destination
    refine Triple.bind (S := fun _ _ => True) Triple.trivial fun _ => ?_
    refine Triple.bind (S := fun _ _ => True) Triple.trivial fun t => ?_
    apply Triple.ite
    · exact fun _ => Triple.throw fun _ _ => True.intro
    · intro hdots
      have hsource : outputPaths.artifactDir.endsInDots = false := by
        simp only [Bool.or_eq_true, not_or, Bool.not_eq_true] at hdots
        exact hdots.1
      exact Triple.trivial.conseq (fun _ h => h) (fun _ _ _ => ⟨True.intro, hsource⟩)
        fun _ _ _ => True.intro
  refine Triple.bind (S := fun _ _ => True) Triple.trivial fun archiveRoot => ?_
  refine Triple.bind (S := fun _ _ => True) Triple.trivial fun found => ?_
  apply Triple.ite
  · exact fun _ => Triple.throw fun _ _ => True.intro
  · intro _
    refine Triple.bind (S := fun _ _ => True) Triple.trivial fun _ => ?_
    refine Triple.bind (hrename _) fun _ => ?_
    apply Triple.of_pre
    intro hdots
    exact Triple.trivial.conseq (fun _ h => h) (fun _ _ _ => hdots) fun _ _ _ => True.intro

omit [JsonText] in
/-- Where a directory is archived is above no manifest of the pending directory. -/
theorem not_isPrefix_manifestPlace {p : Path} (hdots : p.endsInDots = false) (n : ByteString) :
    ¬ (base / "archive" / p.filename).locate <+: manifestPlace (base / "pending") n := by
  rw [Path.locate_join_filename]
  cases hlast : Path.toComponent p.filename.bytes with
  | here =>
      have h : ¬ (base / "archive").locate ++ [] <+: manifestPlace (base / "pending") n :=
        not_isPrefix_pending [] _
      rwa [List.append_nil] at h
  | name m => exact not_isPrefix_pending [m] _
  | up =>
      rw [endsInDots_of_up hlast] at hdots
      cases hdots

/-- Archiving moves the directory, and what is in its place then stays there. -/
theorem triple_archiveArtifactSession_around (hbase : IsBase currentDir config base)
    (hmove : ∀ t t', HasAll places t →
      Moved outputPaths.artifactDir.locate
        (base / "archive" / outputPaths.artifactDir.filename).locate t t' →
      HasAll moved t' ∧ ∀ p ∈ moved,
        p.1 = manifestLocation (base / "archive" / outputPaths.artifactDir.filename) →
          anyFile ⊆ p.2) :
    Triple (OnTree (Around base places))
      (archiveArtifactSession currentDir config outputPaths)
      (fun _ => OnTree (Around base moved))
      (fun _ w => OnTree (Around base places) w ∨ OnTree (Around base moved) w) := by
  rw [archiveArtifactSession_eq]
  refine Triple.bind (S := fun archived w => OnTree (Around base moved) w ∧
    archived.stateJsonPath.isAbsolute = true ∧
      ∀ p ∈ moved, p.1 = archived.stateJsonPath.locate → anyFile ⊆ p.2) ?_ fun archived => ?_
  · apply triple_onTree
    intro t haround
    refine (((keeps_moveToArchive_hasNames currentDir config outputPaths).and
      (triple_moveToArchive currentDir t config outputPaths)).and
        triple_moveToArchive_endsInDots).conseq
          (fun w hw => ⟨⟨onTree_of_eq hw haround.names, hw⟩, True.intro⟩) ?_ ?_
    · rintro archived w ⟨⟨hnames, archiveRoot, hroot, rfl, hmoved⟩, hdots⟩
      obtain rfl : archiveRoot = base / "archive" :=
        Option.some.inj (hroot.symm.trans hbase.archive)
      obtain ⟨hplaces, hmanifest⟩ := hmove _ _ haround.places hmoved
      have hmanifests := haround.manifests.of_moved (not_isPrefix_manifestPlace hdots) hmoved
      refine ⟨⟨⟨hnames, hmanifests⟩, hplaces⟩, ?_, ?_⟩
      · exact Path.isAbsolute_join (Path.isAbsolute_join
          (Path.isAbsolute_of_absolute currentDir.2 hbase.archive))
      · intro p hp heq
        exact hmanifest p hp (heq.trans (locate_stateJson _))
    · rintro e w ⟨⟨hnames, hext⟩, -⟩
      exact Or.inl ⟨⟨hnames, stable_manifestsAreOwn _ _ hext haround.manifests⟩,
        stable_hasAll _ _ hext haround.places⟩
  · refine Triple.bind ?_ fun _ => Triple.pure fun _ h => h
    apply Triple.of_pre
    rintro ⟨habsolute, hplaces⟩
    exact (keeps_rewriteState_around isHistoric_id habsolute hplaces config .archived).conseq
      (fun _ h => h) (fun _ _ h => h) fun _ _ h => Or.inr h

/-- Archiving a directory with none of the places in it. -/
theorem keeps_archiveArtifactSession_around (hbase : IsBase currentDir config base)
    (haway : ∀ p ∈ places, ¬ outputPaths.artifactDir.locate <+: p.1) :
    Keeps (OnTree (Around base places))
      (archiveArtifactSession currentDir config outputPaths) := by
  refine (triple_archiveArtifactSession_around hbase fun t t' hplaces hmoved => ?_).conseq
    (fun _ h => h) (fun _ _ h => h) fun _ _ h => h.elim id id
  refine ⟨hplaces.of_moved haway hmoved, fun p hp heq => ?_⟩
  obtain ⟨node, -, hget⟩ := hplaces p hp
  rw [manifestLocation] at heq
  have hne : p.1 ≠ (base / "archive" / outputPaths.artifactDir.filename).locate := by
    rw [heq]
    simp
  exact absurd (heq ▸ List.prefix_append _ _) (hmoved.not_isPrefix hget hne)

theorem keeps_uploadAndArchive_around (env : Surroundings)
    (hbase : IsBase env.currentDir config base)
    (habsolute : outputPaths.stateJsonPath.isAbsolute = true)
    (hstate : outputPaths.artifactDir.locate <+: outputPaths.stateJsonPath.locate)
    (haway : ∀ p ∈ places, ¬ outputPaths.artifactDir.locate <+: p.1) :
    Keeps (OnTree (Around base places)) (uploadAndArchive env config outputPaths) :=
  (keeps_sendOrRecordFailure_around env habsolute fun p hp heq =>
    absurd (heq ▸ hstate) (haway p hp)).bind fun _ =>
      keeps_archiveArtifactSession_around hbase haway

/-! ### The own session of a run -/

/-- What a session writes next to its manifest is no manifest and in none of the places. -/
theorem ignores_around_usual (haway : ∀ p ∈ places, ¬ outputPaths.artifactDir.locate <+: p.1)
    {name : ByteString} (hname : Path.IsName name)
    (hstate : name ≠ ByteString.ofString "state.json") :
    Ignores (outputPaths.artifactDir / (⟨name⟩ : Path)).locate (Around base places) := by
  have hlocate := Path.locate_join_name outputPaths.artifactDir hname
  apply ignores_around
  · intro k heq
    rw [hlocate, manifestPlace, List.append_cons] at heq
    exact append_singleton_ne hstate heq.symm
  · intro p hp heq
    rw [hlocate] at heq
    exact haway p hp (heq ▸ List.prefix_append _ _)

omit [JsonText] in
/-- A directory that is accepted for a new session, and that the check has seen, has nothing in
it. -/
theorem IsNewSession.not_isPrefix {artifactDir archiveDir : Path} {k : Location}
    {content : ByteString} (h : IsNewSession t artifactDir archiveDir)
    (hseen : ∀ d ∈ artifactDir.visited, d <+: artifactDir.locate ∨ t.isDir d)
    (hext : Extends t t') (hdir : t'.isDir artifactDir.locate)
    (hk : t.get? k = some (.file content)) : ¬ artifactDir.locate <+: k := by
  intro hbelow
  have hsome : (t.get? k).isSome := by rw [hk]; rfl
  have hne : artifactDir.locate ≠ k := by
    intro heq
    rw [FileTree.isDir, heq, hext.get?_eq_some hk] at hdir
    cases hdir
  have hisDir : ∀ d, d <+: artifactDir.locate → t.isDir d := by
    intro d hd
    refine FileTree.isDir_of_isPrefix hsome (hd.trans hbelow) ?_
    rintro rfl
    exact hne (List.IsPrefix.eq_of_length_le hbelow hd.length_le)
  have hfind : find t artifactDir = some .dir :=
    find_eq_some_iff.mpr ⟨fun d hd => (hseen d hd).elim (hisDir d) id, hisDir _ List.prefix_rfl⟩
  rcases h.pending with hnone | ⟨-, hempty⟩
  · cases hnone.symm.trans hfind
  · obtain ⟨r, rfl⟩ := hbelow
    cases r with
    | nil => exact hne (List.append_nil _).symm
    | cons name rest =>
        have hchild : name ∈ t.children artifactDir.locate := by
          rw [FileTree.mem_children_iff]
          by_cases hrest : rest = []
          · rw [← hrest]
            exact hsome
          · have hentry : t.isDir (artifactDir.locate ++ [name]) :=
              FileTree.isDir_of_isPrefix hsome ⟨rest, by simp⟩ (by simpa using Ne.symm hrest)
            rw [show t.get? (artifactDir.locate ++ [name]) = some .dir from hentry]
            rfl
        rw [hempty] at hchild
        cases hchild

omit [JsonText] in
/-- These are directories. -/
def dirPlaces (dirs : Set Location) : Set (Location × Set (Node ByteString)) :=
  {p | p.1 ∈ dirs ∧ p.2 = {.dir}}

variable {dirs : Set Location}

omit [JsonText] in
theorem hasAll_dirPlaces : HasAll (dirPlaces dirs) t ↔ ∀ d ∈ dirs, t.isDir d := by
  constructor
  · intro h d hd
    obtain ⟨node, rfl, hget⟩ := h (d, {.dir}) ⟨hd, rfl⟩
    exact hget
  · rintro h ⟨d, nodes⟩ ⟨hd, rfl⟩
    exact ⟨.dir, rfl, h d hd⟩

/-- What a new session is given is not above any of the files. -/
theorem triple_prepareOutputPaths_around (hfiles : ∀ p ∈ places, p.2 ⊆ anyFile)
    (hseen : ∀ p, Path.absolute currentDir
      (config.artifactsDir / "pending" / (⟨config.sessionId⟩ : Path)) = some p →
        ∀ d ∈ p.visited, d <+: p.locate ∨ d ∈ dirs)
    (eventLogOverride summaryJsonOverride : Option Path) :
    Triple (OnTree (Around base (places ∪ dirPlaces dirs)))
      (prepareOutputPaths currentDir config eventLogOverride summaryJsonOverride)
      (fun outputPaths w => OnTree (Around base places) w ∧
        (∀ p ∈ places, ¬ outputPaths.artifactDir.locate <+: p.1) ∧
          IsPrepared currentDir config eventLogOverride summaryJsonOverride outputPaths)
      (fun _ => OnTree (Around base places)) := by
  apply triple_onTree
  intro t haround
  have hplaces : HasAll places t := haround.places.mono Set.subset_union_left
  have hdirs := hasAll_dirPlaces.mp (haround.places.mono Set.subset_union_right)
  have hkeeps : Keeps (OnTree (Around base places))
      (prepareOutputPaths currentDir config eventLogOverride summaryJsonOverride) :=
    keeps_prepareOutputPaths keeps_createDirectories_around eventLogOverride summaryJsonOverride
  refine (hkeeps.and (triple_prepareOutputPaths t currentDir config eventLogOverride
    summaryJsonOverride)).conseq
      (fun w hw => ⟨onTree_of_eq hw ⟨haround.toSettled, hplaces⟩, hw⟩) ?_ fun _ _ hw => hw.1
  rintro outputPaths w ⟨hw, hprepared, ⟨archiveDir, -, hnew⟩, hext, -, hdir⟩
  refine ⟨hw, fun p hp => ?_, hprepared⟩
  obtain ⟨node, hnode, hget⟩ := hplaces p hp
  obtain ⟨content, rfl⟩ := hfiles p hp hnode
  exact hnew.not_isPrefix
    (fun d hd => (hseen _ hprepared.artifactDir d hd).imp_right (hdirs d)) hext hdir hget

theorem triple_runSession_around {process : Process} {arguments : Arguments}
    (hbase : IsBase process.currentDir arguments.config base)
    (hfiles : ∀ p ∈ places, p.2 ⊆ anyFile)
    (hseen : ∀ p, Path.absolute process.currentDir (arguments.config.artifactsDir / "pending" /
      (⟨(process.identified arguments.config).sessionId⟩ : Path)) = some p →
        ∀ d ∈ p.visited, d <+: p.locate ∨ d ∈ dirs)
    (hoverrides : ∀ path, arguments.eventLogOverride = some path ∨
      arguments.summaryJsonOverride = some path → ∀ q,
        Path.absolute process.currentDir path = some q →
          Ignores q.locate (Around base places)) :
    Triple (OnTree (Around base (places ∪ dirPlaces dirs))) (runSession process arguments)
      (fun _ => OnTree (Around base places)) (fun _ => OnTree (Around base places)) := by
  have hbase' : IsBase process.currentDir (process.identified arguments.config) base :=
    ⟨hbase.pending, hbase.archive⟩
  unfold runSession
  dsimp only
  refine Triple.bind (triple_prepareOutputPaths_around hfiles hseen _ _) fun outputPaths => ?_
  apply Triple.of_pre
  rintro ⟨haway, hprepared⟩
  have houtput : ∀ {override : Option Path} {name : ByteString} {p : Path}, Path.IsName name →
      name ≠ ByteString.ofString "state.json" →
        IsOutputPath process.currentDir override (outputPaths.artifactDir / (⟨name⟩ : Path)) p →
          (∀ path, override = some path → ∀ q, Path.absolute process.currentDir path = some q →
            Ignores q.locate (Around base places)) →
              Ignores p.locate (Around base places) := by
    intro override name p hname hstate hp hignores
    cases override with
    | none =>
        obtain rfl : p = _ := hp
        exact ignores_around_usual haway hname hstate
    | some path => exact hignores path rfl p hp
  have hstateJson : outputPaths.stateJsonPath.locate =
      manifestLocation outputPaths.artifactDir := by
    rw [hprepared.stateJsonPath, locate_stateJson]
  have hbelow : outputPaths.artifactDir.locate <+: outputPaths.stateJsonPath.locate :=
    hstateJson ▸ List.prefix_append _ _
  have habsolute : outputPaths.stateJsonPath.isAbsolute = true := by
    rw [hprepared.stateJsonPath]
    exact Path.isAbsolute_join
      (Path.isAbsolute_of_absolute process.currentDir.2 hprepared.artifactDir)
  have heventLog := houtput (by decide) (by decide) hprepared.eventLogPath fun path hpath =>
    hoverrides path (Or.inl hpath)
  have hsummary := houtput (by decide) (by decide) hprepared.summaryJsonPath fun path hpath =>
    hoverrides path (Or.inr hpath)
  have hwrite : ∀ state, Keeps (OnTree (Around base places))
      (writeArtifactState (process.identified arguments.config) outputPaths state) := fun state =>
    keeps_rewriteState_around isHistoric_id habsolute
      (fun p hp heq => absurd (heq ▸ hbelow) (haway p hp)) _ state
  apply Keeps.bind (keeps_captureOutcome hwrite heventLog hsummary _)
  intro _
  exact keeps_uploadSession _
    (keeps_uploadAndArchive_around process.toSurroundings hbase' habsolute hbelow haway)

/-! ### The retries at the start -/

/-- In a settled tree, a session that is found ready is one of the pending directory and has its
manifest there. -/
theorem exists_manifest_of_isFoundIn (hsettled : Settled base t)
    (hbase : IsBase currentDir config base) {session : PendingArtifactSession}
    (h : IsFoundIn currentDir t (base / "pending") session)
    (hready : session.state = .readyToUpload) :
    ∃ m content, IsPendingAt base m session.outputPaths ∧
      t.get? (manifestPlace (base / "pending") m) = some (.file content) := by
  obtain ⟨m, hpending⟩ := isPendingAt_of_isFoundIn hsettled hbase h hready
  obtain ⟨name, -, hdir, hstate⟩ := h
  obtain ⟨content, value, hget, -⟩ := hstate.resolve_left fun hunknown => by
    rw [hready] at hunknown
    cases hunknown
  refine ⟨m, content, hpending, ?_⟩
  rw [← hdir, manifestLocation, hpending.locate, List.append_assoc] at hget
  exact hget

variable {I : Tree → Prop} {process : Process}

/-- The retries keep what every upload of a session keeps that has its manifest in the pending
directory. -/
theorem triple_retryAtStart_of (hsettled : Settled base t)
    (hbase : IsBase process.currentDir config base) (hI : I t)
    (hupload : ∀ m content config' outputPaths, config.destinationUrl.isEmpty = false →
      t.get? (manifestPlace (base / "pending") m) = some (.file content) →
        IsBase process.currentDir config' base → IsPendingAt base m outputPaths →
          Keeps (OnTree I) (uploadAndArchive process.toSurroundings config' outputPaths)) :
    Triple (OnTree (· = t)) (retryAtStart process config) (fun _ => OnTree I)
      (fun _ => OnTree I) := by
  unfold retryAtStart
  have hretry : Triple (OnTree (· = t))
      (retryPendingArtifactUploads process.toSurroundings config) (fun _ => OnTree I)
      (fun _ => OnTree I) := by
    unfold retryPendingArtifactUploads
    refine Triple.bind ((triple_findPendingArtifactSessions_children t hbase).conseq
      (fun _ h => h) (fun _ _ h => h) fun _ _ h => onTree_of_eq h hI) fun sessions => ?_
    apply Triple.of_pre
    intro hfound
    have hkeeps : Keeps (OnTree I)
        (retrySessions process.toSurroundings config false sessions) := by
      refine keeps_retrySessions _ sessions (fun session hmem hready hurl => ?_) false
      obtain ⟨m, content, hpending, hget⟩ :=
        exists_manifest_of_isFoundIn hsettled hbase (hfound session hmem) hready
      exact hupload m content _ _ hurl hget ⟨hbase.pending, hbase.archive⟩ hpending
    exact hkeeps.conseq (fun w hw => onTree_of_eq hw hI) (fun _ _ h => h) fun _ _ h => h
  apply triple_catchFailure (S := fun _ => OnTree I)
  · refine Triple.bind (hretry.conseq (fun _ h => h) (fun _ _ h => h) fun e _ h => ?_)
      fun _ => Triple.pure fun _ h => h
    cases e <;> exact h
  · exact fun _ => Triple.pure fun _ h => h

end Around

end BtClient
