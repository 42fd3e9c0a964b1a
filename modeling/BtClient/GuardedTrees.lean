import BtClient.KeptTrees

/-!
# Records that are guarded

Two things are followed through the operations of the program: that the event logs and the
summaries of certain sessions stay as they are, in the pending directory or in the archive, and
that certain sessions do not get into the archive. Uploads and archiving keep both, unless the
destination takes a session that is held back.
-/

namespace BtClient

open Effect FileSystem

/-! ### The records of a session -/

section Records

/-- What a session has recorded: its name in the artifacts directory, and the contents of its
event log and its summary. -/
structure SessionRecords where
  name : ByteString
  eventLog : ByteString
  summary : ByteString

variable {base : Path} {m n : ByteString} {r : SessionRecords} {t t' : Tree}

/-- The event log and the summary are under their usual names in the directory of the
session. -/
structure HasRecords (directory : Location) (r : SessionRecords) (t : Tree) : Prop where
  eventLog : t.get? (directory ++ [r.name] ++ [ByteString.ofString "session_events.ndjson"]) =
    some (.file r.eventLog)
  summary : t.get? (directory ++ [r.name] ++ [ByteString.ofString "session_summary.json"]) =
    some (.file r.summary)

/-- The session has its records, in the pending directory or in the archive. -/
def KeepsRecords (base : Path) (r : SessionRecords) (t : Tree) : Prop :=
  HasRecords (base / "pending").locate r t ∨ HasRecords (base / "archive").locate r t

/-- The places of the records. -/
def recordPlaces (base : Path) (n : ByteString) : List Location :=
  [(base / "pending").locate, (base / "archive").locate].flatMap fun directory =>
    [directory ++ [n] ++ [ByteString.ofString "session_events.ndjson"],
      directory ++ [n] ++ [ByteString.ofString "session_summary.json"]]

theorem stable_hasRecords (directory : Location) : Stable (HasRecords directory r) :=
  fun _ _ hext h => ⟨hext.get?_eq_some h.eventLog, hext.get?_eq_some h.summary⟩

theorem stable_keepsRecords : Stable (KeepsRecords base r) :=
  fun t t' hext h => h.imp (stable_hasRecords _ t t' hext) (stable_hasRecords _ t t' hext)

theorem ignores_hasRecords {directory l : Location}
    (hlog : l ≠ directory ++ [r.name] ++ [ByteString.ofString "session_events.ndjson"])
    (hsummary : l ≠ directory ++ [r.name] ++ [ByteString.ofString "session_summary.json"]) :
    Ignores l (HasRecords directory r) := by
  intro t t' hsame _ h
  constructor
  · rw [hsame _ hlog.symm, h.eventLog]
  · rw [hsame _ hsummary.symm, h.summary]

theorem ignores_keepsRecords {l : Location} (hl : l ∉ recordPlaces base r.name) :
    Ignores l (KeepsRecords base r) := by
  simp only [recordPlaces, List.flatMap_cons, List.flatMap_nil, List.append_nil,
    List.mem_append, List.mem_cons, List.not_mem_nil, or_false, not_or] at hl
  obtain ⟨⟨hlog, hsummary⟩, hlog', hsummary'⟩ := hl
  intro t t' hsame hdir h
  exact h.imp (ignores_hasRecords hlog hsummary t t' hsame hdir)
    (ignores_hasRecords hlog' hsummary' t t' hsame hdir)

theorem append_singleton_ne {a b : Location} (h : m ≠ n) : a ++ [m] ≠ b ++ [n] :=
  fun heq => h (List.singleton_inj.mp (List.append_inj_right' heq rfl))

/-- A manifest is no record. -/
theorem manifest_notMem_recordPlaces (directory : Location) :
    directory ++ [ByteString.ofString "state.json"] ∉ recordPlaces base n := by
  simp only [recordPlaces, List.flatMap_cons, List.flatMap_nil, List.append_nil,
    List.mem_append, List.mem_cons, List.not_mem_nil, or_false, not_or]
  exact ⟨⟨append_singleton_ne (by decide), append_singleton_ne (by decide)⟩,
    append_singleton_ne (by decide), append_singleton_ne (by decide)⟩

theorem pending_ne_archive (base : Path) :
    (base / "pending").locate ≠ (base / "archive").locate := by
  rw [locate_pending, locate_archive]
  intro h
  exact absurd (List.append_cancel_left h) (by decide)

theorem length_pending (base : Path) :
    (base / "pending").locate.length = (base / "archive").locate.length := by
  rw [locate_pending, locate_archive, List.length_append, List.length_append]
  rfl

/-- What is below a directory is below no other one beside it. -/
theorem not_isPrefix_of_ne {a b r s : Location} (hlength : a.length = b.length) (hne : a ≠ b) :
    ¬ a ++ r <+: b ++ s := by
  rintro ⟨u, hu⟩
  rw [List.append_assoc] at hu
  exact hne (List.append_inj_left hu hlength)

theorem not_isPrefix_pending (r s : Location) :
    ¬ (base / "archive").locate ++ r <+: (base / "pending").locate ++ s :=
  not_isPrefix_of_ne (length_pending base).symm (pending_ne_archive base).symm

theorem not_isPrefix_archive (r s : Location) :
    ¬ (base / "pending").locate ++ r <+: (base / "archive").locate ++ s :=
  not_isPrefix_of_ne (length_pending base) (pending_ne_archive base)

/-- When another session is archived, the records stay; when it is this one, they are in the
archive. -/
theorem KeepsRecords.of_moved (h : KeepsRecords base r t)
    (hmoved : Moved ((base / "pending").locate ++ [m]) ((base / "archive").locate ++ [m]) t t') :
    KeepsRecords base r t' := by
  have hother : ∀ {d l : Location}, m ≠ r.name → ¬ d ++ [m] <+: d ++ [r.name] ++ l := by
    intro d l hne hpre
    rw [List.append_assoc, List.prefix_append_right_inj] at hpre
    exact hne (List.cons_prefix_cons.mp hpre).1
  by_cases hmn : m = r.name
  · subst hmn
    rcases h with h | h
    · exact Or.inr ⟨hmoved.get?_append h.eventLog, hmoved.get?_append h.summary⟩
    · -- nothing is moved to a place that is taken
      obtain ⟨t₁, hext, ⟨-, -, -, -, hfree, -⟩, -⟩ := hmoved
      have hlog := hext.get?_eq_some h.eventLog
      rw [← get?_vacated (l := (base / "archive").locate ++ [r.name]) (by simp),
        FileTree.get?_eq_none_of_isPrefix hfree (List.prefix_append _ _)] at hlog
      cases hlog
  · rcases h with h | h
    · left
      constructor
      · refine hmoved.get?_eq_file_of_not_isPrefix (hother hmn) ?_ h.eventLog
        rw [List.append_assoc]
        exact not_isPrefix_pending _ _
      · refine hmoved.get?_eq_file_of_not_isPrefix (hother hmn) ?_ h.summary
        rw [List.append_assoc]
        exact not_isPrefix_pending _ _
    · right
      constructor
      · refine hmoved.get?_eq_file_of_not_isPrefix ?_ (hother hmn) h.eventLog
        rw [List.append_assoc]
        exact not_isPrefix_archive _ _
      · refine hmoved.get?_eq_file_of_not_isPrefix ?_ (hother hmn) h.summary
        rw [List.append_assoc]
        exact not_isPrefix_archive _ _

/-- All these sessions have their records. -/
def KeepsAll (base : Path) (kept : Set SessionRecords) (t : Tree) : Prop :=
  ∀ r ∈ kept, KeepsRecords base r t

variable {kept : Set SessionRecords}

theorem stable_keepsAll : Stable (KeepsAll base kept) :=
  fun t t' hext h r hr => stable_keepsRecords t t' hext (h r hr)

theorem ignores_keepsAll {l : Location} (hl : ∀ r ∈ kept, l ∉ recordPlaces base r.name) :
    Ignores l (KeepsAll base kept) :=
  fun t t' hsame hdir h r hr => ignores_keepsRecords (hl r hr) t t' hsame hdir (h r hr)

/-- Where the event log of an archived session is. -/
def archivedLog (base : Path) (n : ByteString) : Location :=
  (base / "archive").locate ++ [n] ++ [ByteString.ofString "session_events.ndjson"]

/-- The event logs of these sessions are not in the archive. -/
def HoldsBack (base : Path) (held : Set ByteString) (t : Tree) : Prop :=
  ∀ n ∈ held, LacksFileAt (archivedLog base n) t

variable {held : Set ByteString}

theorem stable_holdsBack : Stable (HoldsBack base held) :=
  fun _ _ hext h n hn content hget => h n hn content (hext.get?_eq_file.mp hget)

theorem ignores_holdsBack {l : Location} (hl : ∀ n ∈ held, archivedLog base n ≠ l) :
    Ignores l (HoldsBack base held) :=
  fun _ _ hsame _ h n hn content hget => h n hn content (hsame _ (hl n hn) ▸ hget)

/-- What is moved into the archive is one session. -/
theorem HoldsBack.of_moved (h : HoldsBack base held t) (hm : m ∉ held)
    (hmoved : Moved ((base / "pending").locate ++ [m]) ((base / "archive").locate ++ [m]) t t') :
    HoldsBack base held t' := by
  intro n hn content hget
  have hother : ¬ (base / "archive").locate ++ [m] <+: archivedLog base n := by
    intro hpre
    rw [archivedLog, List.append_assoc, List.prefix_append_right_inj] at hpre
    exact hm ((List.cons_prefix_cons.mp hpre).1 ▸ hn)
  exact h n hn content (hmoved.get?_of_not_isPrefix hother hget).2

end Records

/-- The destination has taken the form. -/
def Network.Accepts (network : Network) (url : ByteString) (form : ArtifactForm) : Prop :=
  ∃ responseCode statusLine responseBody,
    network url form = .answered responseCode statusLine responseBody ∧
      200 ≤ responseCode ∧ responseCode < 300

section Sending

variable {config : RuntimeConfig} {outputPaths : OutputPaths}

/-- Artifacts are sent when the destination has taken them. -/
theorem triple_sendArtifactsToDestination_accepts (network : Network) :
    Triple (fun _ => True) (sendArtifactsToDestination network config outputPaths)
      (fun _ _ => network.Accepts config.destinationUrl (artifactForm config outputPaths))
      (fun _ _ => True) := by
  refine Triple.bind (S := fun _ _ => True) Triple.trivial fun _ => ?_
  refine Triple.bind (S := fun _ _ => True) Triple.trivial fun _ => ?_
  refine Triple.bind (S := fun _ _ => True) Triple.trivial fun _ => ?_
  refine Triple.bind (S := fun _ _ => True) Triple.trivial fun _ => ?_
  split
  · exact Triple.throw fun _ _ => True.intro
  · next responseCode statusLine responseBody hreply =>
      dsimp only
      apply Triple.ite
      · exact fun _ => Triple.throw fun _ _ => True.intro
      · intro hcode
        rw [not_or, not_lt, not_le] at hcode
        exact Triple.pure fun _ _ =>
          ⟨responseCode, statusLine, responseBody, hreply, hcode.1, hcode.2⟩

end Sending

/-- What the program is watched for: sessions that keep their records, and sessions that are
held back from the archive. -/
structure Watch where
  kept : Set SessionRecords
  held : Set ByteString

/-- Nothing is watched for. -/
def Watch.nothing : Watch := ⟨∅, ∅⟩

/-- One session is to keep its records. -/
def Watch.keeping (r : SessionRecords) : Watch := ⟨{r}, ∅⟩

/-- One session is not to be archived. -/
def Watch.holding (n : ByteString) : Watch := ⟨∅, {n}⟩

theorem Watch.forall_held {watch : Watch} (h : watch.held = ∅) (P : ByteString → Prop) :
    ∀ n ∈ watch.held, P n := by
  intro n hn
  rw [h] at hn
  exact absurd hn (Set.notMem_empty n)

section Guarded

variable [JsonText] {base : Path} {m n : ByteString} {r : SessionRecords}
  {watch : Watch} {t t' : Tree} {config : RuntimeConfig} {outputPaths : OutputPaths}

/-- Only the program has written to the tree. -/
structure Settled (base : Path) (t : Tree) : Prop where
  names : HasNames t
  manifests : ManifestsAreOwn (base / "pending") t

/-- Only the program has written to the tree, the sessions that are kept have their records,
and those that are held back are not archived. -/
structure Guarded (base : Path) (watch : Watch) (t : Tree) : Prop extends Settled base t where
  records : KeepsAll base watch.kept t
  holdsBack : HoldsBack base watch.held t

theorem keeps_guarded {α : Type} {a : Action α} (hnames : Keeps (OnTree HasNames) a)
    (hmanifests : Keeps (OnTree (ManifestsAreOwn (base / "pending"))) a)
    (hrecords : Keeps (OnTree (KeepsAll base watch.kept)) a)
    (hheld : Keeps (OnTree (HoldsBack base watch.held)) a) :
    Keeps (OnTree (Guarded base watch)) a :=
  ((hnames.and hmanifests).and (hrecords.and hheld)).conseq
    (fun _ h => ⟨⟨h.names, h.manifests⟩, h.records, h.holdsBack⟩)
    (fun _ _ h => ⟨⟨h.1.1, h.1.2⟩, h.2.1, h.2.2⟩) fun _ _ h => ⟨⟨h.1.1, h.1.2⟩, h.2.1, h.2.2⟩

theorem keeps_createDirectories_guarded (p : Path) :
    Keeps (OnTree (Guarded base watch)) (createDirectories p) :=
  keeps_guarded (keeps_createDirectories_hasNames p)
    (keeps_createDirectories stable_manifestsAreOwn p)
    (keeps_createDirectories stable_keepsAll p) (keeps_createDirectories stable_holdsBack p)

/-- Writing to a file that is neither a manifest of a pending session nor a record. -/
theorem ignores_guarded {p : Path} (hmanifest : ∀ n, manifestPlace (base / "pending") n ≠ p.locate)
    (hrecord : ∀ r ∈ watch.kept, p.locate ∉ recordPlaces base r.name)
    (hheld : ∀ n ∈ watch.held, archivedLog base n ≠ p.locate) :
    Ignores p.locate (Guarded base watch) := by
  intro t t' hsame hdir h
  exact ⟨⟨ignores_hasNames p t t' hsame hdir h.names,
    ignores_manifestsAreOwn hmanifest t t' hsame hdir h.manifests⟩,
    ignores_keepsAll hrecord t t' hsame hdir h.records,
    ignores_holdsBack hheld t t' hsame hdir h.holdsBack⟩

theorem keeps_rewriteState_guarded {amend : TimestampPair → Json.Members → Json.Members}
    (hamend : IsHistoric amend) (habsolute : outputPaths.stateJsonPath.isAbsolute = true)
    {directory : Location}
    (hplace : outputPaths.stateJsonPath.locate = directory ++ [ByteString.ofString "state.json"])
    (config : RuntimeConfig) (state : ArtifactState) :
    Keeps (OnTree (Guarded base watch))
      (rewriteState config outputPaths state amend) := by
  have hrecord : ∀ r ∈ watch.kept, outputPaths.stateJsonPath.locate ∉ recordPlaces base r.name :=
    fun r _ => hplace ▸ manifest_notMem_recordPlaces directory
  have hheld : ∀ n ∈ watch.held, archivedLog base n ≠ outputPaths.stateJsonPath.locate :=
    fun n _ => hplace ▸ append_singleton_ne (by decide)
  exact keeps_guarded (keeps_rewriteState_hasNames config outputPaths state amend)
    (keeps_rewriteState_manifestsAreOwn hamend habsolute config state)
    (keeps_rewriteState_of_stable stable_keepsAll (ignores_keepsAll hrecord) config state amend)
    (keeps_rewriteState_of_stable stable_holdsBack (ignores_holdsBack hheld) config state amend)

/-! ### Archiving and uploading -/

variable {currentDir : CurrentDir}

/-- A session of the pending directory, which has its manifest in its own directory. -/
structure IsPendingAt (base : Path) (m : ByteString) (outputPaths : OutputPaths) : Prop where
  isName : Path.IsName m
  locate : outputPaths.artifactDir.locate = (base / "pending").locate ++ [m]
  filename : outputPaths.artifactDir.filename = ⟨m⟩
  isAbsolute : outputPaths.stateJsonPath.isAbsolute = true
  manifest : outputPaths.stateJsonPath.locate = manifestPlace (base / "pending") m

omit [JsonText] in
theorem isAbsolute_archive (hbase : IsBase currentDir config base) (m : ByteString) :
    (base / "archive" / (⟨m⟩ : Path)).isAbsolute = true :=
  Path.isAbsolute_join (Path.isAbsolute_of_absolute currentDir.2 hbase.archive)

theorem keeps_archiveArtifactSession_guarded (hbase : IsBase currentDir config base)
    (hpending : IsPendingAt base m outputPaths) (hm : m ∉ watch.held) :
    Keeps (OnTree (Guarded base watch))
      (archiveArtifactSession currentDir config outputPaths) := by
  rw [archiveArtifactSession_eq]
  refine Triple.bind (S := fun archived w => OnTree (Guarded base watch) w ∧
    archived = .inDirectory (base / "archive" / (⟨m⟩ : Path))) ?_ fun archived => ?_
  · apply triple_onTree
    intro t hguarded
    refine ((keeps_moveToArchive_hasNames currentDir config outputPaths).and
      (triple_moveToArchive currentDir t config outputPaths)).conseq
        (fun w hw => ⟨onTree_of_eq hw hguarded.names, hw⟩) ?_ ?_
    · rintro archived w ⟨hnames, archiveRoot, hroot, rfl, hmoved⟩
      obtain rfl : archiveRoot = base / "archive" :=
        Option.some.inj (hroot.symm.trans hbase.archive)
      rw [hpending.filename] at hmoved ⊢
      have hplace : (OutputPaths.inDirectory (base / "archive" / (⟨m⟩ : Path))).artifactDir.locate =
          (base / "archive").locate ++ [m] := Path.locate_join_name _ hpending.isName
      rw [hpending.locate, hplace] at hmoved
      refine ⟨⟨⟨hnames, ?_⟩, fun r hr => (hguarded.records r hr).of_moved hmoved,
        hguarded.holdsBack.of_moved hm hmoved⟩, rfl⟩
      exact hguarded.manifests.of_moved (fun k => not_isPrefix_pending _ _) hmoved
    · rintro e w ⟨hnames, hext⟩
      exact ⟨⟨hnames, stable_manifestsAreOwn _ _ hext hguarded.manifests⟩,
        stable_keepsAll _ _ hext hguarded.records, stable_holdsBack _ _ hext hguarded.holdsBack⟩
  · apply Triple.of_pre
    rintro rfl
    have hwrite : Keeps (OnTree (Guarded base watch)) (writeArtifactState config
        (.inDirectory (base / "archive" / (⟨m⟩ : Path))) .archived) :=
      keeps_rewriteState_guarded isHistoric_id
        (Path.isAbsolute_join (isAbsolute_archive hbase m)) (locate_stateJson _) config .archived
    exact hwrite.bind fun _ => Keeps.pure _

theorem triple_sendOrRecordFailure_accepts (env : Surroundings) (I : Tree → Prop) :
    Triple (OnTree I) (sendOrRecordFailure env config outputPaths)
      (fun _ w => OnTree I w ∧
        env.network.Accepts config.destinationUrl (artifactForm config outputPaths))
      (fun _ _ => True) := by
  apply triple_catchFailure (S := fun _ _ => True)
  · refine (((readsOnly_sendArtifactsToDestination env.network).keeps I).and
      (triple_sendArtifactsToDestination_accepts env.network)).conseq
        (fun _ h => ⟨h, True.intro⟩) (fun _ _ h => h) fun e _ _ => ?_
    cases e <;> exact True.intro
  · intro failure
    refine Triple.bind (S := fun _ _ => True) Triple.trivial fun _ => ?_
    exact Triple.throw fun _ _ => True.intro

theorem keeps_sendOrRecordFailure_guarded (env : Surroundings)
    (hpending : IsPendingAt base m outputPaths) :
    Keeps (OnTree (Guarded base watch))
      (sendOrRecordFailure env config outputPaths) := by
  have hplace : outputPaths.stateJsonPath.locate =
      ((base / "pending").locate ++ [m]) ++ [ByteString.ofString "state.json"] := by
    rw [hpending.manifest, manifestPlace, List.append_assoc]
    rfl
  exact keeps_sendOrRecordFailure env fun _ =>
    keeps_rewriteState_guarded (isHistoric_withUploadFailure _ _) hpending.isAbsolute hplace
      config .readyToUpload

/-- The destination at `url` has taken the artifacts of the session `m`: a form that carries
the manifest of its own directory. -/
def Network.Delivers (network : Network) (url : ByteString) (base : Path) (m : ByteString) :
    Prop :=
  ∃ config outputPaths, IsPendingAt base m outputPaths ∧
    network.Accepts url (artifactForm config outputPaths)

/-- A session is archived only if the destination has taken it. -/
theorem keeps_uploadAndArchive_guarded (env : Surroundings)
    (hheld : ∀ n ∈ watch.held, ¬ env.network.Delivers config.destinationUrl base n)
    (hbase : IsBase env.currentDir config base) (hpending : IsPendingAt base m outputPaths) :
    Keeps (OnTree (Guarded base watch)) (uploadAndArchive env config outputPaths) := by
  refine Triple.bind (S := fun _ w => OnTree (Guarded base watch) w ∧
    env.network.Accepts config.destinationUrl (artifactForm config outputPaths)) ?_ fun _ => ?_
  · exact ((keeps_sendOrRecordFailure_guarded env hpending).and
      (triple_sendOrRecordFailure_accepts env fun _ => True)).conseq
        (fun _ h => ⟨h, True.intro⟩) (fun _ _ h => ⟨h.1, h.2.2⟩) fun _ _ h => h.1
  apply Triple.of_pre
  intro haccepts
  exact keeps_archiveArtifactSession_guarded hbase hpending fun hm =>
    hheld m hm ⟨config, outputPaths, hpending, haccepts⟩

/-! ### The retries at the start -/

variable (currentDir)

omit [JsonText] in
theorem triple_directoryEntries (t : Tree) (p : Path) :
    Triple (OnTree (· = t)) (directoryEntries p)
      (fun entries w => OnTree (· = t) w ∧ ∀ e ∈ entries, e.1 ∈ t.children p.locate)
      (fun _ => OnTree (· = t)) := by
  apply Triple.bind (readsOnly_checkpoint t)
  intro _
  apply Triple.bind (triple_tree.conseq (fun _ h => h) (fun _ _ h => h) fun _ _ h => h.elim)
  intro t'
  have hthrow : Triple (fun w : World => w.tree = t' ∧ t' = t)
      (throwFailure .filesystemError : Action (List (ByteString × Bool)))
      (fun entries w => OnTree (· = t) w ∧ ∀ e ∈ entries, e.1 ∈ t.children p.locate)
      (fun _ => OnTree (· = t)) := by
    apply Triple.throw
    rintro w ⟨rfl, rfl⟩
    rfl
  split
  · next l hl =>
      obtain ⟨rfl, -⟩ := resolve_eq_some_iff.mp hl
      split
      · apply Triple.pure
        rintro w ⟨rfl, rfl⟩
        refine ⟨rfl, fun e he => ?_⟩
        obtain ⟨name, hname, rfl⟩ := List.mem_map.mp he
        exact hname
      · exact hthrow
  · exact hthrow

/-- What the search says about a session in a directory of the pending directory. -/
def IsFoundIn (t : Tree) (pendingDir : Path) (session : PendingArtifactSession) : Prop :=
  ∃ name ∈ t.children pendingDir.locate,
    IsFound currentDir t (pendingDir / (⟨name⟩ : Path)) session

theorem triple_pendingSessions_children (t : Tree) {pendingDir : Path}
    (hpending : pendingDir.isAbsolute = true) {entries : List (ByteString × Bool)}
    (hentries : ∀ e ∈ entries, e.1 ∈ t.children pendingDir.locate) :
    Triple (OnTree (· = t)) (pendingSessions currentDir pendingDir entries)
      (fun sessions w => OnTree (· = t) w ∧ ∀ session ∈ sessions,
        IsFoundIn currentDir t pendingDir session)
      (fun _ => OnTree (· = t)) := by
  induction entries with
  | nil => exact Triple.pure fun w hw => ⟨hw, by simp⟩
  | cons entry rest ih =>
      obtain ⟨name, isDirectory⟩ := entry
      rw [List.forall_mem_cons] at hentries
      rw [pendingSessions]
      apply Triple.ite
      · intro _
        apply Triple.bind (triple_pendingSession currentDir t (Path.isAbsolute_join hpending))
        intro session
        apply Triple.of_pre
        intro hsession
        apply Triple.bind (ih hentries.2)
        intro sessions
        apply Triple.of_pre
        intro hsessions
        apply Triple.pure
        intro w hw
        refine ⟨hw, ?_⟩
        rw [List.forall_mem_cons]
        exact ⟨⟨name, hentries.1, hsession⟩, hsessions⟩
      · exact fun _ => ih hentries.2

variable {currentDir}

/-- The search finds sessions in the directories of the pending directory. -/
theorem triple_findPendingArtifactSessions_children (t : Tree)
    (hbase : IsBase currentDir config base) :
    Triple (OnTree (· = t)) (findPendingArtifactSessions currentDir config.artifactsDir)
      (fun sessions w => OnTree (· = t) w ∧ ∀ session ∈ sessions,
        IsFoundIn currentDir t (base / "pending") session)
      (fun _ => OnTree (· = t)) := by
  have habsolute := Path.isAbsolute_of_absolute currentDir.2 hbase.pending
  unfold findPendingArtifactSessions pendingArtifactsDir
  rw [absolutePath_eq_pure hbase.pending]
  apply Triple.pure_bind
  apply Triple.bind (readsOnly_pathExists _ t)
  intro found
  apply Triple.ite
  · intro _
    apply Triple.bind (triple_directoryEntries t _)
    intro entries
    apply Triple.of_pre
    intro hentries
    apply Triple.bind (triple_pendingSessions_children currentDir t habsolute hentries)
    intro sessions
    apply Triple.of_pre
    intro hsessions
    apply Triple.pure
    intro w hw
    exact ⟨hw, fun session hmem => hsessions session (by simpa using hmem)⟩
  · exact fun _ => Triple.pure fun w hw => ⟨hw, by simp⟩

omit [JsonText] in
/-- A manifest that names its own place is written to its own place. -/
theorem NamesPlace.stateJsonPath {value : Json} {l : Location} (h : NamesPlace l value)
    {artifactDir p : Path} (habsolute : artifactDir.isAbsolute = true)
    (hl : (artifactDir / "state.json").locate = l)
    (hp : pathFromStateFile currentDir value artifactDir "state_json"
      (artifactDir / "state.json") = pure p) : p.isAbsolute = true ∧ p.locate = l := by
  have hpure : ∀ {q : Path}, (pure q : Action Path) = pure p → q = p := fun heq =>
    pure_inj (quietWorld .empty []) heq
  unfold pathFromStateFile at hp
  split at hp
  · next files hfiles =>
      dsimp only at hp
      rcases h files hfiles with hempty | ⟨hpath, hlocate⟩
      · rw [if_pos (by simpa using hempty)] at hp
        obtain rfl := hpure hp
        exact ⟨Path.isAbsolute_join habsolute, hl⟩
      · have hne : (jsonStringOrEmpty (.object files) "state_json").isEmpty = false := by
          cases htext : jsonStringOrEmpty (.object files) "state_json" with
          | nil =>
              rw [htext] at hpath
              cases hpath
          | cons c rest => rfl
        rw [hne, if_neg Bool.false_ne_true, if_pos hpath,
          absolutePath_eq_pure (Path.absolute_of_isAbsolute _ hpath)] at hp
        obtain rfl := hpure hp
        exact ⟨hpath, hlocate⟩
  · obtain rfl := hpure hp
    exact ⟨Path.isAbsolute_join habsolute, hl⟩

/-- In a settled tree, a session that is found ready is one of the pending directory. -/
theorem isPendingAt_of_isFoundIn (hsettled : Settled base t)
    (hbase : IsBase currentDir config base) {session : PendingArtifactSession}
    (h : IsFoundIn currentDir t (base / "pending") session)
    (hready : session.state = .readyToUpload) :
    ∃ m, IsPendingAt base m session.outputPaths := by
  obtain ⟨m, hchild, hdir, hstate⟩ := h
  obtain ⟨content, value, hget, hparse, hread⟩ := hstate.resolve_left fun hunknown => by
    rw [hready] at hunknown
    cases hunknown
  have hname : Path.IsName m :=
    hsettled.names _ (FileTree.mem_children_iff.mp hchild) m (by simp)
  have habsolute : session.outputPaths.artifactDir.isAbsolute = true := by
    rw [hdir]
    exact Path.isAbsolute_join (Path.isAbsolute_of_absolute currentDir.2 hbase.pending)
  have hlocate : session.outputPaths.artifactDir.locate = (base / "pending").locate ++ [m] := by
    rw [hdir, Path.locate_join_name _ hname]
  have hplace : (session.outputPaths.artifactDir / "state.json").locate =
      manifestPlace (base / "pending") m := by
    rw [locate_stateJson, manifestLocation, hlocate, List.append_assoc]
    rfl
  have hmanifest : manifestLocation (base / "pending" / (⟨m⟩ : Path)) =
      manifestPlace (base / "pending") m := by
    rw [← hdir, ← locate_stateJson, hplace]
  rw [hmanifest] at hget
  obtain ⟨hstateAbsolute, hstateLocate⟩ := (hsettled.manifests m content value hget hparse).stateJsonPath
    habsolute hplace hread.stateJsonPath
  exact ⟨m, hname, hlocate, by rw [hdir, Path.filename_join_name _ hname], hstateAbsolute,
    hstateLocate⟩

/-- The loop over sessions that are in the pending directory. -/
theorem keeps_retrySessions_guarded (env : Surroundings)
    (hheld : ∀ n ∈ watch.held, ¬ env.network.Delivers config.destinationUrl base n)
    (hbase : IsBase env.currentDir config base) (sessions : List PendingArtifactSession)
    (hsessions : ∀ session ∈ sessions, session.state = .readyToUpload →
      ∃ m, IsPendingAt base m session.outputPaths) (uploadedAny : Bool) :
    Keeps (OnTree (Guarded base watch))
      (retrySessions env config uploadedAny sessions) := by
  refine keeps_retrySessions env sessions (fun session hmem hready _ => ?_) uploadedAny
  obtain ⟨m, hpending⟩ := hsessions session hmem hready
  have hbase' : IsBase env.currentDir (uploadConfig config session) base :=
    ⟨hbase.pending, hbase.archive⟩
  exact keeps_uploadAndArchive_guarded env hheld hbase' hpending

theorem keeps_retryPendingArtifactUploads_guarded (env : Surroundings)
    (hheld : ∀ n ∈ watch.held, ¬ env.network.Delivers config.destinationUrl base n)
    (hbase : IsBase env.currentDir config base) :
    Keeps (OnTree (Guarded base watch)) (retryPendingArtifactUploads env config) := by
  unfold retryPendingArtifactUploads
  apply triple_onTree
  intro t hguarded
  refine Triple.bind ((triple_findPendingArtifactSessions_children t hbase).conseq
    (fun _ h => h) (fun _ _ h => h) fun _ _ h => onTree_of_eq h hguarded) fun sessions => ?_
  apply Triple.of_pre
  intro hfound
  have hkeeps : Keeps (OnTree (Guarded base watch))
      (retrySessions env config false sessions) :=
    keeps_retrySessions_guarded env hheld hbase sessions (fun session hmem hready =>
      isPendingAt_of_isFoundIn hguarded.toSettled hbase (hfound session hmem) hready) false
  exact hkeeps.conseq (fun w hw => onTree_of_eq hw hguarded) (fun _ _ h => h) fun _ _ h => h

end Guarded

end BtClient
