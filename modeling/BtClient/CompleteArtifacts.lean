import BtClient.AllOrNothing
import BtClient.ArchivedFiles
import BtClient.Main

/-!
# A session that is ready is complete

The manifest says `ready_to_upload` only after the event log has been closed and the summary
has been written, so both are complete then, if they are different files and what the summary
leaves in the buffer of its stream arrives.
-/

namespace BtClient

open Effect FileSystem

/-! ### Files with their contents -/

/-- The path leads to a file with this content. -/
def HasFile (p : Path) (content : ByteString) (t : Tree) : Prop :=
  find t p = some (.file content)

section HasFile

variable {p : Path} {content : ByteString} {t t' : Tree} {l : Location}

theorem ignores_reaches (l : Location) (p : Path) : Ignores l fun t => Reaches t p := by
  intro t t' hsame hl hreach d hd
  have hdir := hreach d hd
  have hne : d ≠ l := fun heq => hl (heq ▸ hdir)
  rw [FileTree.isDir, hsame d hne]
  exact hdir

theorem ignores_hasFile (hl : p.locate ≠ l) : Ignores l (HasFile p content) := by
  intro t t' hsame hdir hfile
  obtain ⟨hreach, hget⟩ := find_eq_some_iff.mp hfile
  exact find_eq_some_iff.mpr
    ⟨ignores_reaches l p t t' hsame hdir hreach, (hsame _ hl).trans hget⟩

theorem stable_hasFile : Stable (HasFile p content) :=
  fun _ _ hext hfile => find_of_extends hext hfile

theorem HasFile.appended (h : HasFile p content t) (data : ByteString) :
    HasFile p (content ++ data) (FileSystem.appended t p.locate data) := by
  obtain ⟨hreach, hget⟩ := find_eq_some_iff.mp h
  have hnot : ¬ t.isDir p.locate := by
    rw [FileTree.isDir, hget]
    simp
  refine find_eq_some_iff.mpr ⟨?_, ?_⟩
  · refine ignores_reaches p.locate p t _ (fun k hk => ?_) hnot hreach
    rw [get?_appended hget, if_neg hk]
  · rw [get?_appended hget, if_pos rfl]

/-- A file that is opened to be written is empty. -/
theorem triple_openTruncated_hasFile (p : Path) :
    Triple (fun _ => True) (openTruncated p)
      (fun opened => OnTree fun t => ∀ l, opened = some l → l = p.locate ∧ HasFile p [] t)
      (fun _ _ => True) := by
  intro w _
  refine ((triple_openTruncated w.tree p).conseq (fun _ h => h) ?_ fun _ _ _ => True.intro) w rfl
  intro opened w' hopened l hl
  subst hl
  obtain ⟨rfl, hreach, hw, htree⟩ := hopened
  refine ⟨rfl, find_eq_some_iff.mpr ⟨?_, ?_⟩⟩
  · rw [htree]
    refine ignores_reaches p.locate p w.tree _ (fun k hk => ?_) hw.2.2 hreach
    rw [FileTree.get?_put, if_neg hk]
  · rw [htree, FileTree.get?_put, if_pos rfl]

end HasFile

/-! ### The event log -/

section EventLog

variable [JsonText] {outputPaths : OutputPaths} {content : ByteString}

/-- The lines of the events. -/
def eventText (events : List Json) : ByteString := events.flatMap eventLine

omit [JsonText] in
theorem triple_openEventLog_hasFile :
    Triple (fun _ => True) (openEventLog outputPaths)
      (fun stream => OnTree fun t => stream = ⟨outputPaths.eventLogPath.locate, true⟩ ∧
        HasFile outputPaths.eventLogPath [] t)
      (fun _ _ => True) := by
  refine Triple.bind (triple_openTruncated_hasFile outputPaths.eventLogPath) fun opened => ?_
  cases opened with
  | none => exact Triple.throw fun _ _ => True.intro
  | some l =>
      apply Triple.pure
      intro w hw
      obtain ⟨rfl, hfile⟩ := hw l rfl
      exact ⟨rfl, hfile⟩

omit [JsonText] in
/-- A write that leaves its stream good has written everything. -/
theorem triple_writeFlushed_hasFile (p : Path) (data : ByteString) :
    Triple (OnTree (HasFile p content)) (writeFlushed p.locate data)
      (fun good => OnTree fun t => good = true → HasFile p (content ++ data) t)
      (fun _ _ => True) := by
  rintro ⟨t, faults, clock⟩ hfile
  have happend : HasFile p (content ++ data) (FileSystem.appended t p.locate data) :=
    HasFile.appended hfile data
  cases faults with
  | nil => exact fun _ => happend
  | cons fault rest =>
      cases fault with
      | none => exact fun _ => happend
      | reported reached => exact fun hgood => Bool.noConfusion hgood
      | unnoticed reached => exact fun hgood => Bool.noConfusion hgood
      | crash reached => exact True.intro

/-- A stream that is good after the events has been good before them, and the file has the line
of every event. -/
theorem triple_writeEventLines_hasFile (events : List Json) (good : Bool) :
    Triple (OnTree fun t => good = true → HasFile outputPaths.eventLogPath content t)
      (writeEventLines ⟨outputPaths.eventLogPath.locate, good⟩ events)
      (fun stream => OnTree fun t => stream.good = true →
        HasFile outputPaths.eventLogPath (content ++ eventText events) t)
      (fun _ _ => True) := by
  induction events generalizing good content with
  | nil =>
      apply Triple.pure
      intro w hw hgood
      rw [eventText, List.flatMap_nil, List.append_nil]
      exact hw hgood
  | cons event rest ih =>
      have htext : content ++ eventText (event :: rest) =
          (content ++ (JsonText.dump event ++ [newline])) ++ eventText rest := by
        simp [eventText, eventLine]
      rw [writeEventLines, writeEventLine, bind_assoc, htext]
      unfold dump
      by_cases hutf : event.isUtf8 = true
      · rw [if_pos hutf]
        apply Triple.pure_bind
        cases good with
        | false =>
            refine (ih false).conseq (fun _ _ hgood => Bool.noConfusion hgood)
              (fun _ _ h => h) fun _ _ h => h
        | true =>
            rw [if_pos rfl, bind_assoc]
            refine Triple.bind ((triple_writeFlushed_hasFile outputPaths.eventLogPath _).conseq
              (fun _ h => h rfl) (fun _ _ h => h) fun _ _ h => h) fun good => ?_
            apply Triple.pure_bind
            exact ih good
      · rw [if_neg hutf]
        exact Triple.throw fun _ _ => True.intro

end EventLog

/-! ### The capture up to its summary -/

section Summary

variable [JsonText]

/-- `captureInto` up to the open file of the summary. -/
def openSummary (config : RuntimeConfig) (outputPaths : OutputPaths) (events : List Json) :
    Action (Option Location) := do
  writeArtifactState config outputPaths .capturing
  let stream ← openEventLog outputPaths
  let stream ← writeEventLines stream events
  closeEventLog outputPaths stream
  FileSystem.openTruncated outputPaths.summaryJsonPath

/-- The rest of `write_session_summary`. -/
def finishSummary (outputPaths : OutputPaths) (summary : Json) : Option Location → Action Unit
  | none => throwFailure (.runtimeError
      ("failed to open summary output at " ++ outputPaths.summaryJsonPath.bytes))
  | some l => do
      let text ← dump summary
      let good ← FileSystem.writeBuffered l (text ++ [newline])
      if good then pure ()
      else throwFailure (.runtimeError
        ("failed to write summary output at " ++ outputPaths.summaryJsonPath.bytes))

theorem captureInto_eq (config : RuntimeConfig) (outputPaths : OutputPaths)
    (events : List Json) (summary : Json) :
    captureInto config outputPaths events summary =
      (do
        let opened ← openSummary config outputPaths events
        finishSummary outputPaths summary opened
        writeArtifactState config outputPaths .readyToUpload) := by
  unfold captureInto openSummary writeSessionSummary
  simp only [bind_assoc]
  refine bind_congr fun _ => bind_congr fun stream => bind_congr fun stream' =>
    bind_congr fun _ => bind_congr fun opened => ?_
  cases opened <;> rfl

variable {config : RuntimeConfig} {outputPaths : OutputPaths} {events : List Json}
  {summary : Json}

/-- When the file of the summary is open, the event log is complete. -/
theorem triple_openSummary
    (hdiffer : outputPaths.eventLogPath.locate ≠ outputPaths.summaryJsonPath.locate) :
    Triple (fun _ => True) (openSummary config outputPaths events)
      (fun opened => OnTree fun t => HasFile outputPaths.eventLogPath (eventText events) t ∧
        ∀ l, opened = some l → l = outputPaths.summaryJsonPath.locate ∧
          HasFile outputPaths.summaryJsonPath [] t)
      (fun _ _ => True) := by
  refine Triple.bind (S := fun _ _ => True) Triple.trivial fun _ => ?_
  refine Triple.bind triple_openEventLog_hasFile fun stream => ?_
  apply triple_onTree
  rintro t ⟨rfl, hempty⟩
  refine Triple.bind ((triple_writeEventLines_hasFile events true).conseq
    (fun w hw _ => onTree_of_eq hw hempty) (fun _ _ h => h) fun _ _ h => h) fun stream' => ?_
  rw [List.nil_append]
  refine Triple.bind (S := fun _ => OnTree (HasFile outputPaths.eventLogPath (eventText events)))
    ?_ fun _ => ?_
  · -- a stream that has failed is not closed without an exception
    apply triple_onTree
    intro t hgood
    unfold closeEventLog
    refine Triple.bind ((readsOnly_closeStream t).conseq (fun _ h => h) (fun _ _ h => h)
      fun _ _ _ => True.intro) fun closed => ?_
    apply Triple.ite
    · intro hclosed
      rw [Bool.and_eq_true] at hclosed
      exact Triple.pure fun w hw => onTree_of_eq hw (hgood hclosed.1)
    · exact fun _ => Triple.throw fun _ _ => True.intro
  · have hkeeps : Keeps (OnTree (HasFile outputPaths.eventLogPath (eventText events)))
        (openTruncated outputPaths.summaryJsonPath) :=
      keeps_openTruncated (ignores_hasFile hdiffer)
    refine (hkeeps.and (triple_openTruncated_hasFile outputPaths.summaryJsonPath)).conseq
      (fun _ h => ⟨h, True.intro⟩) (fun _ _ h => h) fun _ _ _ => True.intro

omit [JsonText] in
/-- Of a write that is not flushed, what was in the buffer may be lost unnoticed. -/
theorem triple_writeBuffered_hasFile {content : ByteString} (p : Path) (data : ByteString) :
    Triple (fun w => OnTree (HasFile p content) w ∧
        ∀ reached, w.fault 0 = .unnoticed reached → data.length ≤ reached)
      (writeBuffered p.locate data)
      (fun good => OnTree fun t => good = true → HasFile p (content ++ data) t)
      (fun _ _ => True) := by
  rintro ⟨t, faults, clock⟩ ⟨hfile, harrives⟩
  have happend : ∀ arrived, HasFile p (content ++ arrived) (FileSystem.appended t p.locate arrived) :=
    HasFile.appended hfile
  cases faults with
  | nil => exact fun _ => happend data
  | cons fault rest =>
      cases fault with
      | none => exact fun _ => happend data
      | reported reached => exact fun hgood => Bool.noConfusion hgood
      | unnoticed reached =>
          intro _
          have hall : data.take reached = data := List.take_of_length_le (harrives reached rfl)
          change HasFile p _ (FileSystem.appended t p.locate (data.take reached))
          rw [hall]
          exact happend data
      | crash reached => exact True.intro

/-- When the summary has been written and what was in the buffer has arrived, it is complete. -/
theorem triple_finishSummary
    (hdiffer : outputPaths.eventLogPath.locate ≠ outputPaths.summaryJsonPath.locate) :
    Triple (fun w => OnTree (fun t => HasFile outputPaths.eventLogPath (eventText events) t ∧
        HasFile outputPaths.summaryJsonPath [] t) w ∧ ∀ reached, w.fault 0 = .unnoticed reached →
          (JsonText.dump summary ++ [newline]).length ≤ reached)
      (finishSummary outputPaths summary (some outputPaths.summaryJsonPath.locate))
      (fun _ => OnTree fun t => HasFile outputPaths.eventLogPath (eventText events) t ∧
        HasFile outputPaths.summaryJsonPath (JsonText.dump summary ++ [newline]) t)
      (fun _ _ => True) := by
  unfold finishSummary dump
  dsimp only
  by_cases hutf : summary.isUtf8 = true
  · rw [if_pos hutf]
    apply Triple.pure_bind
    have hkeeps : Keeps (OnTree (HasFile outputPaths.eventLogPath (eventText events)))
        (writeBuffered outputPaths.summaryJsonPath.locate (JsonText.dump summary ++ [newline])) :=
      keeps_writeBuffered (ignores_hasFile hdiffer) _
    refine Triple.bind ((hkeeps.and (triple_writeBuffered_hasFile outputPaths.summaryJsonPath
      (JsonText.dump summary ++ [newline]))).conseq
        (fun w h => ⟨h.1.1, h.1.2, h.2⟩) (fun _ _ h => h) fun _ _ _ => True.intro) fun good => ?_
    apply Triple.ite
    · intro hgood
      exact Triple.pure fun w hw => ⟨hw.1, hw.2 hgood⟩
    · exact fun _ => Triple.throw fun _ _ => True.intro
  · rw [if_neg hutf]
    exact Triple.throw fun _ _ => True.intro

/-! ### The fault that the summary meets -/

/-- The first manifest of a session in a new directory is written with four operations. -/
theorem faults_of_writeArtifactState {w w' : World} {state : ArtifactState}
    (hstate : outputPaths.stateJsonPath = outputPaths.artifactDir / "state.json")
    (hreach : Reaches w.tree outputPaths.artifactDir)
    (hdir : w.tree.isDir outputPaths.artifactDir.locate)
    (hnew : ∀ content, w.tree.get? outputPaths.stateJsonPath.locate ≠ some (.file content))
    (h : writeArtifactState config outputPaths state w = (.ok (), w')) :
    w'.faults = w.faults.drop 4 := by
  unfold writeArtifactState at h
  rw [rewriteState_eq] at h
  obtain ⟨⟨value, place⟩, w₁, hopen, hfinish⟩ := of_bind_ok h
  cases place with
  | none => cases hfinish
  | some l =>
      have hway : Reaches w.tree outputPaths.stateJsonPath := by
        rw [hstate]
        exact (reaches_join_name (by decide)).mpr ⟨hreach, hdir⟩
      have hfaults : w₁.faults = w.faults.drop 3 := by
        let call : Call := ⟨⟨config, outputPaths, ⟨"t", 0⟩, by decide⟩, .writeArtifactState state⟩
        have hopened : openManifest call.caller.config call.caller.outputPaths call.state
          call.amend w = (.ok (value, some l), w₁) := hopen
        obtain ⟨read, readAgain, hopens, -⟩ := opens_of_openManifest hopened
        have hmade := createDirectories_of_isDir hreach hdir
        generalize w₁.faults = rest at hopens
        cases hopens with
        | found hcreate hfound =>
            cases hmade.symm.trans hcreate
            exact absurd (find_eq_some_iff.mp hfound).2 (hnew _)
        | missing hcreate hmissing hlook hlook' hparent =>
            cases hmade.symm.trans hcreate
            have hway' : Reaches (w.ticked.after 2).tree call.path := hway
            cases (ensureParentDirectory_of_reaches hway').symm.trans hparent
            rw [World.faults_after, List.drop_drop]
            rfl
      have hwrite : Meets 1 (finishManifest outputPaths.stateJsonPath value (some l)) := by
        have hcheck : ∀ text, Meets 1 (do
            let good ← writeBuffered l text
            if good then pure ()
            else throwFailure (.runtimeError ("failed to write JSON output at " ++
              outputPaths.stateJsonPath.bytes))) := by
          intro text
          refine Meets.bind (k := 0) (meets_writeBuffered l text) fun good => ?_
          split
          · exact meets_pure ()
          · exact meets_throwFailure _
        unfold finishManifest dumpIndented
        dsimp only
        by_cases hutf : value.isUtf8 = true
        · rw [if_pos hutf, pure_bind]
          exact hcheck _
        · rw [if_neg hutf]
          exact meets_throwFailure _
      rw [hwrite _ _ _ hfinish, hfaults, List.drop_drop]

/-- A stream that has failed stays so. -/
theorem good_writeEventLines {w w' : World} {l : Location} {stream : EventStream}
    (h : writeEventLines ⟨l, false⟩ events w = (.ok stream, w')) : stream.good = false := by
  induction events generalizing w with
  | nil =>
      cases h
      rfl
  | cons event rest ih =>
      obtain ⟨stream₁, w₁, hfirst, hrest⟩ := of_bind_ok h
      obtain ⟨text, w₂, -, hline⟩ := of_bind_ok hfirst
      cases hline
      exact ih hrest

/-- Each event that is logged is one write. -/
theorem faults_of_writeEventLines {w w' : World} {l : Location} {stream : EventStream}
    (hgood : stream.good = true) (h : writeEventLines ⟨l, true⟩ events w = (.ok stream, w')) :
    w'.faults = w.faults.drop events.length := by
  induction events generalizing w with
  | nil =>
      cases h
      rfl
  | cons event rest ih =>
      obtain ⟨⟨l₁, good⟩, w₁, hfirst, hrest⟩ := of_bind_ok h
      obtain ⟨text, w₂, hdump, hline⟩ := of_bind_ok hfirst
      rw [if_pos rfl] at hline
      obtain ⟨good', w₃, hwrite, hpure⟩ := of_bind_ok hline
      cases hpure
      have hsame : w₂ = w := by
        unfold dump at hdump
        split at hdump <;> cases hdump
        rfl
      cases good with
      | false => exact absurd (good_writeEventLines hrest) (by rw [hgood]; exact Bool.noConfusion)
      | true =>
          rw [ih hrest, meets_writeFlushed _ _ _ _ _ hwrite, hsame, List.drop_drop,
            List.length_cons, Nat.add_comm]

/-- When the file of the summary is open, its write is next. -/
theorem faults_of_openSummary {w w' : World} {opened : Option Location}
    (hstate : outputPaths.stateJsonPath = outputPaths.artifactDir / "state.json")
    (hreach : Reaches w.tree outputPaths.artifactDir)
    (hdir : w.tree.isDir outputPaths.artifactDir.locate)
    (hnew : ∀ content, w.tree.get? outputPaths.stateJsonPath.locate ≠ some (.file content))
    (h : openSummary config outputPaths events w = (.ok opened, w')) :
    w'.faults = w.faults.drop (events.length + 7) := by
  obtain ⟨_, w₁, hwrite, hlog⟩ := of_bind_ok h
  obtain ⟨stream, w₂, hopen, hevents⟩ := of_bind_ok hlog
  obtain ⟨stream', w₃, hlines, hend⟩ := of_bind_ok hevents
  obtain ⟨_, w₄, hclose, hsummary⟩ := of_bind_ok hend
  obtain ⟨place, w₅, hplace, hpure⟩ := of_bind_ok hopen
  obtain ⟨closed, w₆, hclosed, hcheck⟩ := of_bind_ok hclose
  cases place with
  | none => cases hpure
  | some l =>
      cases hpure
      cases hgood : stream'.good with
      | false =>
          rw [hgood] at hcheck
          cases hcheck
      | true =>
          have hsame : w₄ = w₆ := by
            split at hcheck <;> cases hcheck
            rfl
          rw [meets_openTruncated _ _ _ _ hsummary, hsame, meets_closeStream _ _ _ hclosed,
            faults_of_writeEventLines hgood hlines, meets_openTruncated _ _ _ _ hplace,
            faults_of_writeArtifactState hstate hreach hdir hnew hwrite]
          simp only [List.drop_drop]
          congr 1
          omega

end Summary

/-! ### What the manifest says -/

section Ready

variable [JsonText] {config : RuntimeConfig} {outputPaths : OutputPaths} {events : List Json}
  {summary : Json} {l k : Location}

/-- The manifest at the path says that the session is ready. -/
def SaysReady (t : Tree) (stateJsonPath : Path) : Prop :=
  ∃ value, Holds t stateJsonPath value ∧
    value.find "state" = some (Json.text (artifactStateName .readyToUpload))

/-- Whatever is read at `l` does not say that the session is ready. -/
def NotReadyAt (l : Location) (t : Tree) : Prop :=
  ∀ content value, t.get? l = some (.file content) → JsonText.parse content = some value →
    value.find "state" ≠ some (Json.text (artifactStateName .readyToUpload))

theorem NotReadyAt.not_saysReady {t : Tree} {p : Path} (h : NotReadyAt p.locate t) :
    ¬ SaysReady t p := by
  rintro ⟨value, ⟨content, hfind, hparse⟩, hstate⟩
  exact h content value (find_eq_some_iff.mp hfind).2 hparse hstate

omit [JsonText] in
/-- Whether it holds depends only on what is at the location. -/
def DependsOn (l : Location) (I : Tree → Prop) : Prop :=
  ∀ t t', t'.get? l = t.get? l → I t → I t'

omit [JsonText] in
theorem DependsOn.ignores {I : Tree → Prop} (h : DependsOn l I) (hk : l ≠ k) : Ignores k I :=
  fun t t' hsame _ hI => h t t' (hsame l hk) hI

/-- A manifest in another state does not say that the session is ready. -/
theorem keeps_notReadyAt {state : ArtifactState} (hstate : state ≠ .readyToUpload) :
    Keeps (OnTree (NotReadyAt outputPaths.stateJsonPath.locate))
      (writeArtifactState config outputPaths state) := by
  apply triple_onTree
  intro t hnot
  have hwritten : ∀ {t' : Tree} {members : Json.Members},
      IsAmended t config outputPaths state (fun _ stateJson => stateJson) members →
        Overwritten outputPaths.stateJsonPath.locate (manifestText (.object members)) t t' →
          NotReadyAt outputPaths.stateJsonPath.locate t' := by
    intro t' members hamended hover content value hget hparse hready
    obtain ⟨text, htext, hhere⟩ := hover.here
    cases hget.symm.trans hhere
    obtain ⟨rfl, -⟩ :=
      eq_of_parse_manifestText (isPlain_of_isAmended isHistoric_id hamended) htext hparse
    obtain ⟨previous, createdUtc, now, -, rfl⟩ := hamended
    rw [Json.find, manifest_state] at hready
    have hname := congrArg artifactStateFromString (Json.string.inj (Option.some.inj hready))
    rw [artifactStateFromString_artifactStateName,
      artifactStateFromString_artifactStateName] at hname
    exact hstate hname
  refine (triple_rewriteState t config outputPaths state _).conseq (fun _ h => h) ?_ ?_
  · rintro _ w ⟨members, hamended, -, -, hover⟩
    exact hwritten hamended hover
  · rintro _ w (hext | ⟨members, hamended, hover⟩)
    · intro content value hget
      exact hnot content value (hext.get?_eq_file.mp hget)
    · exact hwritten hamended hover

/-- The three files of the session are different. -/
structure OutputPaths.AreSeparate (outputPaths : OutputPaths) : Prop where
  state_ne_eventLog : outputPaths.stateJsonPath.locate ≠ outputPaths.eventLogPath.locate
  state_ne_summary : outputPaths.stateJsonPath.locate ≠ outputPaths.summaryJsonPath.locate
  eventLog_ne_summary : outputPaths.eventLogPath.locate ≠ outputPaths.summaryJsonPath.locate

/-- The event log and the summary are in their files. -/
def OutputPaths.HaveArtifacts (outputPaths : OutputPaths) (events : List Json) (summary : Json)
    (t : Tree) : Prop :=
  HasFile outputPaths.eventLogPath (eventText events) t ∧
    HasFile outputPaths.summaryJsonPath (JsonText.dump summary ++ [newline]) t

/-- Whatever manifest is read describes the session. -/
abbrev NamesSessionIn (config : RuntimeConfig) (outputPaths : OutputPaths) (t : Tree) : Prop :=
  NamesSessionAt config outputPaths outputPaths.stateJsonPath.locate t

/-- The manifest describes the session, and does not say that it is ready before its files are
complete. -/
def ReadyIsComplete (config : RuntimeConfig) (outputPaths : OutputPaths) (events : List Json)
    (summary : Json) (t : Tree) : Prop :=
  NamesSessionIn config outputPaths t ∧ (NotReadyAt outputPaths.stateJsonPath.locate t ∨
    outputPaths.HaveArtifacts events summary t)

theorem keeps_haveArtifacts (hseparate : outputPaths.AreSeparate) (config : RuntimeConfig)
    (state : ArtifactState) (amend : TimestampPair → Json.Members → Json.Members) :
    Keeps (OnTree (outputPaths.HaveArtifacts events summary))
      (rewriteState config outputPaths state amend) := by
  have hstable : Stable (outputPaths.HaveArtifacts events summary) :=
    fun t t' hext h => ⟨stable_hasFile t t' hext h.1, stable_hasFile t t' hext h.2⟩
  have hignores : Ignores outputPaths.stateJsonPath.locate
      (outputPaths.HaveArtifacts events summary) := fun t t' hsame hdir h =>
    ⟨ignores_hasFile hseparate.state_ne_eventLog.symm t t' hsame hdir h.1,
      ignores_hasFile hseparate.state_ne_summary.symm t t' hsame hdir h.2⟩
  have hparent : Keeps (OnTree (outputPaths.HaveArtifacts events summary))
      (ensureParentDirectory outputPaths.stateJsonPath) := by
    unfold ensureParentDirectory
    split
    · exact Keeps.pure _
    · exact keeps_createDirectories hstable _
  exact keeps_rewriteState (keeps_createDirectories hstable _) hparent hignores config state amend

/-- What depends only on the place of the manifest is kept while the event log and the summary
are written. -/
theorem keeps_openSummary {I : Tree → Prop} (hseparate : outputPaths.AreSeparate)
    (hI : DependsOn outputPaths.stateJsonPath.locate I)
    (hwrite : Keeps (OnTree I) (writeArtifactState config outputPaths .capturing))
    (events : List Json) : Keeps (OnTree I) (openSummary config outputPaths events) := by
  have hevent := hI.ignores hseparate.state_ne_eventLog
  apply Keeps.bind hwrite
  intro _
  refine Triple.bind (triple_openEventLog hevent) fun stream => ?_
  apply Triple.of_pre
  intro hlocation
  obtain ⟨l, good⟩ := stream
  obtain rfl : l = outputPaths.eventLogPath.locate := hlocation
  apply Keeps.bind (keeps_writeEventLines hevent events good)
  intro stream
  apply Keeps.bind ((readsOnly_closeEventLog stream).keeps I)
  intro _
  exact keeps_openTruncated (hI.ignores hseparate.state_ne_summary)

theorem keeps_finishSummary {I : Tree → Prop} (hseparate : outputPaths.AreSeparate)
    (hI : DependsOn outputPaths.stateJsonPath.locate I) {opened : Option Location}
    (hopened : ∀ l, opened = some l → l = outputPaths.summaryJsonPath.locate) (summary : Json) :
    Keeps (OnTree I) (finishSummary outputPaths summary opened) := by
  cases opened with
  | none => exact Keeps.throw _
  | some l =>
      obtain rfl := hopened l rfl
      apply Keeps.bind ((readsOnly_dump summary).keeps I)
      intro text
      apply Keeps.bind (keeps_writeBuffered (hI.ignores hseparate.state_ne_summary) _)
      intro good
      split
      · exact Keeps.pure _
      · exact Keeps.throw _

/-- What is read of the manifest describes a session that is not ready. -/
def IsBegun (config : RuntimeConfig) (outputPaths : OutputPaths) (t : Tree) : Prop :=
  NamesSessionIn config outputPaths t ∧ NotReadyAt outputPaths.stateJsonPath.locate t

theorem IsBegun.readyIsComplete {t : Tree} (h : IsBegun config outputPaths t) :
    ReadyIsComplete config outputPaths events summary t := ⟨h.1, Or.inl h.2⟩

theorem dependsOn_isBegun :
    DependsOn outputPaths.stateJsonPath.locate (IsBegun config outputPaths) := by
  intro t t' hsame hbegun
  refine ⟨fun content value hget => ?_, fun content value hget => ?_⟩
  · exact hbegun.1 content value (hsame ▸ hget)
  · exact hbegun.2 content value (hsame ▸ hget)

/-- Writing the manifest of the session keeps that it describes the session. -/
theorem keeps_namesSessionIn (state : ArtifactState) :
    Keeps (OnTree (NamesSessionIn config outputPaths))
      (writeArtifactState config outputPaths state) :=
  keeps_namesSessionAt state isHistoric_id rfl rfl ⟨rfl, rfl, rfl⟩

theorem keeps_isBegun : Keeps (OnTree (IsBegun config outputPaths))
    (writeArtifactState config outputPaths .capturing) := by
  have hnot : Keeps (OnTree (NotReadyAt outputPaths.stateJsonPath.locate))
      (writeArtifactState config outputPaths .capturing) := keeps_notReadyAt (by decide)
  exact ((keeps_namesSessionIn .capturing).and hnot).conseq (fun _ h => h) (fun _ _ h => h) fun _ _ h => h

/-- However the capture ends, the manifest is not ready before its files are complete. -/
theorem readyIsComplete_captureInto (hseparate : outputPaths.AreSeparate) {w w' : World}
    {r : Except Stop Unit}
    (harrives : ∀ opened w₁, openSummary config outputPaths events w = (.ok opened, w₁) →
      ∀ reached, w₁.fault 0 = .unnoticed reached →
        (JsonText.dump summary ++ [newline]).length ≤ reached)
    (hnew : ∀ content, w.tree.get? outputPaths.stateJsonPath.locate ≠ some (.file content))
    (hrun : captureInto config outputPaths events summary w = (r, w')) :
    ReadyIsComplete config outputPaths events summary w'.tree := by
  have hbegun : IsBegun config outputPaths w.tree :=
    ⟨fun content value hget => absurd hget (hnew content),
      fun content value hget => absurd hget (hnew content)⟩
  rw [captureInto_eq] at hrun
  cases hopen : openSummary config outputPaths events w with
  | mk r₁ w₁ =>
      have hbegun₁ : IsBegun config outputPaths w₁.tree := by
        have hfinal := (keeps_openSummary hseparate dependsOn_isBegun keeps_isBegun
          events).final hbegun
        rwa [hopen] at hfinal
      cases r₁ with
      | error e =>
          rw [bind_error hopen] at hrun
          cases hrun
          exact hbegun₁.readyIsComplete
      | ok opened =>
          rw [bind_ok hopen] at hrun
          obtain ⟨heventLog, hopened⟩ :=
            (triple_openSummary hseparate.eventLog_ne_summary).apply_ok True.intro hopen
          cases hfinish : finishSummary outputPaths summary opened w₁ with
          | mk r₂ w₂ =>
              have hbegun₂ : IsBegun config outputPaths w₂.tree := by
                have hfinal := (keeps_finishSummary hseparate dependsOn_isBegun
                  (fun l hl => (hopened l hl).1) summary).final hbegun₁
                rwa [hfinish] at hfinal
              cases r₂ with
              | error e =>
                  rw [bind_error hfinish] at hrun
                  cases hrun
                  exact hbegun₂.readyIsComplete
              | ok _ =>
                  rw [bind_ok hfinish] at hrun
                  cases opened with
                  | none => cases hfinish
                  | some l =>
                      obtain ⟨rfl, hsummary⟩ := hopened l rfl
                      have hcomplete : outputPaths.HaveArtifacts events summary w₂.tree :=
                        (triple_finishSummary hseparate.eventLog_ne_summary).apply_ok
                          ⟨⟨heventLog, hsummary⟩, harrives _ _ hopen⟩ hfinish
                      have hfinal := (keeps_haveArtifacts hseparate config .readyToUpload
                        fun _ stateJson => stateJson).final hcomplete
                      have hnames := (keeps_namesSessionIn .readyToUpload).final hbegun₂.1
                      rw [← writeArtifactState] at hfinal
                      rw [hrun] at hfinal hnames
                      exact ⟨hnames, Or.inr hfinal⟩

/-! ### Whole runs -/

/-- There is no file at the location. -/
def LacksFileAt (l : Location) (t : Tree) : Prop := ∀ content, t.get? l ≠ some (.file content)

/-- After the four operations of the first manifest, the opening of the event log, the write of
each event, the close, and the opening of the summary, the summary is written. If this meets a
fault that goes unnoticed, then all its bytes have arrived. -/
def SummaryArrives (outcome : SessionOutcome) (w : World) : Prop :=
  ∀ summary reached, outcome.ending = .ok summary →
    w.fault (outcome.events.length + 7) = .unnoticed reached →
      (JsonText.dump summary ++ [newline]).length ≤ reached

/-- The event log that the manifest names has the line of every event, and the summary that it
names is complete. -/
structure NamesComplete (t : Tree) (stateJsonPath : Path) (events : List Json) (summary : Json) :
    Prop where
  eventLog : ∃ p, Names t stateJsonPath "event_log" p ∧ HasFile p (eventText events) t
  summary : ∃ p, Names t stateJsonPath "summary_json" p ∧
    HasFile p (JsonText.dump summary ++ [newline]) t

theorem ReadyIsComplete.namesComplete {t : Tree}
    (h : ReadyIsComplete config outputPaths events summary t)
    (hready : SaysReady t outputPaths.stateJsonPath) :
    NamesComplete t outputPaths.stateJsonPath events summary := by
  obtain ⟨hnames, hcomplete⟩ := h
  obtain ⟨heventLog, hsummary⟩ := hcomplete.resolve_left fun hnot => hnot.not_saysReady hready
  obtain ⟨value, ⟨content, hfind, hparse⟩, -⟩ := hready
  have hfiles : NamesFiles t outputPaths := ⟨value, ⟨content, hfind, hparse⟩,
    (hnames content value (find_eq_some_iff.mp hfind).2 hparse).files⟩
  exact ⟨⟨_, hfiles.names (find_filesMember "event_log"), heventLog⟩,
    ⟨_, hfiles.names (find_filesMember "summary_json"), hsummary⟩⟩

/-- A session that ends with an exception has a manifest that is not ready. -/
theorem keeps_isBegun_captureOutcome {outcome : SessionOutcome} {failure : Failure}
    (hseparate : outputPaths.AreSeparate) (hending : outcome.ending = .error failure) :
    Keeps (OnTree (IsBegun config outputPaths)) (captureOutcome config outputPaths outcome) := by
  have hdepends : DependsOn outputPaths.stateJsonPath.locate (IsBegun config outputPaths) :=
    dependsOn_isBegun
  have hevent := hdepends.ignores hseparate.state_ne_eventLog
  unfold captureOutcome
  rw [hending]
  apply Keeps.bind keeps_isBegun
  intro _
  refine Triple.bind (triple_openEventLog hevent) fun stream => ?_
  apply Triple.of_pre
  intro hlocation
  obtain ⟨l, good⟩ := stream
  obtain rfl : l = outputPaths.eventLogPath.locate := hlocation
  exact Keeps.bind (keeps_writeEventLines hevent outcome.events good) fun _ => Keeps.throw _

/-- However a capture ends, whether it returns, throws or is cut short: when its manifest says
that the session is ready, the session has ended with a summary, and the files that the manifest
names are complete. -/
theorem namesComplete_run {currentDir : CurrentDir} {request : Request} {w w₁ w' : World}
    {outcome : SessionOutcome} {r : Except Stop Unit}
    (haccepted : request.IsAccepted currentDir w outputPaths w₁)
    (hnew : LacksFileAt outputPaths.stateJsonPath.locate w₁.tree)
    (hseparate : outputPaths.AreSeparate) (harrives : SummaryArrives outcome w₁)
    (hrun : captureOutcome request.config outputPaths outcome w₁ = (r, w'))
    (hready : SaysReady w'.tree outputPaths.stateJsonPath) :
    ∃ summary, outcome.ending = .ok summary ∧
      NamesComplete w'.tree outputPaths.stateJsonPath outcome.events summary := by
  obtain ⟨-, -, -, hreach, hdir⟩ := (triple_prepareOutputPaths w.tree currentDir request.config
    request.eventLogOverride request.summaryJsonOverride).apply_ok rfl haccepted
  have hstate := (isPrepared_of_isAccepted haccepted).stateJsonPath
  cases hending : outcome.ending with
  | error failure =>
      have hbegun : IsBegun request.config outputPaths w₁.tree :=
        ⟨fun content value hget => absurd hget (hnew content),
          fun content value hget => absurd hget (hnew content)⟩
      have hfinal := (keeps_isBegun_captureOutcome hseparate hending).final hbegun
      rw [hrun] at hfinal
      exact absurd hready hfinal.2.not_saysReady
  | ok summary =>
      rw [captureOutcome_of_ok hending] at hrun
      refine ⟨summary, rfl, (readyIsComplete_captureInto hseparate ?_ hnew hrun).namesComplete
        hready⟩
      intro opened w₂ hopen reached hfault
      have hfaults := faults_of_openSummary hstate hreach hdir hnew hopen
      have hsame : w₂.fault 0 = w₁.fault (outcome.events.length + 7) := by
        rw [World.fault, hfaults, List.getD_eq_getElem?_getD, List.getElem?_drop]
        rfl
      exact harrives summary reached hending (hsame.symm.trans hfault)

/-- The path that a manifest names is what is read from it. -/
theorem Names.bytes_eq {t : Tree} {path p : Path} {key : String} (h : Names t path key p) :
    ((valueAt t path).bind fun value => value.find "files").map
      (fun files => jsonStringOrEmpty files key) = some p.bytes := by
  obtain ⟨value, files, hvalue, hfiles, hkey⟩ := h
  rw [valueAt_of_holds hvalue, Option.bind_some, hfiles, Option.map_some, jsonStringOrEmpty, hkey]

theorem saysReady_of_valueAt {t : Tree} {p : Path}
    (h : (valueAt t p).map (fun value => jsonStringOrEmpty value "state") =
      some (artifactStateName .readyToUpload)) : SaysReady t p := by
  obtain ⟨value, hvalue, hstate⟩ := Option.map_eq_some_iff.mp h
  refine ⟨value, holds_of_valueAt hvalue, ?_⟩
  unfold jsonStringOrEmpty at hstate
  split at hstate
  · next text hfind =>
      rw [hfind, hstate]
      rfl
  · cases hstate

end Ready

section Sample

def finishedEvent : Json := Json.obj [("event_type", Json.text "session_finished")]

/-- The victim prepares its session; later operations meet the faults. -/
def preparedVictim (faults : List Fault) : Except Stop OutputPaths × World :=
  prepareOutputPaths rootDir victimConfig none none
    { quietWorld .empty [⟨"t0", 0⟩, ⟨"t1", 1⟩] with faults := faults }

/-- A session that logs its end and has an empty summary. -/
def finishedOutcome : SessionOutcome where
  events := [finishedEvent]
  ending := .ok (.object [])

def victimRun (faults : List Fault) : Except Stop Unit × World :=
  captureOutcome victimRequest.config victimPaths finishedOutcome (preparedVictim faults).2

theorem isAccepted_preparedVictim {faults : List Fault}
    (hok : (preparedVictim faults).1 = .ok victimPaths) :
    victimRequest.IsAccepted rootDir
      { quietWorld .empty [⟨"t0", 0⟩, ⟨"t1", 1⟩] with faults := faults } victimPaths
      (preparedVictim faults).2 := Prod.ext hok rfl

theorem lacksFileAt_of_get? {t : Tree} {l : Location} (h : t.get? l = none) : LacksFileAt l t := by
  intro content hget
  rw [h] at hget
  cases hget

theorem areSeparate_victimPaths : victimPaths.AreSeparate :=
  ⟨by decide, by decide, by decide⟩

theorem namesComplete_run_victim :
    ∃ summary, finishedOutcome.ending = .ok summary ∧
      NamesComplete (victimRun []).2.tree victimPaths.stateJsonPath finishedOutcome.events
        summary := by
  have haccepted := isAccepted_preparedVictim (by decide +kernel :
    (preparedVictim []).1 = .ok victimPaths)
  have hnew : LacksFileAt victimPaths.stateJsonPath.locate (preparedVictim []).2.tree :=
    lacksFileAt_of_get? (by decide +kernel)
  have harrives : SummaryArrives finishedOutcome (preparedVictim []).2 := by
    have hfault : (preparedVictim []).2.fault 8 = .none := by decide +kernel
    intro summary reached _ hunnoticed
    cases hfault.symm.trans hunnoticed
  have hready : SaysReady (victimRun []).2.tree victimPaths.stateJsonPath :=
    saysReady_of_valueAt (by decide +kernel)
  exact namesComplete_run haccepted hnew areSeparate_victimPaths harrives
    (Prod.mk.eta (p := victimRun [])).symm hready

/-- The faults of a run that loses its summary when the stream is destroyed. -/
def lostSummary : List Fault := List.replicate 13 .none ++ [.unnoticed 0]

/-- The capture returns and the manifest says that the session is ready, but its summary is
empty. -/
theorem not_namesComplete_lostSummary :
    victimRequest.IsAccepted rootDir
        { quietWorld .empty [⟨"t0", 0⟩, ⟨"t1", 1⟩] with faults := lostSummary } victimPaths
        (preparedVictim lostSummary).2 ∧
      (victimRun lostSummary).1 = .ok () ∧
      SaysReady (victimRun lostSummary).2.tree victimPaths.stateJsonPath ∧
      ¬ ∃ summary, finishedOutcome.ending = .ok summary ∧
        NamesComplete (victimRun lostSummary).2.tree victimPaths.stateJsonPath
          finishedOutcome.events summary := by
  have haccepted := isAccepted_preparedVictim (by decide +kernel :
    (preparedVictim lostSummary).1 = .ok victimPaths)
  have hready : SaysReady (victimRun lostSummary).2.tree victimPaths.stateJsonPath :=
    saysReady_of_valueAt (by decide +kernel)
  have hempty : find (victimRun lostSummary).2.tree victimPaths.summaryJsonPath =
      some (.file []) := by decide +kernel
  refine ⟨haccepted, by decide +kernel, hready, ?_⟩
  rintro ⟨summary, -, -, p, hp, hfile⟩
  have hbytes : some p.bytes = some victimPaths.summaryJsonPath.bytes :=
    hp.bytes_eq.symm.trans (by decide +kernel)
  have hvictim : p = victimPaths.summaryJsonPath :=
    congrArg Path.mk (Option.some.inj hbytes)
  rw [hvictim, HasFile, hempty] at hfile
  simp at hfile

end Sample

end BtClient
