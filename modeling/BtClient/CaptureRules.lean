import BtClient.CaptureSession
import BtClient.ArtifactRules

/-!
# What a capture does to the file system

The checks before a session, and the paths that it gets.
-/

namespace BtClient

open Effect FileSystem

/-- The checks of `prepare_output_paths`: nothing is archived under the name, and the
directory of the session is new or empty. -/
def requireNewSession (artifactDir archiveDir : Path) : Action Unit := do
  if ← pathExists archiveDir then
    throwFailure (.runtimeError ("archive artifact directory already exists: " ++
      archiveDir.bytes ++ "; choose a different --session-id"))
  else if ← pathExists artifactDir then
    if !(← isDirectory artifactDir) then
      throwFailure (.runtimeError
        ("artifact path exists but is not a directory: " ++ artifactDir.bytes))
    else if !(← isEmptyDirectory artifactDir) then
      throwFailure (.runtimeError
        ("artifact directory already exists and is not empty: " ++ artifactDir.bytes ++
          "; choose a different --session-id or resolve the pending artifacts"))
    else pure ()
  else pure ()

/-- The path of an output: the one of the command line or the usual one. -/
def outputPath (currentDir : CurrentDir) (override : Option Path) (usual : Path) : Action Path :=
  match override with
  | some path => absolutePath currentDir path
  | none => pure usual

theorem prepareOutputPaths_eq (currentDir : CurrentDir) (config : RuntimeConfig)
    (eventLogOverride summaryJsonOverride : Option Path) :
    prepareOutputPaths currentDir config eventLogOverride summaryJsonOverride = (do
      let artifactDir ← absolutePath currentDir
        (config.artifactsDir / "pending" / (⟨config.sessionId⟩ : Path))
      let archiveDir ← absolutePath currentDir
        (config.artifactsDir / "archive" / (⟨config.sessionId⟩ : Path))
      requireNewSession artifactDir archiveDir
      createDirectories artifactDir
      let eventLogPath ← outputPath currentDir eventLogOverride
        (artifactDir / "session_events.ndjson")
      let summaryJsonPath ← outputPath currentDir summaryJsonOverride
        (artifactDir / "session_summary.json")
      ensureParentDirectory eventLogPath
      ensureParentDirectory summaryJsonPath
      pure ⟨artifactDir, artifactDir / "state.json", eventLogPath, summaryJsonPath⟩) := by
  unfold prepareOutputPaths requireNewSession outputPath
  refine bind_congr fun artifactDir => bind_congr fun archiveDir => ?_
  rw [bind_assoc]
  refine bind_congr fun archived => ?_
  cases archived with
  | true => rfl
  | false =>
      dsimp only
      rw [if_neg Bool.false_ne_true, if_neg Bool.false_ne_true, bind_assoc]
      refine bind_congr fun found => ?_
      cases found with
      | false =>
          rw [if_neg Bool.false_ne_true, if_neg Bool.false_ne_true]
          cases eventLogOverride <;> cases summaryJsonOverride <;> rfl
      | true =>
          rw [if_pos rfl, if_pos rfl, bind_assoc]
          refine bind_congr fun directory => ?_
          cases directory with
          | false => rfl
          | true =>
              rw [if_neg (by decide), if_neg (by decide), bind_assoc]
              refine bind_congr fun empty => ?_
              cases empty with
              | false => rfl
              | true => cases eventLogOverride <;> cases summaryJsonOverride <;> rfl

/-! ### What the checks say -/

theorem triple_pathExists (t : Tree) (p : Path) :
    Triple (OnTree (· = t)) (pathExists p)
      (fun found w => OnTree (· = t) w ∧ found = (find t p).isSome) (fun _ => OnTree (· = t)) := by
  apply Triple.bind (readsOnly_checkpoint t)
  intro _
  apply Triple.bind (triple_tree.conseq (fun _ h => h) (fun _ _ h => h) fun _ _ h => h.elim)
  intro t'
  apply Triple.pure
  rintro w ⟨rfl, rfl⟩
  exact ⟨rfl, rfl⟩

theorem triple_isDirectory (t : Tree) (p : Path) :
    Triple (OnTree (· = t)) (isDirectory p)
      (fun directory w => OnTree (· = t) w ∧ directory = decide (find t p = some .dir))
      (fun _ => OnTree (· = t)) := by
  apply Triple.bind (readsOnly_checkpoint t)
  intro _
  apply Triple.bind (triple_tree.conseq (fun _ h => h) (fun _ _ h => h) fun _ _ h => h.elim)
  intro t'
  apply Triple.pure
  rintro w ⟨rfl, rfl⟩
  exact ⟨rfl, rfl⟩

theorem triple_isEmptyDirectory (t : Tree) (p : Path) :
    Triple (OnTree (· = t)) (isEmptyDirectory p)
      (fun empty w => OnTree (· = t) w ∧ (empty = true → t.children p.locate = []))
      (fun _ => OnTree (· = t)) := by
  apply Triple.bind (readsOnly_checkpoint t)
  intro _
  apply Triple.bind (triple_tree.conseq (fun _ h => h) (fun _ _ h => h) fun _ _ h => h.elim)
  intro t'
  split
  · next l hl =>
      obtain ⟨rfl, -⟩ := resolve_eq_some_iff.mp hl
      apply Triple.pure
      rintro w ⟨rfl, rfl⟩
      exact ⟨rfl, List.isEmpty_iff.mp⟩
  · apply Triple.throw
    rintro w ⟨rfl, rfl⟩
    rfl

/-- The session is new: nothing is archived under its name, and its directory is not
there or empty. -/
structure IsNewSession (t : Tree) (artifactDir archiveDir : Path) : Prop where
  archive : find t archiveDir = none
  pending : find t artifactDir = none ∨
    (find t artifactDir = some .dir ∧ t.children artifactDir.locate = [])

theorem readsOnly_requireNewSession (artifactDir archiveDir : Path) :
    ReadsOnly (requireNewSession artifactDir archiveDir) := by
  apply ReadsOnly.bind (readsOnly_pathExists archiveDir)
  intro archived
  split
  · exact ReadsOnly.throwFailure _
  apply ReadsOnly.bind (readsOnly_pathExists artifactDir)
  intro found
  split
  · apply ReadsOnly.bind (readsOnly_isDirectory artifactDir)
    intro directory
    split
    · exact ReadsOnly.throwFailure _
    apply ReadsOnly.bind (readsOnly_isEmptyDirectory artifactDir)
    intro empty
    split
    · exact ReadsOnly.throwFailure _
    · exact ReadsOnly.pure _
  · exact ReadsOnly.pure _

theorem triple_requireNewSession (t : Tree) (artifactDir archiveDir : Path) :
    Triple (OnTree (· = t)) (requireNewSession artifactDir archiveDir)
      (fun _ w => OnTree (· = t) w ∧ IsNewSession t artifactDir archiveDir)
      (fun _ => OnTree (· = t)) := by
  unfold requireNewSession
  apply Triple.bind (triple_pathExists t archiveDir)
  intro archived
  apply Triple.of_pre
  intro harchived
  apply Triple.ite
  · exact fun _ => Triple.throw fun w hw => hw
  intro hfree
  have harchive : find t archiveDir = none := by simpa [harchived] using hfree
  apply Triple.bind (triple_pathExists t artifactDir)
  intro found
  apply Triple.of_pre
  intro hfound
  apply Triple.ite
  · intro _
    apply Triple.bind (triple_isDirectory t artifactDir)
    intro directory
    apply Triple.of_pre
    intro hdirectory
    apply Triple.ite
    · exact fun _ => Triple.throw fun w hw => hw
    intro hdir
    apply Triple.bind (triple_isEmptyDirectory t artifactDir)
    intro empty
    apply Triple.of_pre
    intro hempty
    apply Triple.ite
    · exact fun _ => Triple.throw fun w hw => hw
    · intro hnil
      apply Triple.pure
      intro w hw
      exact ⟨hw, harchive, Or.inr ⟨by simpa [hdirectory] using hdir, hempty (by simpa using hnil)⟩⟩
  · intro habsent
    apply Triple.pure
    intro w hw
    exact ⟨hw, harchive, Or.inl (by simpa [hfound] using habsent)⟩

/-! ### What the paths are -/

/-- The path of an output is the one of the command line, made absolute, or the usual one. -/
def IsOutputPath (currentDir : CurrentDir) (override : Option Path) (usual p : Path) : Prop :=
  match override with
  | some path => Path.absolute currentDir path = some p
  | none => p = usual

theorem IsOutputPath.isAbsolute {currentDir : CurrentDir} {override : Option Path}
    {usual p : Path} (h : IsOutputPath currentDir override usual p)
    (husual : usual.isAbsolute = true) : p.isAbsolute = true := by
  cases override with
  | none =>
      obtain rfl : p = usual := h
      exact husual
  | some path => exact Path.isAbsolute_of_absolute currentDir.2 h

theorem triple_absolutePath (t : Tree) (currentDir : CurrentDir) (p : Path) :
    Triple (OnTree (· = t)) (absolutePath currentDir p)
      (fun q w => OnTree (· = t) w ∧ Path.absolute currentDir p = some q)
      (fun _ => OnTree (· = t)) := by
  unfold absolutePath
  cases Path.absolute currentDir p with
  | none => exact Triple.throw fun w hw => hw
  | some q => exact Triple.pure fun w hw => ⟨hw, rfl⟩

theorem triple_outputPath (t : Tree) (currentDir : CurrentDir) (override : Option Path)
    (usual : Path) :
    Triple (OnTree (· = t)) (outputPath currentDir override usual)
      (fun p w => OnTree (· = t) w ∧ IsOutputPath currentDir override usual p)
      (fun _ => OnTree (· = t)) := by
  cases override with
  | none => exact Triple.pure fun w hw => ⟨hw, rfl⟩
  | some path => exact triple_absolutePath t currentDir path

/-- The paths that a session gets. -/
structure IsPrepared (currentDir : CurrentDir) (config : RuntimeConfig)
    (eventLogOverride summaryJsonOverride : Option Path) (outputPaths : OutputPaths) : Prop where
  artifactDir : Path.absolute currentDir
    (config.artifactsDir / "pending" / (⟨config.sessionId⟩ : Path)) = some outputPaths.artifactDir
  stateJsonPath : outputPaths.stateJsonPath = outputPaths.artifactDir / "state.json"
  eventLogPath : IsOutputPath currentDir eventLogOverride
    (outputPaths.artifactDir / "session_events.ndjson") outputPaths.eventLogPath
  summaryJsonPath : IsOutputPath currentDir summaryJsonOverride
    (outputPaths.artifactDir / "session_summary.json") outputPaths.summaryJsonPath

theorem triple_prepareOutputPaths (t : Tree) (currentDir : CurrentDir) (config : RuntimeConfig)
    (eventLogOverride summaryJsonOverride : Option Path) :
    Triple (OnTree (· = t))
      (prepareOutputPaths currentDir config eventLogOverride summaryJsonOverride)
      (fun outputPaths => OnTree fun t' =>
        IsPrepared currentDir config eventLogOverride summaryJsonOverride outputPaths ∧
          (∃ archiveDir, Path.absolute currentDir
            (config.artifactsDir / "archive" / (⟨config.sessionId⟩ : Path)) = some archiveDir ∧
              IsNewSession t outputPaths.artifactDir archiveDir) ∧
            Extends t t' ∧ Reaches t' outputPaths.artifactDir ∧
              t'.isDir outputPaths.artifactDir.locate)
      (fun _ => OnTree (Extends t)) := by
  rw [prepareOutputPaths_eq]
  have hsame : ∀ {α : Type} {m : Action α} {t₁ : Tree} {Q : α → World → Prop},
      Extends t t₁ → Triple (OnTree (· = t₁)) m Q (fun _ => OnTree (· = t₁)) →
        Triple (OnTree (· = t₁)) m Q (fun _ => OnTree (Extends t)) :=
    fun hext hm => hm.conseq (fun _ h => h) (fun _ _ h => h) fun _ _ h => onTree_of_eq h hext
  refine Triple.bind (hsame (Extends.refl t) (triple_absolutePath t currentDir _)) ?_
  intro artifactDir
  apply Triple.of_pre
  intro hartifactDir
  refine Triple.bind (hsame (Extends.refl t) (triple_absolutePath t currentDir _)) ?_
  intro archiveDir
  apply Triple.of_pre
  intro harchiveDir
  refine Triple.bind (hsame (Extends.refl t) (triple_requireNewSession t _ _)) ?_
  intro _
  apply Triple.of_pre
  intro hnew
  apply Triple.bind (createDirectories_extends t artifactDir)
  intro _
  apply triple_onTree
  rintro t₁ ⟨hext, hreach, hdir⟩
  refine Triple.bind (hsame hext (triple_outputPath t₁ currentDir eventLogOverride _)) ?_
  intro eventLogPath
  apply Triple.of_pre
  intro heventLog
  refine Triple.bind (hsame hext (triple_outputPath t₁ currentDir summaryJsonOverride _)) ?_
  intro summaryJsonPath
  apply Triple.of_pre
  intro hsummary
  refine Triple.bind ((triple_ensureParentDirectory t₁ eventLogPath).conseq (fun _ h => h)
    (fun _ _ h => h) fun _ _ h => hext.trans h) ?_
  intro _
  apply triple_onTree
  intro t₂ hext₂
  refine Triple.bind ((triple_ensureParentDirectory t₂ summaryJsonPath).conseq (fun _ h => h)
    (fun _ _ h => h) fun _ _ h => (hext.trans hext₂).trans h) ?_
  intro _
  apply Triple.pure
  intro w hext₃
  have hmore := hext₂.trans hext₃
  exact ⟨⟨hartifactDir, rfl, heventLog, hsummary⟩, ⟨archiveDir, harchiveDir, hnew⟩,
    hext.trans hmore, hmore.reaches hreach, hmore.isDir hdir⟩

/-! ### What the capture of a session keeps -/

section Keeps

variable {outputPaths : OutputPaths} {I : Tree → Prop}

theorem triple_openEventLog (h : Ignores outputPaths.eventLogPath.locate I) :
    Triple (OnTree I) (openEventLog outputPaths)
      (fun stream w => OnTree I w ∧ stream.location = outputPaths.eventLogPath.locate)
      (fun _ => OnTree I) := by
  refine Triple.bind (triple_openTruncated_of_ignores h) fun opened => ?_
  apply Triple.of_pre
  intro hopened
  cases opened with
  | none => exact Triple.throw fun _ h => h
  | some l => exact Triple.pure fun w hw => ⟨hw, hopened l rfl⟩

theorem readsOnly_closeEventLog (stream : EventStream) :
    ReadsOnly (closeEventLog outputPaths stream) := by
  apply ReadsOnly.bind readsOnly_closeStream
  intro closed
  split
  · exact ReadsOnly.pure _
  · exact ReadsOnly.throwFailure _

variable [JsonText]

theorem readsOnly_dump (value : Json) : ReadsOnly (dump value) := by
  unfold dump
  split
  · exact ReadsOnly.pure _
  · exact ReadsOnly.throwFailure _

theorem keeps_writeEventLines {l : Location} (h : Ignores l I) (events : List Json)
    (good : Bool) : Keeps (OnTree I) (writeEventLines ⟨l, good⟩ events) := by
  induction events generalizing good with
  | nil => exact Keeps.pure _
  | cons event rest ih =>
      rw [writeEventLines, writeEventLine, bind_assoc]
      apply Keeps.bind ((readsOnly_dump event).keeps I)
      intro text
      cases good with
      | false => exact ih false
      | true =>
          rw [if_pos rfl, bind_assoc]
          exact Keeps.bind (keeps_writeFlushed h _) fun good => ih good

theorem keeps_writeSessionSummary (h : Ignores outputPaths.summaryJsonPath.locate I)
    (summary : Json) : Keeps (OnTree I) (writeSessionSummary outputPaths summary) := by
  refine Triple.bind (triple_openTruncated_of_ignores h) fun opened => ?_
  apply Triple.of_pre
  intro hopened
  cases opened with
  | none => exact Keeps.throw _
  | some l =>
      obtain rfl := hopened l rfl
      apply Keeps.bind ((readsOnly_dump summary).keeps I)
      intro text
      apply Keeps.bind (keeps_writeBuffered h _)
      intro good
      split
      · exact Keeps.pure _
      · exact Keeps.throw _

end Keeps

end BtClient
