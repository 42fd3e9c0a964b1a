import BtClient.LaterRuns
import BtClient.NoticedFaults

/-!
# What the exit codes say

A run with a torrent source that returns 0 has captured its session: the event log has the line
of every event, the summary is complete, and with a destination the session has been accepted
there and is in the archive. No later run loses this.
-/

namespace BtClient

open Effect FileSystem

section Uploads

variable {config : RuntimeConfig} {outputPaths : OutputPaths}

variable [JsonText] {base : Path} {r : SessionRecords} {currentDir : CurrentDir}

/-- Archiving takes the records along. -/
theorem triple_archiveArtifactSession_records (hbase : IsBase currentDir config base)
    (hpending : IsPendingAt base r.name outputPaths) :
    Triple (OnTree (HasRecords (base / "pending").locate r))
      (archiveArtifactSession currentDir config outputPaths)
      (fun _ => OnTree (HasRecords (base / "archive").locate r)) (fun _ _ => True) := by
  rw [archiveArtifactSession_eq]
  apply triple_onTree
  intro t hrecords
  refine Triple.bind (S := fun archived w => OnTree (HasRecords (base / "archive").locate r) w ∧
    archived = .inDirectory (base / "archive" / (⟨r.name⟩ : Path))) ?_ fun archived => ?_
  · refine (triple_moveToArchive currentDir t config outputPaths).conseq (fun _ h => h) ?_
      fun _ _ _ => True.intro
    rintro archived w ⟨archiveRoot, hroot, rfl, hmoved⟩
    obtain rfl : archiveRoot = base / "archive" :=
      Option.some.inj (hroot.symm.trans hbase.archive)
    rw [hpending.filename] at hmoved ⊢
    have hplace : (OutputPaths.inDirectory
        (base / "archive" / (⟨r.name⟩ : Path))).artifactDir.locate =
          (base / "archive").locate ++ [r.name] := Path.locate_join_name _ hpending.isName
    rw [hpending.locate, hplace] at hmoved
    exact ⟨⟨hmoved.get?_append hrecords.eventLog, hmoved.get?_append hrecords.summary⟩, rfl⟩
  · apply Triple.of_pre
    rintro rfl
    have hplace : (OutputPaths.inDirectory
        (base / "archive" / (⟨r.name⟩ : Path))).stateJsonPath.locate =
          (base / "archive" / (⟨r.name⟩ : Path)).locate ++ [ByteString.ofString "state.json"] :=
      Path.locate_join_name _ (by decide)
    have hignores : Ignores (OutputPaths.inDirectory
        (base / "archive" / (⟨r.name⟩ : Path))).stateJsonPath.locate
          (HasRecords (base / "archive").locate r) := by
      rw [hplace]
      exact ignores_hasRecords (append_singleton_ne (by decide)) (append_singleton_ne (by decide))
    have hkeeps := keeps_rewriteState_of_stable (stable_hasRecords (base / "archive").locate)
      hignores config .archived fun _ stateJson => stateJson
    exact Triple.bind (hkeeps.conseq (fun _ h => h) (fun _ _ h => h) fun _ _ _ => True.intro)
      fun _ => Triple.pure fun _ h => h

end Uploads

/-! ### The capture -/

section Capture

variable [JsonText] {config : RuntimeConfig} {outputPaths : OutputPaths}
  {outcome : SessionOutcome}

/-- A capture that returns has written everything, if every lost write is noticed. -/
theorem triple_captureOutcome_haveArtifacts (hseparate : outputPaths.AreSeparate) :
    Triple World.Notices (captureOutcome config outputPaths outcome)
      (fun _ => OnTree fun t => ∃ summary, outcome.ending = .ok summary ∧
        outputPaths.HaveArtifacts outcome.events summary t)
      (fun _ _ => True) := by
  cases hending : outcome.ending with
  | error failure =>
      exact (triple_captureOutcome_of_error hending _).conseq (fun _ _ => True.intro)
        (fun _ _ h => h) fun _ _ h => h
  | ok summary =>
      rw [captureOutcome_of_ok hending, captureInto_eq]
      refine Triple.bind (S := fun opened w => w.Notices ∧ OnTree (fun t =>
        HasFile outputPaths.eventLogPath (eventText outcome.events) t ∧
          ∀ l, opened = some l → l = outputPaths.summaryJsonPath.locate ∧
            HasFile outputPaths.summaryJsonPath [] t) w) ?_ fun opened => ?_
      · exact ((keepsNotices_openSummary config outputPaths outcome.events).and
          (triple_openSummary hseparate.eventLog_ne_summary)).conseq
            (fun _ h => ⟨h, True.intro⟩) (fun _ _ h => h) fun _ _ _ => True.intro
      · refine Triple.bind (S := fun _ =>
          OnTree (outputPaths.HaveArtifacts outcome.events summary)) ?_ fun _ => ?_
        · cases opened with
          | none => exact Triple.throw fun _ _ => True.intro
          | some l =>
              rintro w ⟨hnotices, heventLog, hopened⟩
              obtain ⟨rfl, hsummary⟩ := hopened l rfl
              refine triple_finishSummary hseparate.eventLog_ne_summary w
                ⟨⟨heventLog, hsummary⟩, fun reached hfault => ?_⟩
              exact absurd hfault (hnotices.fault_ne 0 reached)
        · refine (keeps_haveArtifacts hseparate config .readyToUpload
            fun _ stateJson => stateJson).conseq (fun _ h => h) (fun _ w h => ?_)
              fun _ _ _ => True.intro
          exact ⟨summary, rfl, h⟩

/-- A capture that returns has dumped its summary. -/
theorem triple_captureOutcome_isUtf8 :
    Triple (fun _ => True) (captureOutcome config outputPaths outcome)
      (fun _ _ => ∀ summary, outcome.ending = .ok summary → summary.isUtf8 = true)
      (fun _ _ => True) := by
  cases hending : outcome.ending with
  | error failure => exact triple_captureOutcome_of_error hending _
  | ok summary =>
      by_cases hutf8 : summary.isUtf8 = true
      · refine Triple.trivial.conseq (fun _ _ => True.intro) (fun _ _ _ summary' heq => ?_)
          fun _ _ _ => True.intro
        cases heq
        exact hutf8
      · rw [captureOutcome_of_ok hending, captureInto_eq]
        refine Triple.bind (S := fun _ _ => True) Triple.trivial fun opened => ?_
        refine Triple.bind (S := fun _ _ => False) ?_ fun _ _ hfalse => hfalse.elim
        cases opened with
        | none => exact Triple.throw fun _ _ => True.intro
        | some l =>
            unfold finishSummary dump
            dsimp only
            rw [if_neg hutf8]
            exact Triple.throw fun _ _ => True.intro

end Capture

/-! ### The session of a run -/

/-- The usual paths of a session. -/
def sessionPaths (base : Path) (config : RuntimeConfig) : OutputPaths :=
  .inDirectory (base / "pending" / (⟨config.sessionId⟩ : Path))

section Session

variable [JsonText] {base : Path} {config : RuntimeConfig} {m : ByteString}
  {currentDir : CurrentDir}

/-- These are the complete records of the session that the process runs. -/
structure IsRecordOf (process : Process) (base : Path) (config : RuntimeConfig)
    (r : SessionRecords) : Prop where
  single : IsSingleName config.sessionId r.name
  eventLog : r.eventLog = eventText (process.session config (sessionPaths base config)).events
  summary : ∃ summary, (process.session config (sessionPaths base config)).ending = .ok summary ∧
    summary.isUtf8 = true ∧ r.summary = JsonText.dump summary ++ [newline]

omit [JsonText] in
/-- Without a destination the records are pending; with one they have been accepted there and
are in the archive. -/
structure IsDelivered (process : Process) (base : Path) (config : RuntimeConfig)
    (r : SessionRecords) (t : Tree) : Prop where
  unsent : config.destinationUrl = [] → HasRecords (base / "pending").locate r t
  sent : config.destinationUrl ≠ [] → HasRecords (base / "archive").locate r t ∧
    process.network.Accepts config.destinationUrl
      (artifactForm config (sessionPaths base config))

omit [JsonText] in
theorem eq_sessionPaths {outputPaths : OutputPaths} (hbase : IsBase currentDir config base)
    (hprepared : IsPrepared currentDir config none none outputPaths) :
    outputPaths = sessionPaths base config := by
  obtain ⟨artifactDir, stateJsonPath, eventLogPath, summaryJsonPath⟩ := outputPaths
  obtain ⟨hdir, hstate, heventLog, hsummary⟩ := hprepared
  obtain rfl : artifactDir = base / "pending" / (⟨config.sessionId⟩ : Path) :=
    Option.some.inj (hdir.symm.trans (Path.absolute_join hbase.pending _))
  dsimp only [IsOutputPath] at hstate heventLog hsummary
  rw [hstate, heventLog, hsummary]
  rfl

omit [JsonText] in
theorem areSeparate_inDirectory (p : Path) : (OutputPaths.inDirectory p).AreSeparate := by
  have hlocate : ∀ {name : ByteString}, Path.IsName name →
      (p / (⟨name⟩ : Path)).locate = p.locate ++ [name] := fun h => Path.locate_join_name p h
  unfold OutputPaths.inDirectory
  refine ⟨?_, ?_, ?_⟩ <;> dsimp only
  · rw [hlocate (by decide), hlocate (by decide)]
    exact append_singleton_ne (by decide)
  · rw [hlocate (by decide), hlocate (by decide)]
    exact append_singleton_ne (by decide)
  · rw [hlocate (by decide), hlocate (by decide)]
    exact append_singleton_ne (by decide)

/-- Complete artifacts in the usual places are records. -/
theorem hasRecords_of_haveArtifacts (hid : IsSingleName config.sessionId m) {events : List Json}
    {summary : Json} {t : Tree}
    (h : (sessionPaths base config).HaveArtifacts events summary t) :
    HasRecords (base / "pending").locate
      ⟨m, eventText events, JsonText.dump summary ++ [newline]⟩ t := by
  have hplace : ∀ {name : ByteString}, Path.IsName name →
      (base / "pending" / (⟨config.sessionId⟩ : Path) / (⟨name⟩ : Path)).locate =
        (base / "pending").locate ++ [m] ++ [name] := by
    intro name hname
    rw [Path.locate_join_name _ hname, hid.locate_join]
  constructor
  · rw [← hplace (by decide)]
    exact (find_eq_some_iff.mp h.1).2
  · rw [← hplace (by decide)]
    exact (find_eq_some_iff.mp h.2).2

/-- When the upload of the session returns 0, the session has been delivered. -/
theorem triple_uploadSession_delivered {process : Process} {r : SessionRecords}
    (hbase : IsBase process.currentDir config base)
    (hpending : IsPendingAt base r.name (sessionPaths base config)) :
    Triple (OnTree (HasRecords (base / "pending").locate r))
      (uploadSession process.toSurroundings config (sessionPaths base config))
      (fun code w => (code = 0 ∧ IsDelivered process base config r w.tree) ∨ code = 3)
      (fun _ _ => True) := by
  unfold uploadSession
  apply Triple.ite
  · intro hempty
    refine Triple.pure fun w h => Or.inl ⟨rfl, fun _ => h, fun hne => ?_⟩
    exact absurd (List.isEmpty_iff.mp hempty) hne
  · intro hne
    have hdestination : config.destinationUrl ≠ [] := fun h => hne (h ▸ rfl)
    apply triple_catchFailure (S := fun _ _ => True)
    · refine Triple.bind (S := fun _ w => OnTree (HasRecords (base / "archive").locate r) w ∧
        process.network.Accepts config.destinationUrl
          (artifactForm config (sessionPaths base config))) ?_ fun _ => ?_
      · refine Triple.bind ((triple_sendOrRecordFailure_accepts process.toSurroundings _).conseq
          (fun _ h => h) (fun _ _ h => h) fun e _ _ => ?_) fun _ => ?_
        · cases e <;> exact True.intro
        · apply Triple.of_pre
          intro haccepts
          refine (triple_archiveArtifactSession_records hbase hpending).conseq (fun _ h => h)
            (fun _ _ h => ⟨h, haccepts⟩) fun e _ _ => ?_
          cases e <;> exact True.intro
      · exact Triple.pure fun w h =>
          Or.inl ⟨rfl, fun hempty => absurd hempty hdestination, fun _ => h⟩
    · exact fun _ => Triple.pure fun _ _ => Or.inr rfl

/-- What the code of a session that has been captured says. -/
def Outlasts (process : Process) (base : Path) (config : RuntimeConfig) (code : Int)
    (t : Tree) : Prop :=
  ∃ r, IsRecordOf process base config r ∧ Guarded base (.keeping r) t ∧
    ((code = 0 ∧ IsDelivered process base config r t) ∨ code = 3)

theorem triple_runSession_outlasts {process : Process} {arguments : Arguments}
    (heventLog : arguments.eventLogOverride = none)
    (hsummary : arguments.summaryJsonOverride = none) (hstraight : IsStraight base)
    (h : arguments.StaysApart process.currentDir base) :
    Triple (fun w => w.Notices ∧ OnTree (Guarded base .nothing) w) (runSession process arguments)
      (fun code => OnTree (Outlasts process base (process.identified arguments.config) code))
      (fun _ _ => True) := by
  have hbase : IsBase process.currentDir (process.identified arguments.config) base :=
    ⟨h.isBase.pending, h.isBase.archive⟩
  obtain ⟨m, hid⟩ := h.exists_isSingleName
  unfold runSession
  rw [heventLog, hsummary]
  generalize process.identified arguments.config = config at hbase hid ⊢
  dsimp only
  refine Triple.bind (S := fun outputPaths w => (w.Notices ∧ OnTree (Guarded base .nothing) w) ∧
    IsPrepared process.currentDir config none none outputPaths) ?_ fun outputPaths => ?_
  · exact ((keepsNotices_prepareOutputPaths process.currentDir config none none).and
      (triple_prepareOutputPaths_guarded hstraight hbase hid none none)).conseq (fun _ hw => hw)
        (fun _ _ hw => ⟨⟨hw.1, hw.2.1⟩, hw.2.2.2⟩) fun _ _ _ => True.intro
  apply Triple.of_pre
  intro hprepared
  have hpending := isPendingAt_of_isPrepared hbase hid hprepared
  have hother : ∀ r ∈ (∅ : Set SessionRecords), m ≠ r.name :=
    fun r hr => absurd hr (Set.notMem_empty r)
  have hlog : Ignores outputPaths.eventLogPath.locate (Guarded base .nothing) :=
    ignores_guarded_output hother hpending (by decide) (by decide) hprepared.eventLogPath
      (by simp)
  have hsum : Ignores outputPaths.summaryJsonPath.locate (Guarded base .nothing) :=
    ignores_guarded_output hother hpending (by decide) (by decide) hprepared.summaryJsonPath
      (by simp)
  have hcapture : Keeps (OnTree (Guarded base .nothing)) (captureOutcome config outputPaths
      (process.session config outputPaths)) :=
    keeps_captureOutcome_guarded hpending hlog hsum _
  obtain rfl := eq_sessionPaths hbase hprepared
  have hseparate : (sessionPaths base config).AreSeparate := areSeparate_inDirectory _
  refine Triple.bind ((((triple_captureOutcome_haveArtifacts hseparate).and
    triple_captureOutcome_isUtf8).and hcapture).conseq (fun _ hw => ⟨⟨hw.1, True.intro⟩, hw.2⟩)
      (fun _ _ hw => hw) fun _ _ _ => True.intro) fun _ => ?_
  rintro w ⟨⟨⟨summary, hending, hartifacts⟩, hutf8⟩, hguarded⟩
  obtain ⟨r, hrecord, rfl, hrecords⟩ : ∃ r, IsRecordOf process base config r ∧ r.name = m ∧
      HasRecords (base / "pending").locate r w.tree :=
    ⟨_, ⟨hid, rfl, summary, hending, hutf8 summary hending, rfl⟩, rfl,
      hasRecords_of_haveArtifacts hid hartifacts⟩
  have hguarded' : Guarded base (.keeping r) w.tree :=
    guarded_keeping hguarded.toSettled (Or.inl hrecords)
  have hupload : Keeps (OnTree (Guarded base (.keeping r)))
      (uploadSession process.toSurroundings config (sessionPaths base config)) :=
    keeps_uploadSession_guarded process.toSurroundings (Watch.forall_held rfl _) hbase hpending
  exact (hupload.and (triple_uploadSession_delivered hbase hpending)).conseq (fun _ hw => hw)
    (fun _ _ hw => ⟨r, hrecord, hw.1, hw.2⟩) (fun _ _ _ => True.intro) w ⟨hguarded', hrecords⟩

/-! ### The program -/

/-- The records stay where they are or go to the archive, in this tree and after any later
runs. -/
def IsDurable (base : Path) (r : SessionRecords) (t : Tree) : Prop :=
  ∀ t', Relation.ReflTransGen (ProgramRun base) t t' → KeepsRecords base r t'

/-- What the exit code of a run with a torrent source says about its end. -/
inductive ExitReport (process : Process) (base : Path) (config : RuntimeConfig) (w : World) :
    Int → World → Prop
  | captured {r : SessionRecords} {w' : World}
      (recorded : IsRecordOf process base (process.identified config) r)
      (delivered : IsDelivered process base (process.identified config) r w'.tree)
      (durable : IsDurable base r w'.tree) : ExitReport process base config w 0 w'
  | failed (w' : World) : ExitReport process base config w 2 w'
  | retryFailed {w' : World} (retried : retryAtStart process config w = (.ok none, w')) :
      ExitReport process base config w 3 w'
  | uploadFailed {r : SessionRecords} {w' : World}
      (recorded : IsRecordOf process base (process.identified config) r)
      (durable : IsDurable base r w'.tree) : ExitReport process base config w 3 w'

theorem isDurable_of_guarded {r : SessionRecords} {t : Tree} (hstraight : IsStraight base)
    (h : Guarded base (.keeping r) t) : IsDurable base r t := fun _ hlater =>
  (guarded_programRuns rfl hstraight hlater h).records r (Set.mem_singleton r)

theorem triple_runArguments_exitReport {process : Process} {arguments : Arguments} {w : World}
    (hsource : arguments.config.torrentSource ≠ []) (heventLog : arguments.eventLogOverride = none)
    (hsummary : arguments.summaryJsonOverride = none)
    (hapart : arguments.StaysApart process.currentDir base) (hstraight : IsStraight base)
    (hsettled : Settled base w.tree) (hnotices : w.Notices) :
    Triple (· = w) (runArguments process arguments)
      (fun code w' => ExitReport process base arguments.config w code w') (fun _ _ => True) := by
  have hretry : KeepsNotices (retryAtStart process arguments.config) :=
    Keeps.catchFailure ((keepsNotices_retryPendingArtifactUploads _ _).bind fun _ => Keeps.pure _)
      fun _ => Keeps.pure _
  have hguarded : Guarded base .nothing w.tree := guarded_nothing hsettled
  have hkeeps : Keeps (OnTree (Guarded base .nothing)) (retryAtStart process arguments.config) :=
    keeps_retryAtStart_guarded (Watch.forall_held rfl _) hapart.isBase
  unfold runArguments
  split
  · exact Triple.throw fun _ _ => True.intro
  · refine Triple.bind (S := fun uploaded w₁ => (w₁.Notices ∧ OnTree (Guarded base .nothing) w₁) ∧
      retryAtStart process arguments.config w = (.ok uploaded, w₁)) ?_ fun uploaded => ?_
    · rintro _ rfl
      have hpost := (hretry.and hkeeps) _ ⟨hnotices, hguarded⟩
      cases hrun : retryAtStart process arguments.config _ with
      | mk result w₁ =>
          rw [hrun] at hpost
          cases result with
          | ok uploaded => exact ⟨hpost, rfl⟩
          | error e => exact True.intro
    · cases uploaded with
      | none => exact Triple.pure fun _ hw => .retryFailed hw.2
      | some uploaded =>
          have hsource' : (!arguments.config.torrentSource.isEmpty) = true := by
            simpa using hsource
          dsimp only
          rw [if_pos hsource']
          refine (triple_runSession_outlasts heventLog hsummary hstraight hapart).conseq
            (fun _ hw => hw.1) (fun code w' hw => ?_) fun _ _ _ => True.intro
          obtain ⟨r, hrecord, hkept, ⟨rfl, hdelivered⟩ | rfl⟩ := hw
          · exact .captured hrecord hdelivered (isDurable_of_guarded hstraight hkept)
          · exact .uploadFailed hrecord (isDurable_of_guarded hstraight hkept)

theorem triple_runMain_exitReport {process : Process} {argv : List ByteString}
    {arguments : Arguments} {w : World}
    (hparsed : parseArguments {} argv = .ok (.run arguments))
    (hsource : arguments.config.torrentSource ≠ []) (heventLog : arguments.eventLogOverride = none)
    (hsummary : arguments.summaryJsonOverride = none)
    (hapart : arguments.StaysApart process.currentDir base) (hstraight : IsStraight base)
    (hsettled : Settled base w.tree) (hnotices : w.Notices) :
    Triple (· = w) (runMain process argv)
      (fun code w' => ExitReport process base arguments.config w code w')
      (fun e _ => e = .crash) := by
  unfold runMain
  rw [hparsed]
  apply triple_catchFailure (S := fun _ _ => True)
  · refine (triple_runArguments_exitReport hsource heventLog hsummary hapart hstraight hsettled
      hnotices).conseq (fun _ hw => hw) (fun _ _ hw => hw) fun e _ _ => ?_
    cases e with
    | thrown failure => exact True.intro
    | crash => rfl
  · exact fun _ => Triple.pure fun w' _ => .failed w'

/-- A run with a torrent source ends with one of three codes unless the process is gone. After
0 its session has been captured and delivered, after 3 it has been captured or was not begun,
and no later run loses what it has recorded. -/
theorem exitReport_runMain {process : Process} {argv : List ByteString} {arguments : Arguments}
    {w w' : World} {result : Except Stop Int}
    (hparsed : parseArguments {} argv = .ok (.run arguments))
    (hsource : arguments.config.torrentSource ≠ []) (heventLog : arguments.eventLogOverride = none)
    (hsummary : arguments.summaryJsonOverride = none)
    (hapart : arguments.StaysApart process.currentDir base) (hstraight : IsStraight base)
    (hsettled : Settled base w.tree) (hnotices : w.Notices)
    (hrun : runMain process argv w = (result, w')) :
    (∃ code, result = .ok code ∧ ExitReport process base arguments.config w code w') ∨
      result = .error .crash := by
  have hmain : Triple (· = w) (runMain process argv)
      (fun code w' => ExitReport process base arguments.config w code w')
      (fun e _ => e = .crash) :=
    triple_runMain_exitReport hparsed hsource heventLog hsummary hapart hstraight hsettled
      hnotices
  cases result with
  | ok code => exact Or.inl ⟨code, rfl, hmain.apply_ok rfl hrun⟩
  | error e => exact Or.inr (congrArg Except.error (hmain.apply_error rfl hrun))

end Session

section Sample

def uploadingArguments : Arguments where
  config := {
    torrentSource := "magnet:?x"
    artifactsDir := "/d"
    destinationUrl := "http://a" }

/-- The run that uploads, in an empty tree. -/
def uploadingRun : Except Stop Int × World :=
  runMain takingProcess uploadingArgv (quietWorld .empty [])

theorem exitReport_uploadingRun :
    (∃ code, uploadingRun.1 = .ok code ∧ ExitReport takingProcess "/d" uploadingArguments.config
        (quietWorld .empty []) code uploadingRun.2) ∨ uploadingRun.1 = .error .crash := by
  have hparsed : parseArguments {} uploadingArgv = .ok (.run uploadingArguments) := rfl
  have hapart : uploadingArguments.StaysApart takingProcess.currentDir "/d" :=
    ⟨⟨by decide, by decide⟩, Or.inl rfl, by simp [uploadingArguments]⟩
  have hnotices : (quietWorld .empty []).Notices := notices_of_faults_nil rfl
  have hrun : runMain takingProcess uploadingArgv (quietWorld .empty []) =
      (uploadingRun.1, uploadingRun.2) := Prod.mk.eta.symm
  exact exitReport_runMain hparsed (by decide) rfl rfl hapart (by decide) (settled_empty "/d")
    hnotices hrun

end Sample

end BtClient
