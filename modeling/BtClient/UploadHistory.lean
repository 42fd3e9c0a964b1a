import BtClient.ArchiveRules
import BtClient.JsonSyntax

/-!
# The history in a manifest

Every write of a manifest puts it together anew and takes the upload history over from
the file that is there. A run of calls on the manifest of one session is compared with
the history that the calls make up: when the first of them was made, and the uploads that
have failed since.
-/

namespace BtClient

open Effect FileSystem

/-- A failed upload, as the manifest remembers it. -/
structure FailedUpload where
  attemptUtc : String
  destinationUrl : ByteString
  error : ByteString

/-- The entry of a failed upload in a manifest. -/
def FailedUpload.entry (upload : FailedUpload) : Json :=
  Json.obj [
    ("attempt_utc", Json.text upload.attemptUtc),
    ("destination_url", .string upload.destinationUrl),
    ("error", .string upload.error)]

/-- What a manifest should remember. -/
structure UploadHistory where
  createdUtc : String
  failures : List FailedUpload

/-- The value has exactly these failed uploads. -/
structure HasFailures (failures : List FailedUpload) (value : Json) : Prop where
  all : value.find "upload_failures" =
    if failures = [] then none else some (.array (failures.map FailedUpload.entry))
  count : value.find "upload_attempt_count" =
    if failures = [] then none else some (.integer failures.length)
  last : value.find "last_upload_failure" = failures.getLast?.map FailedUpload.entry
  lastAttempt : value.find "last_upload_attempt_utc" =
    failures.getLast?.map fun upload => Json.text upload.attemptUtc

/-- The value tells the history. -/
structure UploadHistory.IsToldBy (history : UploadHistory) (value : Json) : Prop where
  created : value.find "created_utc" = some (Json.text history.createdUtc)
  failures : HasFailures history.failures value

/-! ### What one write does to the history -/

section Write

variable {config : RuntimeConfig} {outputPaths : OutputPaths} {state : ArtifactState}
  {previous : Json} {createdUtc : ByteString} {now : TimestampPair}
  {failures : List FailedUpload} {members : Json.Members}

theorem hasFailures_empty : HasFailures [] (.object []) := ⟨rfl, rfl, rfl, rfl⟩

/-- A new manifest has the failed uploads of the previous one. -/
theorem hasFailures_manifest (h : HasFailures failures previous) :
    HasFailures failures
      (.object (manifest config outputPaths state previous createdUtc now)) := by
  constructor
  · rw [Json.find, lookup_manifest_history Json.isArray (by simp [historyMembers]), h.all]
    split <;> rfl
  · rw [Json.find, lookup_manifest_history Json.isNumberInteger (by simp [historyMembers]), h.count]
    split <;> rfl
  · rw [Json.find, lookup_manifest_history Json.isObject (by simp [historyMembers]), h.last]
    cases failures.getLast? <;> rfl
  · rw [Json.find, lookup_manifest_history Json.isString (by simp [historyMembers]), h.lastAttempt]
    cases failures.getLast? <;> rfl

/-- Recording a failed upload adds it at the end. -/
theorem hasFailures_withUploadFailure (h : HasFailures failures (.object members))
    (upload : FailedUpload) (hnow : now.utcTs = upload.attemptUtc) :
    HasFailures (failures ++ [upload])
      (.object (withUploadFailure upload.entry now members)) := by
  have hall : members.lookup "upload_failures" = _ := h.all
  have hcount : members.lookup "upload_attempt_count" = _ := h.count
  have hne : failures ++ [upload] ≠ [] := by simp
  constructor
  · rw [if_neg hne, Json.find]
    simp only [withUploadFailure, Json.Members.lookup_set, hall, String.reduceEq, reduceIte]
    split_ifs with hnil <;> simp [hnil]
  · rw [if_neg hne, Json.find]
    simp only [withUploadFailure, Json.Members.lookup_set, hcount, String.reduceEq, reduceIte]
    split_ifs with hnil <;> simp [hnil]
  · rw [Json.find]
    simp [withUploadFailure, Json.Members.lookup_set]
  · rw [Json.find]
    simp [withUploadFailure, Json.Members.lookup_set, hnow]

end Write

/-! ### Calls on the manifest of a session -/

/-- A process that calls a function on the artifacts of a session. The text of a time is
never empty. -/
structure Caller where
  config : RuntimeConfig
  outputPaths : OutputPaths
  now : TimestampPair
  utcTs_ne : now.utcTs ≠ ""

inductive ManifestWrite where
  | writeArtifactState (state : ArtifactState)
  | recordArtifactUploadFailure (errorMessage : ByteString)

/-- A call that writes the manifest. -/
structure Call where
  caller : Caller
  write : ManifestWrite

namespace Call

/-- How the call changes the manifest that has been put together. -/
def amend (call : Call) (now : TimestampPair) (members : Json.Members) : Json.Members :=
  match call.write with
  | .writeArtifactState _ => members
  | .recordArtifactUploadFailure errorMessage =>
      withUploadFailure (uploadFailure call.caller.config errorMessage now) now members

def state (call : Call) : ArtifactState :=
  match call.write with
  | .writeArtifactState state => state
  | .recordArtifactUploadFailure _ => .readyToUpload

section Run

variable [JsonText]

def run (call : Call) : Action Unit :=
  match call.write with
  | .writeArtifactState state =>
      writeArtifactState call.caller.config call.caller.outputPaths state
  | .recordArtifactUploadFailure errorMessage =>
      recordArtifactUploadFailure call.caller.config call.caller.outputPaths errorMessage

theorem run_eq (call : Call) :
    call.run = rewriteState call.caller.config call.caller.outputPaths call.state call.amend := by
  obtain ⟨caller, write⟩ := call
  cases write <;> rfl

end Run

/-- The upload that failed before the call. -/
def failures (call : Call) : List FailedUpload :=
  match call.write with
  | .writeArtifactState _ => []
  | .recordArtifactUploadFailure errorMessage =>
      [⟨call.caller.now.utcTs, call.caller.config.destinationUrl, errorMessage⟩]

theorem hasFailures_amend (call : Call) {failures : List FailedUpload}
    {members : Json.Members} (h : HasFailures failures (.object members)) :
    HasFailures (failures ++ call.failures) (.object (call.amend call.caller.now members)) := by
  obtain ⟨caller, write⟩ := call
  cases write with
  | writeArtifactState state =>
      rw [Call.failures, List.append_nil]
      exact h
  | recordArtifactUploadFailure errorMessage =>
      exact hasFailures_withUploadFailure h
        ⟨caller.now.utcTs, caller.config.destinationUrl, errorMessage⟩ rfl

theorem lookup_amend (call : Call) (now : TimestampPair) (members : Json.Members) {k : String}
    (hk : k ∉ historyKeys) : (call.amend now members).lookup k = members.lookup k := by
  obtain ⟨caller, write⟩ := call
  cases write with
  | writeArtifactState state => rfl
  | recordArtifactUploadFailure errorMessage => exact lookup_withUploadFailure hk

theorem isPlain_amend {isDouble : ℚ → Bool} (call : Call) (now : TimestampPair)
    {members : Json.Members} (h : (Json.object members).isPlain isDouble = true) :
    (Json.object (call.amend now members)).isPlain isDouble = true := by
  obtain ⟨caller, write⟩ := call
  cases write with
  | writeArtifactState state => exact h
  | recordArtifactUploadFailure errorMessage =>
      exact isPlain_withUploadFailure h (isPlain_uploadFailure _ _ _)

end Call

/-- The history that calls make up, if there are any. -/
def callHistory : List Call → Option UploadHistory
  | [] => none
  | first :: rest =>
      some ⟨first.caller.now.utcTs, (first :: rest).flatMap Call.failures⟩

theorem callHistory_append_singleton (calls : List Call) (call : Call) :
    callHistory (calls ++ [call]) =
      match callHistory calls with
      | none => some ⟨call.caller.now.utcTs, call.failures⟩
      | some history => some { history with failures := history.failures ++ call.failures } := by
  cases calls with
  | nil => simp [callHistory]
  | cons first rest => simp [callHistory]

/-- The paths lead to the manifest at `l`. The usual path of a manifest leads there once
the directory of the session has been made. -/
def OutputPaths.LeadTo (outputPaths : OutputPaths) (t : Tree) (l : Location) : Prop :=
  outputPaths.stateJsonPath.locate = l ∧ (Reaches t outputPaths.stateJsonPath ∨
    outputPaths.stateJsonPath = outputPaths.artifactDir / "state.json")

section Runs

variable [JsonText]

/-- The calls return one after the other, and none of them meets a fault. They all write
to the file at `l`; in between, anything else in the tree may change. -/
inductive Performed (l : Location) (t₀ : Tree) : List Call → Tree → Prop
  | start : Performed l t₀ [] t₀
  | call {calls : List Call} {t t' : Tree} (call : Call) (h : Performed l t₀ calls t)
      (hpaths : call.caller.outputPaths.LeadTo t l)
      (hrun : call.run (quietWorld t [call.caller.now]) = (.ok (), quietWorld t' [])) :
      Performed l t₀ (calls ++ [call]) t'
  | elsewhere {calls : List Call} {t t' : Tree} (h : Performed l t₀ calls t)
      (hl : t'.get? l = t.get? l) : Performed l t₀ calls t'

/-- The file at `l` tells the history; without a history there is no file. -/
def Recorded (l : Location) (history : Option UploadHistory) (t : Tree) : Prop :=
  match history with
  | none => t.get? l = none
  | some history => ∃ content value, t.get? l = some (.file content) ∧
      JsonText.parse content = some value ∧ value.isObject = true ∧ history.IsToldBy value

variable {l : Location} {t t₀ t' : Tree} {calls : List Call}

omit [JsonText] in
theorem createdUtc_ne {history : UploadHistory} (h : callHistory calls = some history) :
    history.createdUtc ≠ "" := by
  cases calls with
  | nil => cases h
  | cons first rest =>
      cases h
      exact first.caller.utcTs_ne

/-- What a call takes over from the file at `l`, once it has made directories. -/
theorem previousAt_of_recorded {p : Path} (hp : p.locate = l) (hext : Extends t t')
    (hreach : Reaches t' p) (h : Recorded l (callHistory calls) t) (now : TimestampPair) :
    (callHistory calls = none ∧ previousAt t' p = .object [] ∧
      createdUtcAt t' p now = now.utcTs) ∨
    ∃ history, callHistory calls = some history ∧
      HasFailures history.failures (previousAt t' p) ∧
        createdUtcAt t' p now = history.createdUtc ∧
          (previousAt t' p).isPlain JsonText.isDouble = true := by
  subst hp
  cases hcalls : callHistory calls with
  | none =>
      rw [hcalls] at h
      have hnone : t.get? p.locate = none := h
      have hvalue : valueAt t' p = none := by
        apply valueAt_eq_none
        intro content hcontent
        rw [hext.get?_eq_file, hnone] at hcontent
        cases hcontent
      exact Or.inl ⟨rfl, by rw [previousAt, hvalue]; rfl, by rw [createdUtcAt, hvalue]; rfl⟩
  | some history =>
      rw [hcalls] at h
      obtain ⟨content, value, hget, hparse, hobject, htold⟩ := h
      have hvalue : valueAt t' p = some value := by
        rw [valueAt, contentAt_of_file hreach (hext.get?_eq_some hget),
          Option.bind_some, hparse]
      have hprevious : previousAt t' p = value := by
        rw [previousAt, hvalue]
        exact if_pos hobject
      have hcreated : createdUtcAt t' p now = history.createdUtc := by
        have htext : jsonStringOrEmpty value "created_utc" =
            ByteString.ofString history.createdUtc := by
          rw [jsonStringOrEmpty, htold.created]
          rfl
        rw [createdUtcAt, hvalue, createdUtcOf, Option.elim_some, htext]
        dsimp only
        rw [if_neg]
        rw [List.isEmpty_iff]
        exact fun hnil => createdUtc_ne hcalls (ByteString.ofString_eq_nil hnil)
      refine Or.inr ⟨history, rfl, ?_, hcreated, ?_⟩
      · rw [hprevious]
        exact htold.failures
      · rw [hprevious]
        exact JsonText.isPlain_of_parse hparse

omit [JsonText] in
/-- The manifest that a call puts together from a previous one. -/
theorem isToldBy_amend {call : Call} {previous : Json} {history : UploadHistory}
    (hprevious : HasFailures history.failures previous) :
    ({ history with failures := history.failures ++ call.failures } : UploadHistory).IsToldBy
      (.object (call.amend call.caller.now (manifest call.caller.config
        call.caller.outputPaths call.state previous history.createdUtc call.caller.now))) := by
  refine ⟨?_, call.hasFailures_amend (hasFailures_manifest hprevious)⟩
  rw [Json.find, call.lookup_amend _ _ (by decide), lookup_manifest (by decide),
    lookup_manifestMembers]
  rfl

/-- One call adds to the history what the call stands for. -/
theorem recorded_call (h : Recorded l (callHistory calls) t) (call : Call)
    (hpaths : call.caller.outputPaths.LeadTo t l)
    (hrun : call.run (quietWorld t [call.caller.now]) = (.ok (), quietWorld t' [])) :
    Recorded l (callHistory (calls ++ [call])) t' ∧
      Reaches t' call.caller.outputPaths.stateJsonPath := by
  rw [Call.run_eq] at hrun
  obtain ⟨t'', heq, t₁, hext, hdirReach, hdir, hutf, hreach', hwritten⟩ :=
    (triple_rewriteState_quiet _ _ _ _ call.caller.now).apply_ok rfl hrun
  obtain rfl : t' = t'' := congrArg World.tree heq
  obtain ⟨rfl, hpath⟩ := hpaths
  have hreach : Reaches t₁ call.caller.outputPaths.stateJsonPath := by
    rcases hpath with hreach | husual
    · exact hext.reaches hreach
    · rw [husual]
      exact (reaches_join_name (by decide)).mpr ⟨hdirReach, hdir⟩
  have hparse : ∀ {value : Json}, value.isUtf8 = true →
      value.isPlain JsonText.isDouble = true → JsonText.parse (manifestText value) = some value :=
    fun hutf hplain => by
      rw [manifestText_of_isUtf8 hutf]
      exact JsonText.parse_dumpIndented _ hutf hplain
  refine ⟨?_, hreach'⟩
  rw [callHistory_append_singleton]
  rcases previousAt_of_recorded rfl hext hreach h call.caller.now with
    ⟨hcalls, hprevious, hcreated⟩ | ⟨history, hcalls, hfailures, hcreated, hplain⟩
  · rw [hcalls]
    rw [amendedAt, hprevious, hcreated] at hutf hwritten
    refine ⟨_, _, hwritten.here, hparse hutf (call.isPlain_amend _ (isPlain_manifest _ _ _ _ _ rfl)),
      rfl, ?_⟩
    have hempty : HasFailures (⟨call.caller.now.utcTs, []⟩ : UploadHistory).failures
        (.object []) := hasFailures_empty
    exact isToldBy_amend hempty
  · rw [hcalls]
    rw [amendedAt, hcreated] at hutf hwritten
    exact ⟨_, _, hwritten.here, hparse hutf (call.isPlain_amend _ (isPlain_manifest _ _ _ _ _
      hplain)), rfl, isToldBy_amend hfailures⟩

/-- After any run of calls the file tells their history. -/
theorem recorded_of_performed (h₀ : t₀.get? l = none) (h : Performed l t₀ calls t) :
    Recorded l (callHistory calls) t := by
  induction h with
  | start => exact h₀
  | call call _ hpaths hrun ih => exact (recorded_call ih call hpaths hrun).1
  | elsewhere _ hl ih =>
      unfold Recorded at ih ⊢
      rwa [hl]

/-- The calls of a session up to the archive: the two states of the capture, then any
number of failed uploads. -/
def lifecycle (capturing ready : Caller) (attempts : List (Caller × ByteString)) : List Call :=
  ⟨capturing, .writeArtifactState .capturing⟩ :: ⟨ready, .writeArtifactState .readyToUpload⟩ ::
    attempts.map fun attempt => ⟨attempt.1, .recordArtifactUploadFailure attempt.2⟩

/-- What the manifest should remember of these calls. -/
def lifecycleHistory (capturing : Caller) (attempts : List (Caller × ByteString)) :
    UploadHistory where
  createdUtc := capturing.now.utcTs
  failures := attempts.map fun attempt =>
    ⟨attempt.1.now.utcTs, attempt.1.config.destinationUrl, attempt.2⟩

omit [JsonText] in
theorem callHistory_lifecycle (capturing ready : Caller)
    (attempts : List (Caller × ByteString)) :
    callHistory (lifecycle capturing ready attempts) =
      some (lifecycleHistory capturing attempts) := by
  have hfailures : (attempts.map fun attempt : Caller × ByteString =>
      (⟨attempt.1, .recordArtifactUploadFailure attempt.2⟩ : Call)).flatMap Call.failures =
      (lifecycleHistory capturing attempts).failures := by
    rw [List.flatMap_map, lifecycleHistory, List.map_eq_flatMap]
    rfl
  rw [lifecycle, callHistory, List.flatMap_cons, List.flatMap_cons, hfailures]
  rfl

/-- Archiving a session keeps its history. -/
theorem told_of_archived {dir : Location} {history : UploadHistory}
    (hcalls : callHistory calls = some history)
    (h : Recorded (dir ++ [ByteString.ofString "state.json"]) (callHistory calls) t)
    (currentDir : CurrentDir) (archiver : Caller)
    (hdir : archiver.outputPaths.artifactDir.locate = dir) {archived : OutputPaths}
    (hrun : archiveArtifactSession currentDir archiver.config archiver.outputPaths
      (quietWorld t [archiver.now]) = (.ok archived, quietWorld t' [])) :
    ∃ value, Holds t' archived.stateJsonPath value ∧ history.IsToldBy value := by
  rw [archiveArtifactSession_eq] at hrun
  obtain ⟨moved, w₁, hmove, hrest⟩ := of_bind_ok hrun
  obtain ⟨⟨⟩, w₂, hwrite, hpure⟩ := of_bind_ok hrest
  obtain ⟨rfl, rfl⟩ : moved = archived ∧ w₂ = quietWorld t' [] := by
    cases hpure
    exact ⟨rfl, rfl⟩
  obtain ⟨t₁, rfl, archiveRoot, -, harchived, hmoved⟩ :=
    ((keepsQuiet_moveToArchive currentDir _ _).triple
      (triple_moveToArchive currentDir t _ _) _).apply_ok rfl hmove
  -- the last call writes to the manifest that has been moved
  let call : Call := ⟨{ archiver with outputPaths := moved }, .writeArtifactState .archived⟩
  have hpath : moved.stateJsonPath = moved.artifactDir / "state.json" := by
    rw [harchived]
    rfl
  have hlocate : moved.stateJsonPath.locate =
      moved.artifactDir.locate ++ [ByteString.ofString "state.json"] := by
    rw [hpath]
    exact Path.locate_join_name _ (by decide)
  have hrecorded : Recorded moved.stateJsonPath.locate (callHistory calls) t₁ := by
    rw [hcalls] at h ⊢
    obtain ⟨content, value, hget, htold⟩ := h
    rw [hdir] at hmoved
    rw [hlocate]
    exact ⟨content, value, hmoved.get?_append hget, htold⟩
  obtain ⟨hafter, hreach⟩ := recorded_call hrecorded call ⟨rfl, Or.inr hpath⟩ hwrite
  rw [callHistory_append_singleton, hcalls] at hafter
  obtain ⟨content, value, hget, hparse, -, htold⟩ := hafter
  refine ⟨value, ⟨content, find_eq_some_iff.mpr ⟨hreach, hget⟩, hparse⟩, ?_⟩
  have hsame : ({ history with failures := history.failures ++ call.failures } :
      UploadHistory) = history := by
    rw [Call.failures, List.append_nil]
  rwa [hsame] at htold

/-- The history in the manifest is exact: however many calls have written the manifest,
and wherever the session has been moved, it tells when the first manifest was written and
which uploads have failed since, in this order. -/
theorem uploadHistory_exact {dir : Location} (hempty : t₀.children dir = [])
    (capturing ready : Caller) (attempts : List (Caller × ByteString))
    (h : Performed (dir ++ [ByteString.ofString "state.json"]) t₀
      (lifecycle capturing ready attempts) t) :
    (∃ content value, t.get? (dir ++ [ByteString.ofString "state.json"]) = some (.file content) ∧
      JsonText.parse content = some value ∧
        (lifecycleHistory capturing attempts).IsToldBy value) ∧
    ∀ (currentDir : CurrentDir) (archiver : Caller) (archived : OutputPaths) (t' : Tree),
      archiver.outputPaths.artifactDir.locate = dir →
        archiveArtifactSession currentDir archiver.config archiver.outputPaths
          (quietWorld t [archiver.now]) = (.ok archived, quietWorld t' []) →
        ∃ value, Holds t' archived.stateJsonPath value ∧
          (lifecycleHistory capturing attempts).IsToldBy value := by
  have habsent : t₀.get? (dir ++ [ByteString.ofString "state.json"]) = none := by
    by_contra hsome
    have hchild := FileTree.mem_children_iff.mpr (Option.isSome_iff_ne_none.mpr hsome)
    rw [hempty] at hchild
    cases hchild
  have hrecorded := recorded_of_performed habsent h
  have hcalls := callHistory_lifecycle capturing ready attempts
  constructor
  · rw [hcalls] at hrecorded
    obtain ⟨content, value, hget, hparse, -, htold⟩ := hrecorded
    exact ⟨content, value, hget, hparse, htold⟩
  · intro currentDir archiver archived t' hdir hrun
    exact told_of_archived hcalls hrecorded currentDir archiver hdir hrun

end Runs

section Sample

/-- The tree in which the session `s` starts. -/
def sampleTree : Tree := (createDirectories "/d/pending/s" (quietWorld .empty [])).2.tree

def sampleCaller (utcTs : String) (h : utcTs ≠ "") : Caller where
  config := { artifactsDir := "/d", sessionId := "s", runId := "r" }
  outputPaths := .inDirectory "/d/pending/s"
  now := ⟨utcTs, 0⟩
  utcTs_ne := h

def sampleAttempts : List (Caller × ByteString) :=
  [(sampleCaller "t2" (by decide), "refused"), (sampleCaller "t3" (by decide), "no route")]

/-- The tree after the calls, one after the other. -/
def treeAfter (t : Tree) (calls : List Call) : Tree :=
  calls.foldl (fun t call => (call.run (quietWorld t [call.caller.now])).2.tree) t

theorem treeAfter_append (t : Tree) (calls : List Call) (call : Call) :
    treeAfter t (calls ++ [call]) =
      (call.run (quietWorld (treeAfter t calls) [call.caller.now])).2.tree :=
  List.foldl_append

/-- A call that returns without having met a fault. -/
theorem performed_append {l : Location} {t₀ : Tree} {calls : List Call} (call : Call)
    (h : Performed l t₀ calls (treeAfter t₀ calls))
    (hpaths : call.caller.outputPaths.LeadTo (treeAfter t₀ calls) l)
    (hrun : (call.run (quietWorld (treeAfter t₀ calls) [call.caller.now])).1 = .ok ())
    (hquiet : (call.run (quietWorld (treeAfter t₀ calls) [call.caller.now])).2.faults = [] ∧
      (call.run (quietWorld (treeAfter t₀ calls) [call.caller.now])).2.clock = []) :
    Performed l t₀ (calls ++ [call]) (treeAfter t₀ (calls ++ [call])) := by
  refine Performed.call call h hpaths ?_
  rw [treeAfter_append]
  generalize call.run (quietWorld (treeAfter t₀ calls) [call.caller.now]) = outcome at hrun hquiet
  obtain ⟨r, tree, faults, clock⟩ := outcome
  obtain ⟨rfl, rfl⟩ := hquiet
  obtain rfl : r = .ok () := hrun
  rfl

/-- The manifest of the session. -/
def sampleManifest : Location :=
  (["d", "pending", "s"] : List String).map ByteString.ofString ++ [ByteString.ofString "state.json"]

/-- The tree after both attempts. -/
def attemptedTree : Tree :=
  treeAfter sampleTree
    (lifecycle (sampleCaller "t0" (by decide)) (sampleCaller "t1" (by decide)) sampleAttempts)

theorem performed_attemptedTree : Performed sampleManifest sampleTree
    (lifecycle (sampleCaller "t0" (by decide)) (sampleCaller "t1" (by decide)) sampleAttempts)
    attemptedTree := by
  have hpaths : ∀ t, (OutputPaths.inDirectory "/d/pending/s").LeadTo t sampleManifest :=
    fun t => ⟨by decide, Or.inr rfl⟩
  have hcapturing := performed_append
    ⟨sampleCaller "t0" (by decide), .writeArtifactState .capturing⟩
    (Performed.start : Performed _ sampleTree [] _) (hpaths _) (by decide +kernel)
    (by decide +kernel)
  have hready := performed_append
    ⟨sampleCaller "t1" (by decide), .writeArtifactState .readyToUpload⟩ hcapturing (hpaths _)
    (by decide +kernel) (by decide +kernel)
  have hfirst := performed_append
    ⟨sampleCaller "t2" (by decide), .recordArtifactUploadFailure "refused"⟩ hready (hpaths _)
    (by decide +kernel) (by decide +kernel)
  exact performed_append
    ⟨sampleCaller "t3" (by decide), .recordArtifactUploadFailure "no route"⟩ hfirst (hpaths _)
    (by decide +kernel) (by decide +kernel)

/-- The session is archived after both attempts. -/
def archivingRun : Except Stop OutputPaths × World :=
  archiveArtifactSession rootDir (sampleCaller "t4" (by decide)).config
    (sampleCaller "t4" (by decide)).outputPaths (quietWorld attemptedTree [⟨"t4", 0⟩])

theorem archivingRun_ok : archivingRun =
    (.ok (.inDirectory "/d/archive/s"), quietWorld archivingRun.2.tree []) := by
  have hresult : archivingRun.1.toOption = some (.inDirectory "/d/archive/s") ∧
      archivingRun.2.faults = [] ∧ archivingRun.2.clock = [] := by decide +kernel
  generalize archivingRun = outcome at hresult
  obtain ⟨result, tree, faults, clock⟩ := outcome
  obtain ⟨hok, rfl, rfl⟩ := hresult
  cases result with
  | ok archived => rw [Option.some.inj hok]; rfl
  | error stop => cases hok

/-- The history of the two attempts, in the pending directory and in the archive. -/
theorem uploadHistory_exact_two_attempts :
    (∃ content value, attemptedTree.get? sampleManifest = some (.file content) ∧
      JsonText.parse content = some value ∧
        (lifecycleHistory (sampleCaller "t0" (by decide)) sampleAttempts).IsToldBy value) ∧
    ∃ value, Holds archivingRun.2.tree "/d/archive/s/state.json" value ∧
      (lifecycleHistory (sampleCaller "t0" (by decide)) sampleAttempts).IsToldBy value := by
  have hempty : sampleTree.children
      ((["d", "pending", "s"] : List String).map ByteString.ofString) = [] := by decide +kernel
  have hdir : (sampleCaller "t4" (by decide)).outputPaths.artifactDir.locate =
      (["d", "pending", "s"] : List String).map ByteString.ofString := by decide
  have hexact := uploadHistory_exact hempty (sampleCaller "t0" (by decide))
    (sampleCaller "t1" (by decide)) sampleAttempts performed_attemptedTree
  exact ⟨hexact.1, hexact.2 rootDir (sampleCaller "t4" (by decide)) (.inDirectory "/d/archive/s")
    archivingRun.2.tree hdir archivingRun_ok⟩

end Sample

end BtClient
