import BtClient.StateWrites

/-!
# Manifests that are written or left alone

A call that writes the manifest puts it together from the one that is there, and should either
return with the whole new manifest in its file, or throw and leave the file as it was. Whether
it does depends on what its two reads and its write meet, and on what the file has to lose.
-/

namespace BtClient

open Effect FileSystem

section AllOrNothing

variable [JsonText] {call : Call} {w w' w₁ : World} {t t₁ t' : Tree} {l : Location}

/-! ### The manifest of a call -/

omit [JsonText] in
/-- The path of the manifest. -/
def Call.path (call : Call) : Path := call.caller.outputPaths.stateJsonPath

/-- What the file of the manifest says before the call. -/
def Call.before (call : Call) (w : World) : Option Json :=
  match w.tree.get? call.path.locate with
  | some (.file content) => JsonText.parse content
  | _ => none

omit [JsonText] in
/-- The manifest that the call puts together when its two reads see these values. -/
def Call.manifestOf (call : Call) (now : TimestampPair) (seen seenAgain : Option Json) :
    Json.Members :=
  call.amend now (manifest call.caller.config call.caller.outputPaths call.state
    (previousOf seen) (createdUtcOf seenAgain now) now)

/-- The new manifest, put together from what the file says before the call. -/
def Call.newManifest (call : Call) (w : World) : Json.Members :=
  call.manifestOf w.now (call.before w) (call.before w)

/-- The manifest when only the reads that succeed see something. -/
def Call.writtenManifest (call : Call) (w : World) (read readAgain : Bool) : Json.Members :=
  call.manifestOf w.now (if read then call.before w else none)
    (if readAgain then call.before w else none)

/-- The file at `l` has the content that it had. -/
def SameContent (l : Location) (t t' : Tree) : Prop :=
  ∀ content, t'.get? l = some (.file content) ↔ t.get? l = some (.file content)

/-- The call returns and the new manifest is in the file as a whole, or it throws and the file
is as it was, with the sessions that are found. Nothing is said about a process that is gone. -/
def Call.AllOrNothing (call : Call) (w : World) : Prop :=
  match call.run w with
  | (.ok _, w') => (Json.object (call.newManifest w)).isUtf8 = true ∧
      find w'.tree call.path =
        some (.file (JsonText.dumpIndented (.object (call.newManifest w)) ++ [newline]))
  | (.error (.thrown _), w') =>
      SameContent call.path.locate w.tree w'.tree ∧ StillFound w.tree w'.tree
  | (.error .crash, _) => True

/-! ### What the call meets -/

omit [JsonText] in
/-- The call opens the file of its manifest: which of its two reads succeed, and which faults
are left for the write and what follows. -/
inductive Call.Opens (call : Call) (w : World) : Bool → Bool → List Fault → Prop
  /-- The file is there. It is looked for and read, looked for and read again, and opened. -/
  | found {w₁ : World} {content : ByteString}
      (hdir : createDirectories call.caller.outputPaths.artifactDir w = (.ok (), w₁))
      (hfound : find w₁.tree call.path = some (.file content))
      (hlook : (w₁.fault 0).passes = true) (hread : (w₁.fault 1).isCrash = false)
      (hlook' : (w₁.fault 2).passes = true) (hread' : (w₁.fault 3).isCrash = false)
      (hopen : (w₁.fault 4).passes = true) :
      call.Opens w (w₁.fault 1).passes (w₁.fault 3).passes (w₁.faults.drop 5)
  /-- There is nothing at the path. It is looked for twice, its directory is made, and the file
  is opened where the path leads then. -/
  | missing {w₁ w₂ : World}
      (hdir : createDirectories call.caller.outputPaths.artifactDir w = (.ok (), w₁))
      (hmissing : find w₁.tree call.path = none)
      (hlook : (w₁.fault 0).passes = true) (hlook' : (w₁.fault 1).passes = true)
      (hparent : ensureParentDirectory call.path (w₁.ticked.after 2) = (.ok (), w₂))
      (hreach : Reaches w₂.tree call.path) (hwritable : w₂.tree.Writable call.path.locate)
      (hopen : (w₂.fault 0).passes = true) :
      call.Opens w false false (w₂.faults.drop 1)

omit [JsonText] in
/-- The new manifest takes something over from the upload history of the previous one. -/
def Call.TakesOver (call : Call) (previous : Json) : Prop :=
  match call.write with
  | .writeArtifactState _ => ∃ member ∈ historyMembers, ∃ value,
      previous.find member.1 = some value ∧ member.2 value = true
  | .recordArtifactUploadFailure _ => failureHistory previous ≠ [] ∨ attemptCount previous ≠ 0

/-- The reads that fail would not have added anything to the new manifest. -/
structure Call.LosesNothing (call : Call) (w : World) (read readAgain : Bool) : Prop where
  history : read = true ∨ ¬ call.TakesOver (previousOf (call.before w))
  created : readAgain = true ∨ createdUtcOf (call.before w) w.now = w.now.utcTs

/-- The text of the manifest that is written after these reads. -/
def Call.text (call : Call) (w : World) (read readAgain : Bool) : ByteString :=
  JsonText.dumpIndented (.object (call.writtenManifest w read readAgain)) ++ [newline]

/-- No harm is done by a write that meets this fault after these reads: there is no fault and
nothing is lost, or one that goes unnoticed after the last byte, or one that is reported where
the text to be written has begun with the whole previous content. -/
def Call.WriteSpares (call : Call) (w : World) (read readAgain : Bool) : Fault → Prop
  | .none => call.LosesNothing w read readAgain
  | .unnoticed reached => call.LosesNothing w read readAgain ∧
      (call.text w read readAgain).length ≤ reached
  | .reported reached => ∃ content, w.tree.get? call.path.locate = some (.file content) ∧
      content <+: call.text w read readAgain ∧
        content.length = min reached (call.text w read readAgain).length
  | .crash _ => True

/-- No harm is done once the file is open. If the strings of the caller cannot be dumped, then
nothing is written, and the file was empty before. -/
structure Call.SparesWhen (call : Call) (w : World) (read readAgain : Bool) (write : Fault) :
    Prop where
  written : call.IsUtf8 → call.WriteSpares w read readAgain write
  emptied : ¬ call.IsUtf8 → w.tree.get? call.path.locate = some (.file [])

/-- If the file is opened at all, no harm is done. -/
def Call.Spares (call : Call) (w : World) : Prop :=
  ∀ read readAgain rest, call.Opens w read readAgain rest →
    call.SparesWhen w read readAgain (rest.headD .none)

/-! ### What a read that fails loses -/

section Loses

variable {previous : Json} {createdUtc : ByteString} {now : TimestampPair}

omit [JsonText] in
theorem lookup_createdUtc :
    (call.amend now (manifest call.caller.config call.caller.outputPaths call.state previous
      createdUtc now)).lookup "created_utc" = some (.string createdUtc) := by
  rw [call.lookup_amend _ _ (by decide), lookup_manifest (by decide), lookup_manifestMembers]
  rfl

theorem pairwise_amend_manifest (hplain : previous.isPlain JsonText.isDouble = true) :
    (call.amend now (manifest call.caller.config call.caller.outputPaths call.state previous
      createdUtc now)).Pairwise fun e e' => e.1 < e'.1 :=
  (Json.isPlain_object.mp (call.isPlain_amend now
    (isPlain_manifest _ _ _ _ _ hplain))).1

/-- The manifests put together from two previous ones differ only in the upload history. -/
theorem amend_manifest_congr {previous' : Json} (hplain : previous.isPlain JsonText.isDouble = true)
    (hplain' : previous'.isPlain JsonText.isDouble = true)
    (h : ∀ k ∈ historyKeys,
      (call.amend now (manifest call.caller.config call.caller.outputPaths call.state previous
        createdUtc now)).lookup k =
          (call.amend now (manifest call.caller.config call.caller.outputPaths call.state previous'
            createdUtc now)).lookup k) :
    call.amend now (manifest call.caller.config call.caller.outputPaths call.state previous
        createdUtc now) =
      call.amend now (manifest call.caller.config call.caller.outputPaths call.state previous'
        createdUtc now) := by
  refine Json.Members.ext_lookup (pairwise_amend_manifest hplain)
    (pairwise_amend_manifest hplain') fun k => ?_
  by_cases hk : k ∈ historyKeys
  · exact h k hk
  · rw [call.lookup_amend _ _ hk, call.lookup_amend _ _ hk, lookup_manifest hk,
      lookup_manifest hk]

/-- Without the history of the previous manifest the new one is the same just when it takes
nothing over. -/
theorem amend_manifest_empty_iff (hplain : previous.isPlain JsonText.isDouble = true) :
    call.amend now (manifest call.caller.config call.caller.outputPaths call.state (.object [])
        createdUtc now) =
      call.amend now (manifest call.caller.config call.caller.outputPaths call.state previous
        createdUtc now) ↔ ¬ call.TakesOver previous := by
  obtain ⟨caller, write⟩ := call
  cases write with
  | writeArtifactState state =>
      have hmember : ∀ member ∈ historyMembers, ∀ previous : Json,
          (manifest caller.config caller.outputPaths state previous createdUtc now).lookup
            member.1 = (previous.find member.1).filter member.2 :=
        fun member hmember previous => lookup_manifest_history member.2 hmember
      constructor
      · rintro heq ⟨member, hmem, value, hfind, haccepts⟩
        have hlookup := congrArg (fun members => List.lookup member.1 members) heq
        have hsame := ((hmember member hmem (.object [])).symm.trans hlookup).trans
          (hmember member hmem previous)
        rw [hfind, Option.filter_some_pos haccepts] at hsame
        cases hsame
      · intro hnot
        refine amend_manifest_congr rfl hplain fun k hk => ?_
        have hkeys : historyKeys = historyMembers.map Prod.fst := rfl
        rw [hkeys] at hk
        obtain ⟨member, hmem, rfl⟩ := List.mem_map.mp hk
        refine (hmember member hmem (.object [])).trans
          (Eq.trans ?_ (hmember member hmem previous).symm)
        cases hfind : previous.find member.1 with
        | none => rfl
        | some value =>
            have hrejects : member.2 value = false := Bool.eq_false_iff.mpr fun haccepts =>
              hnot ⟨member, hmem, value, hfind, haccepts⟩
            rw [Option.filter_some_neg hrejects]
            rfl
  | recordArtifactUploadFailure errorMessage =>
      have hfailures : ∀ previous : Json, failureHistory (.object (Call.amend
          ⟨caller, .recordArtifactUploadFailure errorMessage⟩ now (manifest caller.config
            caller.outputPaths .readyToUpload previous createdUtc now))) =
              failureHistory previous ++ [uploadFailure caller.config errorMessage now] :=
        fun previous => failureHistory_withUploadFailure.trans
          (congrArg (· ++ _) failureHistory_manifest)
      have hcount : ∀ previous : Json, attemptCount (.object (Call.amend
          ⟨caller, .recordArtifactUploadFailure errorMessage⟩ now (manifest caller.config
            caller.outputPaths .readyToUpload previous createdUtc now))) =
              attemptCount previous + 1 :=
        fun previous => attemptCount_withUploadFailure.trans
          (congrArg (· + 1) attemptCount_manifest)
      constructor
      · rintro heq (hne | hne)
        · have hsame := congrArg (fun members => failureHistory (.object members)) heq
          exact hne (List.append_cancel_right
            (((hfailures (.object [])).symm.trans hsame).trans (hfailures previous))).symm
        · have hsame := congrArg (fun members => attemptCount (.object members)) heq
          have hnumbers := ((hcount (.object [])).symm.trans hsame).trans (hcount previous)
          exact hne (add_right_cancel hnumbers).symm
      · intro hnot
        obtain ⟨hnil, hzero⟩ := not_or.mp hnot
        rw [not_not] at hnil hzero
        refine amend_manifest_congr rfl hplain fun k hk => ?_
        refine (lookup_withUploadFailure_history hk).trans
          (Eq.trans ?_ (lookup_withUploadFailure_history hk).symm)
        rw [failureHistory_manifest, failureHistory_manifest, attemptCount_manifest,
          attemptCount_manifest, hnil, hzero]
        rfl

end Loses

theorem parse_of_before {value : Json} (h : call.before w = some value) :
    ∃ content, JsonText.parse content = some value := by
  unfold Call.before at h
  split at h
  · exact ⟨_, h⟩
  · cases h

/-- A read sees the previous manifest or nothing. -/
theorem before_of_seen {read : Bool} {value : Json}
    (h : (if read then call.before w else none) = some value) : call.before w = some value := by
  split at h
  · exact h
  · cases h

omit [JsonText] in
/-- What is taken into account is the value that is read, or an empty object. -/
theorem previousOf_eq (seen : Option Json) :
    previousOf seen = .object [] ∨ seen = some (previousOf seen) := by
  cases seen with
  | none => exact Or.inl rfl
  | some value =>
      rw [previousOf, Option.elim_some]
      split
      · exact Or.inr rfl
      · exact Or.inl rfl

theorem isPlain_previousOf (read : Bool) :
    (previousOf (if read then call.before w else none)).isPlain JsonText.isDouble = true := by
  rcases previousOf_eq (if read then call.before w else none) with hempty | hseen
  · rw [hempty]
    rfl
  · obtain ⟨content, hparse⟩ := parse_of_before (before_of_seen hseen)
    exact JsonText.isPlain_of_parse hparse

theorem isPlain_writtenManifest (call : Call) (w : World) (read readAgain : Bool) :
    (Json.object (call.writtenManifest w read readAgain)).isPlain JsonText.isDouble = true :=
  call.isPlain_amend _ (isPlain_manifest _ _ _ _ _ (isPlain_previousOf read))

theorem isUtf8_writtenManifest_iff (call : Call) (w : World) (read readAgain : Bool) :
    (Json.object (call.writtenManifest w read readAgain)).isUtf8 = true ↔ call.IsUtf8 := by
  apply isUtf8_amend_iff
  · rcases previousOf_eq (if read then call.before w else none) with hempty | hseen
    · rw [hempty]
      rfl
    · obtain ⟨content, hparse⟩ := parse_of_before (before_of_seen hseen)
      exact JsonText.isUtf8_of_parse hparse
  · have hnow := ByteString.isValidUtf8_ofString w.now.utcTs
    cases hseen : (if readAgain then call.before w else none) with
    | none => exact hnow
    | some value =>
        obtain ⟨content, hparse⟩ := parse_of_before (before_of_seen hseen)
        rw [createdUtcOf, Option.elim_some]
        dsimp only
        split
        · exact hnow
        · exact isValidUtf8_jsonStringOrEmpty (JsonText.isUtf8_of_parse hparse) _

/-- The manifest that is written is the new manifest just when nothing is lost. -/
theorem writtenManifest_eq_iff {read readAgain : Bool} :
    call.writtenManifest w read readAgain = call.newManifest w ↔
      call.LosesNothing w read readAgain := by
  have hplain : (previousOf (call.before w)).isPlain JsonText.isDouble = true :=
    isPlain_previousOf true
  have hcreated : call.writtenManifest w read readAgain = call.newManifest w →
      createdUtcOf (if readAgain then call.before w else none) w.now =
        createdUtcOf (call.before w) w.now := by
    intro heq
    have hlookup := congrArg (fun members => List.lookup "created_utc" members) heq
    exact Json.string.inj (Option.some.inj ((lookup_createdUtc.symm.trans hlookup).trans
      lookup_createdUtc))
  constructor
  · intro heq
    constructor
    · cases read with
      | true => exact Or.inl rfl
      | false =>
          refine Or.inr ((amend_manifest_empty_iff hplain).mp (Eq.trans ?_ heq))
          rw [Call.writtenManifest, Call.manifestOf, hcreated heq]
          rfl
    · cases readAgain with
      | true => exact Or.inl rfl
      | false => exact Or.inr (hcreated heq).symm
  · rintro ⟨hhistory, hsame⟩
    have htime : createdUtcOf (if readAgain then call.before w else none) w.now =
        createdUtcOf (call.before w) w.now := by
      cases readAgain with
      | true => rfl
      | false => exact (hsame.resolve_left Bool.false_ne_true).symm
    rw [Call.writtenManifest, Call.newManifest, Call.manifestOf, Call.manifestOf, htime]
    cases read with
    | true => rfl
    | false =>
        exact (amend_manifest_empty_iff hplain).mpr (hhistory.resolve_left Bool.false_ne_true)

/-! ### The file is opened -/

theorem before_of_find (hext : Extends w.tree w₁.tree) {content : ByteString}
    (hfind : find w₁.tree call.path = some (.file content)) :
    call.before w = valueAt w₁.tree call.path := by
  have hget := hext.get?_eq_file.mp (find_eq_some_iff.mp hfind).2
  rw [Call.before, hget, valueAt, contentAt, hfind]
  rfl

/-- A call that opens its file has met the faults that are listed. -/
theorem opens_of_openManifest {value : Json}
    (h : openManifest call.caller.config call.caller.outputPaths call.state call.amend w =
      (.ok (value, some l), w')) :
    ∃ read readAgain, call.Opens w read readAgain w'.faults ∧
      value = .object (call.writtenManifest w read readAgain) := by
  obtain ⟨_, w₁, hdir, h⟩ := of_bind_ok h
  obtain ⟨hext, -⟩ := (createDirectories_extends w.tree _).apply_ok rfl hdir
  have hclock : w₁.clock = w.clock := (keeps_clock_createDirectories _ _).apply_ok rfl hdir
  have hnow : w₁.now = w.now := by rw [World.now, World.now, hclock]
  rw [bind_ok (captureTimestamp_eq w₁), hnow] at h
  obtain ⟨stateJson, w₂, hbase, h⟩ := of_bind_ok h
  obtain ⟨previous, w₃, hload, hbase⟩ := of_bind_ok hbase
  obtain ⟨createdUtc, w₄, hcreated, hbase⟩ := of_bind_ok hbase
  cases hbase
  obtain ⟨_, w₅, hparent, h⟩ := of_bind_ok h
  obtain ⟨opened, w₆, hopened, h⟩ := of_bind_ok h
  cases h
  obtain ⟨hpasses, -, hreach, hwritable, rfl⟩ := openTruncated_ok_some_iff.mp hopened
  obtain ⟨hlook, hload⟩ := loadExistingStateOrEmpty_ok_iff.mp hload
  obtain ⟨hlook', hcreated⟩ := createdUtcForState_ok_iff.mp hcreated
  cases hfind : find w₁.tree call.path with
  | none =>
      have hnone : find w₁.tree call.caller.outputPaths.stateJsonPath = none := hfind
      simp only [World.tree_ticked, hnone, Option.isSome_none, Bool.false_eq_true,
        if_false] at hload
      obtain ⟨rfl, rfl⟩ := hload
      simp only [World.tree_after, World.tree_ticked, hnone, Option.isSome_none,
        Bool.false_eq_true, if_false] at hcreated
      obtain ⟨rfl, rfl⟩ := hcreated
      rw [World.after_after] at hparent
      exact ⟨false, false, .missing hdir hfind (by simpa using hlook) (by simpa using hlook')
        hparent hreach hwritable hpasses, rfl⟩
  | some node =>
      have hsome : find w₁.tree call.caller.outputPaths.stateJsonPath = some node := hfind
      simp only [World.tree_ticked, World.fault_ticked, hsome, Option.isSome_some,
        if_true] at hload
      obtain ⟨hread, rfl, rfl⟩ := hload
      simp only [World.tree_after, World.tree_ticked, World.fault_after, World.fault_ticked, hsome,
        Option.isSome_some, if_true, World.after_after] at hcreated hlook'
      obtain ⟨hread', rfl, rfl⟩ := hcreated
      -- the way to the file is there, so no directory is made
      have hway : Reaches (w₁.ticked.after 4).tree call.path := (find_eq_some_iff.mp hfind).1
      cases (ensureParentDirectory_of_reaches hway).symm.trans hparent
      cases node with
      | dir => exact absurd (find_eq_some_iff.mp hfind).2 hwritable.2.2
      | file content =>
          have hopens := Call.Opens.found hdir hfind hlook hread hlook' hread'
            (by simpa using hpasses)
          refine ⟨(w₁.fault 1).passes, (w₁.fault 3).passes, ?_, ?_⟩
          · rwa [← World.faults_after, ← World.after_after w₁ 4 1] at hopens
          · rw [Call.writtenManifest, before_of_find hext hfind]
            rfl

theorem openManifest_of_steps {w₂ w₃ w₄ : World} {previous : Json} {createdUtc : ByteString}
    (hdir : createDirectories call.caller.outputPaths.artifactDir w = (.ok (), w₁))
    (hload : loadExistingStateOrEmpty call.caller.outputPaths w₁.ticked = (.ok previous, w₂))
    (hcreated : createdUtcForState call.caller.outputPaths w.now w₂ = (.ok createdUtc, w₃))
    (hparent : ensureParentDirectory call.path w₃ = (.ok (), w₄))
    (hreach : Reaches w₄.tree call.path) (hwritable : w₄.tree.Writable call.path.locate)
    (hpasses : (w₄.fault 0).passes = true) :
    ∃ w', openManifest call.caller.config call.caller.outputPaths call.state call.amend w =
        (.ok (.object (call.amend w.now (manifest call.caller.config call.caller.outputPaths
          call.state previous createdUtc w.now)), some call.path.locate), w') ∧
      w'.faults = w₄.faults.drop 1 := by
  have hclock : w₁.clock = w.clock := (keeps_clock_createDirectories _ _).apply_ok rfl hdir
  have hnow : w₁.now = w.now := by rw [World.now, World.now, hclock]
  have hopen : openTruncated call.path w₄ = (.ok (some call.path.locate), _) :=
    openTruncated_ok_some_iff.mpr ⟨hpasses, rfl, hreach, hwritable, rfl⟩
  refine ⟨{ w₄.after 1 with tree := w₄.tree.put call.path.locate (.file []) hwritable }, ?_, rfl⟩
  unfold openManifest baseStateJson
  simp only [bind_assoc, pure_bind]
  rw [bind_ok hdir, bind_ok (captureTimestamp_eq w₁), hnow, bind_ok hload, bind_ok hcreated]
  refine (bind_ok hparent).trans ((bind_ok hopen).trans rfl)

/-- When the faults are those that are listed, the call opens its file. -/
theorem openManifest_of_opens {read readAgain : Bool} {rest : List Fault}
    (h : call.Opens w read readAgain rest) :
    ∃ w', openManifest call.caller.config call.caller.outputPaths call.state call.amend w =
        (.ok (.object (call.writtenManifest w read readAgain), some call.path.locate), w') ∧
      w'.faults = rest := by
  cases h with
  | @found w₁ content hdir hfind hlook hread hlook' hread' hopen =>
      obtain ⟨hext, -⟩ := (createDirectories_extends w.tree _).apply_ok rfl hdir
      have hreach := (find_eq_some_iff.mp hfind).1
      have hwritable := writable_of_file (find_eq_some_iff.mp hfind).2
      have hsome : find w₁.tree call.caller.outputPaths.stateJsonPath = some (.file content) :=
        hfind
      have hload : loadExistingStateOrEmpty call.caller.outputPaths w₁.ticked = _ :=
        loadExistingStateOrEmpty_ok_iff.mpr ⟨hlook, by
          rw [World.tree_ticked, hsome]
          exact ⟨hread, rfl, rfl⟩⟩
      have hcreated : createdUtcForState call.caller.outputPaths w.now (w₁.ticked.after 2) = _ :=
        createdUtcForState_ok_iff.mpr ⟨by simpa using hlook', by
          rw [World.tree_after, World.tree_ticked, hsome]
          exact ⟨by simpa using hread', rfl, rfl⟩⟩
      rw [World.after_after] at hcreated
      obtain ⟨w', hopened, hfaults⟩ := openManifest_of_steps hdir hload hcreated
        (ensureParentDirectory_of_reaches hreach) hreach hwritable (by simpa using hopen)
      refine ⟨w', ?_, by rw [hfaults, World.faults_after, List.drop_drop]; rfl⟩
      rw [hopened, Call.writtenManifest, before_of_find hext hfind]
      simp only [World.fault_after]
      rfl
  | @missing w₁ w₂ hdir hfind hlook hlook' hparent hreach hwritable hopen =>
      have hnone : find w₁.tree call.caller.outputPaths.stateJsonPath = none := hfind
      have hload : loadExistingStateOrEmpty call.caller.outputPaths w₁.ticked = _ :=
        loadExistingStateOrEmpty_ok_iff.mpr ⟨hlook, by
          rw [World.tree_ticked, hnone]
          exact ⟨rfl, rfl⟩⟩
      have hcreated : createdUtcForState call.caller.outputPaths w.now (w₁.ticked.after 1) = _ :=
        createdUtcForState_ok_iff.mpr ⟨by simpa using hlook', by
          rw [World.tree_after, World.tree_ticked, hnone]
          exact ⟨rfl, rfl⟩⟩
      rw [World.after_after] at hcreated
      exact openManifest_of_steps hdir hload hcreated hparent hreach hwritable hopen

/-! ### What the file has afterwards -/

theorem unchanged_of_extends (h : Extends t t') : SameContent l t t' ∧ StillFound t t' :=
  ⟨fun _ => h.get?_eq_file, stillFound_of_extends h⟩

/-- A file that has been opened and written to is unchanged when it has what it had. -/
theorem unchanged_iff {path : Path} {content : ByteString} (hopened : IsOpened path t t₁ l)
    (hhere : t'.get? l = some (.file content)) (helse : ∀ k, k ≠ l → t'.get? k = t₁.get? k) :
    SameContent path.locate t t' ∧ StillFound t t' ↔ t.get? l = some (.file content) := by
  obtain ⟨rfl, -, -, helsewhere⟩ := hopened
  constructor
  · rintro ⟨hsame, -⟩
    exact (hsame content).mp hhere
  · intro hbefore
    apply unchanged_of_extends
    intro k
    by_cases hk : k = path.locate
    · exact Or.inl (by rw [hk, hhere, hbefore])
    · rw [helse k hk]
      exact helsewhere k hk

/-- The condition on a call that opens its file and whose strings can be dumped. -/
theorem allOrNothing_of_isUtf8 {read readAgain : Bool} (hutf : call.IsUtf8)
    (hopened : IsOpened call.path w.tree w₁.tree call.path.locate)
    (hrun : call.run w = finishManifest call.path
      (.object (call.writtenManifest w read readAgain)) (some call.path.locate) w₁) :
    call.AllOrNothing w ↔ call.WriteSpares w read readAgain (w₁.fault 0) := by
  have hwritten := (isUtf8_writtenManifest_iff call w read readAgain).mpr hutf
  have hnew : (Json.object (call.newManifest w)).isUtf8 = true :=
    (isUtf8_writtenManifest_iff call w true true).mpr hutf
  have hparse := JsonText.parse_dumpIndented _ hnew (isPlain_writtenManifest call w true true)
  -- of what is written, the first bytes are the new manifest only if nothing is lost
  have hsame : ∀ {text : ByteString}, text <+: manifestText
      (.object (call.writtenManifest w read readAgain)) →
        text = JsonText.dumpIndented (.object (call.newManifest w)) ++ [newline] →
          call.writtenManifest w read readAgain = call.newManifest w := by
    rintro text hpart rfl
    obtain ⟨heq, -⟩ := eq_of_parse_manifestText (isPlain_writtenManifest call w read readAgain)
      hpart hparse
    exact (Json.object.inj heq).symm
  rw [finishManifest_of_isUtf8 _ hwritten, manifestText_of_isUtf8 hwritten] at hrun
  rw [manifestText_of_isUtf8 hwritten] at hsame
  unfold Call.AllOrNothing
  rw [hrun]
  cases hfault : w₁.fault 0 with
  | none =>
      simp only [Fault.arrived]
      rw [hopened.find_appended, Call.WriteSpares, ← writtenManifest_eq_iff]
      constructor
      · rintro ⟨-, hcomplete⟩
        exact hsame List.prefix_rfl (Node.file.inj (Option.some.inj hcomplete))
      · intro heq
        rw [heq]
        exact ⟨hnew, rfl⟩
  | reported reached =>
      have hkept : SameContent call.path.locate w.tree (appended w₁.tree call.path.locate
            ((call.text w read readAgain).take reached)) ∧
          StillFound w.tree (appended w₁.tree call.path.locate
            ((call.text w read readAgain).take reached)) ↔
              w.tree.get? call.path.locate =
                some (.file ((call.text w read readAgain).take reached)) := by
        refine unchanged_iff hopened ?_ fun k hk => ?_
        · exact (hopened.get?_appended _ _).trans (if_pos rfl)
        · exact (hopened.get?_appended _ _).trans (if_neg hk)
      refine hkept.trans ⟨?_, ?_⟩
      · exact fun hbefore => ⟨_, hbefore, List.take_prefix _ _, List.length_take⟩
      · rintro ⟨content, hbefore, hprefix, hlength⟩
        rw [hbefore, List.prefix_iff_eq_take.mp hprefix, hlength, ← List.take_eq_take_min]
  | crash reached => exact iff_of_true trivial trivial
  | unnoticed reached =>
      simp only [Fault.arrived]
      rw [hopened.find_appended, Call.WriteSpares, ← writtenManifest_eq_iff]
      constructor
      · rintro ⟨-, hcomplete⟩
        have htext := Node.file.inj (Option.some.inj hcomplete)
        have heq := hsame (List.take_prefix _ _) htext
        rw [← heq] at htext
        exact ⟨heq, (List.take_eq_self_iff _).mp htext⟩
      · rintro ⟨heq, hlength⟩
        rw [Call.text] at hlength
        rw [List.take_of_length_le hlength, heq]
        exact ⟨hnew, rfl⟩

/-- The condition on a call that opens its file and whose strings cannot be dumped. -/
theorem allOrNothing_of_not_isUtf8 {read readAgain : Bool} (hutf : ¬ call.IsUtf8)
    (hopened : IsOpened call.path w.tree w₁.tree call.path.locate)
    (hrun : call.run w = finishManifest call.path
      (.object (call.writtenManifest w read readAgain)) (some call.path.locate) w₁) :
    call.AllOrNothing w ↔ w.tree.get? call.path.locate = some (.file []) := by
  have hwritten : (Json.object (call.writtenManifest w read readAgain)).isUtf8 ≠ true :=
    fun h => hutf ((isUtf8_writtenManifest_iff call w read readAgain).mp h)
  unfold Call.AllOrNothing
  rw [hrun, finishManifest_of_not_isUtf8 _ hwritten]
  exact unchanged_iff hopened hopened.here fun _ _ => rfl

theorem allOrNothing_of_opens {read readAgain : Bool} {rest : List Fault}
    (h : call.Opens w read readAgain rest) :
    call.AllOrNothing w ↔ call.SparesWhen w read readAgain (rest.headD .none) := by
  have hpost := triple_openManifest w.tree call.caller.config call.caller.outputPaths call.state
    call.amend
  obtain ⟨w₁, hopen, rfl⟩ := openManifest_of_opens h
  obtain ⟨-, hopened⟩ := hpost.apply_ok rfl hopen
  have hrun : call.run w = finishManifest call.path
      (.object (call.writtenManifest w read readAgain)) (some call.path.locate) w₁ := by
    rw [call.run_eq, rewriteState_eq, bind_ok hopen]
    rfl
  rw [w₁.headD_faults]
  by_cases hutf : call.IsUtf8
  · rw [allOrNothing_of_isUtf8 hutf hopened hrun]
    exact ⟨fun h => ⟨fun _ => h, fun hnot => absurd hutf hnot⟩, fun h => h.written hutf⟩
  · rw [allOrNothing_of_not_isUtf8 hutf hopened hrun]
    exact ⟨fun h => ⟨fun hutf' => absurd hutf' hutf, fun _ => h⟩, fun h => h.emptied hutf⟩

/-- A call that does not open its file changes nothing. -/
theorem allOrNothing_of_not_opens (h : ∀ read readAgain rest, ¬ call.Opens w read readAgain rest) :
    call.AllOrNothing w := by
  have hpost := triple_openManifest w.tree call.caller.config call.caller.outputPaths call.state
    call.amend
  have heq := call.run_eq
  rw [rewriteState_eq] at heq
  unfold Call.AllOrNothing
  cases hopen : openManifest call.caller.config call.caller.outputPaths call.state call.amend w with
  | mk r w₁ =>
      cases r with
      | error e =>
          rw [heq, bind_error hopen]
          cases e with
          | thrown failure => exact unchanged_of_extends (hpost.apply_error rfl hopen)
          | crash => trivial
      | ok opened =>
          obtain ⟨value, place⟩ := opened
          cases place with
          | none =>
              rw [heq, bind_ok hopen]
              exact unchanged_of_extends (hpost.apply_ok rfl hopen).2
          | some l =>
              obtain ⟨read, readAgain, hopens, -⟩ := opens_of_openManifest hopen
              exact absurd hopens (h _ _ _)

theorem not_allOrNothing_of_emptied {f : Failure}
    (hstop : (call.run w).1 = .error (.thrown f))
    (hafter : (call.run w).2.tree.get? call.path.locate = some (.file []))
    (hbefore : w.tree.get? call.path.locate ≠ some (.file [])) :
    ¬ call.AllOrNothing w := by
  have hrun : call.run w = (.error (.thrown f), (call.run w).2) := Prod.ext hstop rfl
  unfold Call.AllOrNothing
  rw [hrun]
  rintro ⟨hsame, -⟩
  exact hbefore ((hsame []).mp hafter)

/-- A call is all or nothing just when no harm is done once its file is open. -/
theorem allOrNothing_iff (call : Call) (w : World) : call.AllOrNothing w ↔ call.Spares w := by
  constructor
  · intro hall read readAgain rest hopens
    exact (allOrNothing_of_opens hopens).mp hall
  · intro hspares
    by_cases h : ∃ read readAgain rest, call.Opens w read readAgain rest
    · obtain ⟨read, readAgain, rest, hopens⟩ := h
      exact (allOrNothing_of_opens hopens).mpr (hspares _ _ _ hopens)
    · exact allOrNothing_of_not_opens fun read readAgain rest hopens =>
        h ⟨read, readAgain, rest, hopens⟩

end AllOrNothing

section Sample

/-- An upload of the session of the victim fails with a message that is not UTF-8. -/
def unreadableFailure : Call where
  caller := ⟨victimConfig, .inDirectory "/d/pending/s", ⟨"t2", 2⟩, by decide⟩
  write := .recordArtifactUploadFailure [255]

/-- The call throws, and the manifest that was there is gone. -/
theorem not_allOrNothing_unreadableFailure : ¬ unreadableFailure.AllOrNothing victimCapture.2 := by
  apply not_allOrNothing_of_emptied (f := .invalidUtf8)
  · decide +kernel
  · decide +kernel
  · decide +kernel

end Sample

end BtClient
