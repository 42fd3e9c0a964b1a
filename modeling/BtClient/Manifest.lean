import BtClient.ArtifactLifecycle

/-!
# What a manifest says

The members of the manifests that the client puts together: they are those of
`manifestMembers`, and the upload history of the manifest that was there before, to which
a failed upload adds one entry.
-/

namespace BtClient

open Json

theorem lookup_keepMember {previous : Json} {key k : String} {accepts : Json → Bool}
    {members : Members} :
    (keepMember previous key accepts members).lookup k =
      if k = key then ((previous.find key).filter accepts).or (members.lookup k)
      else members.lookup k := by
  unfold keepMember
  cases hfind : previous.find key with
  | none => simp
  | some value =>
      cases haccepts : accepts value with
      | false => simp [Option.filter, haccepts]
      | true => simp [Members.lookup_set, Option.filter, haccepts]

/-- The members that are taken over from the previous manifest. -/
def historyKeys : List String :=
  ["upload_failures", "last_upload_failure", "upload_attempt_count", "last_upload_attempt_utc"]

/-- The same members with the types that their values must have. -/
def historyMembers : List (String × (Json → Bool)) :=
  [("upload_failures", Json.isArray), ("last_upload_failure", Json.isObject),
    ("upload_attempt_count", Json.isNumberInteger), ("last_upload_attempt_utc", Json.isString)]

section Manifest

variable {config : RuntimeConfig} {outputPaths : OutputPaths} {state : ArtifactState}
  {previous : Json} {createdUtc : ByteString} {now : TimestampPair}

theorem lookup_manifest {k : String} (hk : k ∉ historyKeys) :
    (manifest config outputPaths state previous createdUtc now).lookup k =
      (manifestMembers config outputPaths state createdUtc now).lookup k := by
  simp only [historyKeys, List.mem_cons, List.not_mem_nil, or_false, not_or] at hk
  simp [manifest, lookup_keepMember, hk]

theorem lookup_manifestMembers (k : String) :
    (manifestMembers config outputPaths state createdUtc now).lookup k =
      List.lookup k [
        ("schema_version", .integer 1),
        ("state", Json.text (artifactStateName state)),
        ("run_id", .string config.runId),
        ("session_id", .string config.sessionId),
        ("created_utc", .string createdUtc),
        ("updated_utc", Json.text now.utcTs),
        ("artifact_dir", .string outputPaths.artifactDir.bytes),
        ("destination_url_configured", .bool !config.destinationUrl.isEmpty),
        ("files", Json.obj [
          ("state_json", .string outputPaths.stateJsonPath.bytes),
          ("event_log", .string outputPaths.eventLogPath.bytes),
          ("summary_json", .string outputPaths.summaryJsonPath.bytes)])] :=
  Members.lookup_ofList (by simp) k

/-- The value that the manifest has under `files`. -/
def filesMember (outputPaths : OutputPaths) : Json :=
  Json.obj [
    ("state_json", .string outputPaths.stateJsonPath.bytes),
    ("event_log", .string outputPaths.eventLogPath.bytes),
    ("summary_json", .string outputPaths.summaryJsonPath.bytes)]

theorem manifest_state :
    (manifest config outputPaths state previous createdUtc now).lookup "state" =
      some (Json.text (artifactStateName state)) := by
  rw [lookup_manifest (by decide), lookup_manifestMembers]
  rfl

theorem manifest_files :
    (manifest config outputPaths state previous createdUtc now).lookup "files" =
      some (filesMember outputPaths) := by
  rw [lookup_manifest (by decide), lookup_manifestMembers]
  rfl

theorem find_filesMember (k : String) :
    (filesMember outputPaths).find k = List.lookup k [
      ("state_json", .string outputPaths.stateJsonPath.bytes),
      ("event_log", .string outputPaths.eventLogPath.bytes),
      ("summary_json", .string outputPaths.summaryJsonPath.bytes)] :=
  Members.lookup_ofList (by simp) k

/-- The entries in the history of failed uploads. -/
def failureHistory (value : Json) : List Json :=
  match value.find "upload_failures" with
  | some (.array items) => items
  | _ => []

/-- The number of failed uploads that the value tells. -/
def attemptCount (value : Json) : Int :=
  match value.find "upload_attempt_count" with
  | some (.integer n) => n
  | _ => 0

theorem lookup_manifestMembers_history {k : String} (hk : k ∈ historyKeys) :
    (manifestMembers config outputPaths state createdUtc now).lookup k = none := by
  rw [lookup_manifestMembers]
  apply Json.Members.lookup_eq_none
  simp only [historyKeys, List.mem_cons, List.not_mem_nil, or_false] at hk
  rcases hk with rfl | rfl | rfl | rfl <;> simp

/-- The members of the history are those of the previous manifest that have the right
type. -/
theorem lookup_manifest_history {k : String} (accepts : Json → Bool)
    (hk : (k, accepts) ∈ historyMembers) :
    (manifest config outputPaths state previous createdUtc now).lookup k =
      (previous.find k).filter accepts := by
  simp only [historyMembers, List.mem_cons, Prod.mk.injEq, List.not_mem_nil, or_false] at hk
  rcases hk with ⟨rfl, rfl⟩ | ⟨rfl, rfl⟩ | ⟨rfl, rfl⟩ | ⟨rfl, rfl⟩ <;>
    simp only [manifest, lookup_keepMember, String.reduceEq, reduceIte] <;>
    rw [lookup_manifestMembers_history (by decide), Option.or_none]

/-- A manifest has the upload failures of the previous one. -/
theorem failureHistory_manifest :
    failureHistory (.object (manifest config outputPaths state previous createdUtc now)) =
      failureHistory previous := by
  rw [failureHistory, failureHistory, Json.find,
    lookup_manifest_history Json.isArray (by simp [historyMembers])]
  cases hfind : previous.find "upload_failures" with
  | none => rfl
  | some value => cases value <;> rfl

theorem attemptCount_manifest :
    attemptCount (.object (manifest config outputPaths state previous createdUtc now)) =
      attemptCount previous := by
  rw [attemptCount, attemptCount, Json.find,
    lookup_manifest_history Json.isNumberInteger (by simp [historyMembers])]
  cases hfind : previous.find "upload_attempt_count" with
  | none => rfl
  | some value => cases value <;> rfl

end Manifest

section WithUploadFailure

variable {failure : Json} {now : TimestampPair} {members : Members}

theorem lookup_withUploadFailure {k : String} (hk : k ∉ historyKeys) :
    (withUploadFailure failure now members).lookup k = members.lookup k := by
  simp only [historyKeys, List.mem_cons, List.not_mem_nil, or_false, not_or] at hk
  simp [withUploadFailure, Members.lookup_set, hk]

/-- The history when a failed upload has been added. -/
theorem lookup_withUploadFailure_history {k : String} (hk : k ∈ historyKeys) :
    (withUploadFailure failure now members).lookup k = List.lookup k [
      ("upload_failures", .array (failureHistory (.object members) ++ [failure])),
      ("last_upload_failure", failure),
      ("upload_attempt_count", .integer (attemptCount (.object members) + 1)),
      ("last_upload_attempt_utc", Json.text now.utcTs)] := by
  simp only [historyKeys, List.mem_cons, List.not_mem_nil, or_false] at hk
  rcases hk with rfl | rfl | rfl | rfl <;>
    simp only [withUploadFailure, Members.lookup_set, String.reduceEq, reduceIte] <;> rfl

/-- A failed upload adds one entry to the history. -/
theorem failureHistory_withUploadFailure :
    failureHistory (.object (withUploadFailure failure now members)) =
      failureHistory (.object members) ++ [failure] := by
  rw [failureHistory, Json.find, lookup_withUploadFailure_history (by decide)]
  rfl

theorem attemptCount_withUploadFailure :
    attemptCount (.object (withUploadFailure failure now members)) =
      attemptCount (.object members) + 1 := by
  rw [attemptCount, Json.find, lookup_withUploadFailure_history (by decide)]
  rfl

end WithUploadFailure

/-! ### Manifests that can be read back -/

section Plain

variable {isDouble : ℚ → Bool}

theorem isPlain_keepMember {previous : Json} {key : String} {accepts : Json → Bool}
    {members : Members} (h : (Json.object members).isPlain isDouble = true)
    (hprevious : previous.isPlain isDouble = true) :
    (Json.object (keepMember previous key accepts members)).isPlain isDouble = true := by
  unfold keepMember
  cases hfind : previous.find key with
  | none => exact h
  | some value =>
      dsimp only
      split
      · exact Members.isPlain_set h (isPlain_of_find hprevious hfind)
      · exact h

/-- A manifest is plain if the previous one is. -/
theorem isPlain_manifest (config : RuntimeConfig) (outputPaths : OutputPaths)
    (state : ArtifactState) {previous : Json} (createdUtc : ByteString) (now : TimestampPair)
    (hprevious : previous.isPlain isDouble = true) :
    (Json.object (manifest config outputPaths state previous createdUtc now)).isPlain
      isDouble = true := by
  have hfiles : (filesMember outputPaths).isPlain isDouble = true :=
    isPlain_obj (by simp [Json.isPlain])
  have hmembers : (Json.object (manifestMembers config outputPaths state createdUtc
      now)).isPlain isDouble = true := by
    apply isPlain_obj
    simp only [List.forall_mem_cons, List.not_mem_nil, false_implies, implies_true, and_true]
    exact ⟨rfl, rfl, rfl, rfl, rfl, rfl, rfl, rfl, hfiles⟩
  exact isPlain_keepMember (isPlain_keepMember (isPlain_keepMember
    (isPlain_keepMember hmembers hprevious) hprevious) hprevious) hprevious

theorem isPlain_uploadFailure (config : RuntimeConfig) (errorMessage : ByteString)
    (now : TimestampPair) : (uploadFailure config errorMessage now).isPlain isDouble = true :=
  isPlain_obj (by simp [Json.isPlain, Json.text])

theorem isPlain_withUploadFailure {failure : Json} {now : TimestampPair} {members : Members}
    (h : (Json.object members).isPlain isDouble = true)
    (hfailure : failure.isPlain isDouble = true) :
    (Json.object (withUploadFailure failure now members)).isPlain isDouble = true := by
  have hhistory : ∀ v ∈ failureHistory (.object members), v.isPlain isDouble = true := by
    unfold failureHistory
    cases hfind : (Json.object members).find "upload_failures" with
    | none => simp
    | some value =>
        have hvalue := isPlain_of_find h hfind
        cases value with
        | array items => exact itemsArePlain_iff.mp hvalue
        | _ => simp
  have hfailures : (Json.array (failureHistory (.object members) ++ [failure])).isPlain
      isDouble = true := by
    apply itemsArePlain_iff.mpr
    intro v hv
    rcases List.mem_append.mp hv with hv | hv
    · exact hhistory v hv
    · rw [List.mem_singleton.mp hv]
      exact hfailure
  exact Members.isPlain_set (Members.isPlain_set (Members.isPlain_set
    (Members.isPlain_set h hfailures) hfailure) rfl) rfl

end Plain

end BtClient
