import BtClient.FileSystemRules
import BtClient.Manifest

/-!
# What the lifecycle functions do to the file system

Every function of the lifecycle writes to at most one file, the manifest it is given, and
adds directories; archiving moves one directory. Whatever it does not write to, it keeps,
and of a manifest the first bytes are there even when writing it went wrong.
-/

namespace BtClient

open Effect FileSystem

section Rules

variable [JsonText]

/-- The text that writing a manifest puts into the file; a value that is not UTF-8 leaves
it empty. -/
def manifestText (value : Json) : ByteString :=
  if value.isUtf8 then JsonText.dumpIndented value ++ [newline] else []

theorem manifestText_of_isUtf8 {value : Json} (h : value.isUtf8 = true) :
    manifestText value = JsonText.dumpIndented value ++ [newline] := if_pos h

/-- Whatever of a manifest has arrived in the file, it is read as this manifest or not at
all. -/
theorem eq_of_parse_manifestText {members : Json.Members}
    (hplain : (Json.object members).isPlain JsonText.isDouble = true) {text : ByteString}
    (htext : text <+: manifestText (.object members)) {value : Json}
    (hvalue : JsonText.parse text = some value) :
    value = .object members ∧ (Json.object members).isUtf8 = true := by
  unfold manifestText at htext
  split at htext
  · next hutf =>
      exact ⟨JsonText.parse_prefix _ _ _ hutf hplain rfl htext hvalue, hutf⟩
  · rw [List.prefix_nil.mp htext, JsonText.parse_nil] at hvalue
    cases hvalue

/-- At `l` there is a file with the first bytes of a text; elsewhere only directories have
been added. -/
structure Overwritten (l : Location) (full : ByteString) (t t' : Tree) : Prop where
  elsewhere : ∀ k, k ≠ l →
    t'.get? k = t.get? k ∨ (t.get? k = none ∧ t'.get? k = some .dir)
  here : ∃ text, text <+: full ∧ t'.get? l = some (.file text)

namespace Overwritten

variable {l : Location} {full : ByteString} {t t' : Tree}

omit [JsonText] in
theorem get?_of_ne (h : Overwritten l full t t') {k : Location} (hk : k ≠ l)
    {node : Node ByteString} (hnode : t.get? k = some node) : t'.get? k = some node := by
  rcases h.elsewhere k hk with heq | ⟨hnone, -⟩
  · rw [heq, hnode]
  · rw [hnode] at hnone
    cases hnone

omit [JsonText] in
theorem get?_eq_file (h : Overwritten l full t t') {k : Location} (hk : k ≠ l)
    {content : ByteString} :
    t'.get? k = some (.file content) ↔ t.get? k = some (.file content) := by
  constructor
  · intro hfile
    rcases h.elsewhere k hk with heq | ⟨-, hdir⟩
    · rw [← heq, hfile]
    · rw [hdir] at hfile
      cases hfile
  · exact h.get?_of_ne hk

omit [JsonText] in
theorem of_extends {t₁ : Tree} (hext : Extends t t₁) (h : Overwritten l full t₁ t') :
    Overwritten l full t t' := by
  refine ⟨fun k hk => ?_, h.here⟩
  rcases h.elsewhere k hk with heq | ⟨hnone, hdir⟩
  · rw [heq]
    exact hext k
  · rcases hext k with heq' | ⟨-, hdir'⟩
    · exact Or.inr ⟨heq' ▸ hnone, hdir⟩
    · rw [hdir'] at hnone
      cases hnone

end Overwritten

theorem readsOnly_dumpIndented (value : Json) : ReadsOnly (dumpIndented value) := by
  unfold dumpIndented
  split
  · exact ReadsOnly.pure _
  · exact ReadsOnly.throwFailure _

theorem readsOnly_readJsonFile (path : Path) : ReadsOnly (readJsonFile path) := by
  apply ReadsOnly.bind (readsOnly_openForReading path)
  intro content
  split
  · exact ReadsOnly.throwFailure _
  · split
    · exact ReadsOnly.pure _
    · exact ReadsOnly.throwFailure _

theorem readsOnly_createdUtcForState (outputPaths : OutputPaths) (now : TimestampPair) :
    ReadsOnly (createdUtcForState outputPaths now) := by
  apply ReadsOnly.bind (readsOnly_pathExists _)
  intro found
  split
  · exact ReadsOnly.catchFailure
      (ReadsOnly.bind (readsOnly_readJsonFile _) fun _ => ReadsOnly.pure _)
      fun _ => ReadsOnly.pure _
  · exact ReadsOnly.pure _

theorem readsOnly_loadExistingStateOrEmpty (outputPaths : OutputPaths) :
    ReadsOnly (loadExistingStateOrEmpty outputPaths) := by
  apply ReadsOnly.bind (readsOnly_pathExists _)
  intro found
  split
  · exact ReadsOnly.catchFailure
      (ReadsOnly.bind (readsOnly_readJsonFile _) fun _ => ReadsOnly.pure _)
      fun _ => ReadsOnly.pure _
  · exact ReadsOnly.pure _

theorem readsOnly_baseStateJson (config : RuntimeConfig) (outputPaths : OutputPaths)
    (state : ArtifactState) (now : TimestampPair) :
    ReadsOnly (baseStateJson config outputPaths state now) :=
  ReadsOnly.bind (readsOnly_loadExistingStateOrEmpty outputPaths) fun _ =>
    ReadsOnly.bind (readsOnly_createdUtcForState outputPaths now) fun _ => ReadsOnly.pure _

omit [JsonText] in
theorem triple_ensureParentDirectory (t₀ : Tree) (path : Path) :
    Triple (OnTree (· = t₀)) (ensureParentDirectory path) (fun _ => OnTree (Extends t₀))
      (fun _ => OnTree (Extends t₀)) := by
  unfold ensureParentDirectory
  apply Triple.ite
  · intro _
    exact Triple.pure fun w hw => hw ▸ Extends.refl _
  · intro _
    exact (createDirectories_extends t₀ _).conseq (fun _ h => h) (fun _ _ h => h.1)
      fun _ _ h => h

omit [JsonText] in
theorem overwritten_append {t t' : Tree} {l : Location} {full : ByteString}
    (hext : Extends t t') (hw : t'.Writable l) (n : ℕ) :
    Overwritten l full t (appended (t'.put l (.file []) hw) l (full.take n)) := by
  have hempty : (t'.put l (.file []) hw).get? l = some (.file []) := by
    rw [FileTree.get?_put, if_pos rfl]
  refine ⟨?_, full.take n, List.take_prefix n full, ?_⟩
  · intro k hk
    rw [get?_appended hempty, if_neg hk, FileTree.get?_put, if_neg hk]
    exact hext k
  · rw [get?_appended hempty, if_pos rfl]
    rfl

omit [JsonText] in
theorem overwritten_put {t t' : Tree} {l : Location} (full : ByteString)
    (hext : Extends t t') (hw : t'.Writable l) :
    Overwritten l full t (t'.put l (.file []) hw) := by
  refine ⟨?_, [], List.nil_prefix, ?_⟩
  · intro k hk
    rw [FileTree.get?_put, if_neg hk]
    exact hext k
  · rw [FileTree.get?_put, if_pos rfl]

omit [JsonText] in
/-- A file is reached through directories, which writing to it leaves alone. -/
theorem reaches_append {t : Tree} {path : Path} (h : Reaches t path)
    (hw : t.Writable path.locate) (data : ByteString) :
    Reaches (appended (t.put path.locate (.file []) hw) path.locate data) path := by
  intro d hd
  have hdir := h d hd
  have hne : d ≠ path.locate := fun heq => hw.2.2 (heq ▸ hdir)
  have hempty : (t.put path.locate (.file []) hw).get? path.locate = some (.file []) := by
    rw [FileTree.get?_put, if_pos rfl]
  rw [FileTree.isDir, get?_appended hempty, if_neg hne, FileTree.get?_put, if_neg hne]
  exact hdir

/-- Writing a manifest: when it returns, the text was UTF-8 and the file is there; in any
case nothing else has changed. -/
theorem triple_writeJsonFile (t₀ : Tree) (path : Path) (value : Json) :
    Triple (OnTree (· = t₀)) (writeJsonFile path value)
      (fun _ => OnTree fun t => value.isUtf8 = true ∧ Reaches t path ∧
        Overwritten path.locate (manifestText value) t₀ t)
      (fun _ => OnTree fun t => Extends t₀ t ∨
        Overwritten path.locate (manifestText value) t₀ t) := by
  unfold writeJsonFile
  refine Triple.bind (S := fun _ => OnTree (Extends t₀))
    ((triple_ensureParentDirectory t₀ path).conseq (fun _ h => h) (fun _ _ h => h) ?_) ?_
  · exact fun _ w h => Or.inl h
  intro _
  apply triple_onTree
  intro t₁ hext
  refine Triple.bind
    ((triple_openTruncated t₁ path).conseq (fun _ h => h) (fun _ _ h => h) ?_) ?_
  · exact fun _ w h => onTree_of_eq h (Or.inl hext)
  intro opened
  cases opened with
  | none => exact Triple.throw fun w h => onTree_of_eq h (Or.inl hext)
  | some l =>
      apply triple_onTree
      rintro t₂ ⟨rfl, hreach, hw, rfl⟩
      have hput := overwritten_put (manifestText value) hext hw
      unfold dumpIndented
      cases hutf : value.isUtf8 with
      | false =>
          rw [if_neg Bool.false_ne_true]
          exact fun w hw => onTree_of_eq hw (Or.inr hput)
      | true =>
          rw [if_pos rfl]
          apply Triple.pure_bind
          have happend : ∀ n, Overwritten _ (manifestText value) t₀ _ :=
            overwritten_append hext hw
          rw [manifestText_of_isUtf8 hutf] at happend ⊢
          refine Triple.bind ((triple_writeBuffered _ path.locate
            (JsonText.dumpIndented value ++ [newline])).conseq (fun _ h => h)
            (fun _ _ h => h) ?_) ?_
          · rintro _ w ⟨n, hn⟩
            rw [OnTree, hn]
            exact Or.inr (happend n)
          · intro good
            cases good with
            | true =>
                apply Triple.pure
                rintro w ⟨n, hn⟩
                rw [OnTree, hn]
                exact ⟨rfl, reaches_append hreach hw _, happend n⟩
            | false =>
                apply Triple.throw
                rintro w ⟨n, hn⟩
                rw [OnTree, hn]
                exact Or.inr (happend n)

/-! ### Rewriting a manifest -/

/-- The file at the path can be read as the value. -/
def Holds (t : Tree) (path : Path) (value : Json) : Prop :=
  ∃ content, find t path = some (.file content) ∧ JsonText.parse content = some value

/-- The previous manifest that is taken into account: the one in the file, or none. -/
def Previous (t : Tree) (l : Location) (previous : Json) : Prop :=
  previous = .object [] ∨ ∃ content, t.get? l = some (.file content) ∧
    JsonText.parse content = some previous ∧ previous.isObject = true

namespace Previous

variable {t t' : Tree} {l : Location} {previous : Json}

theorem of_extends (h : Previous t' l previous) (hext : Extends t t') :
    Previous t l previous := by
  rcases h with hempty | ⟨content, hget, hparse, hobject⟩
  · exact Or.inl hempty
  · exact Or.inr ⟨content, hext.get?_eq_file.mp hget, hparse, hobject⟩

theorem isPlain (h : Previous t l previous) : previous.isPlain JsonText.isDouble = true := by
  rcases h with rfl | ⟨content, -, hparse, -⟩
  · rfl
  · exact JsonText.isPlain_of_parse hparse

end Previous

theorem triple_readJsonFile (t₀ : Tree) (path : Path) :
    Triple (OnTree (· = t₀)) (readJsonFile path)
      (fun value w => w.tree = t₀ ∧ Holds t₀ path value) (fun _ => OnTree (· = t₀)) := by
  apply Triple.bind (triple_openForReading t₀ path)
  intro r
  cases r with
  | none => exact Triple.throw fun _ h => h.1
  | some content =>
      dsimp only
      cases hparse : JsonText.parse content with
      | none => exact Triple.throw fun _ h => h.1
      | some value =>
          apply Triple.pure
          rintro w ⟨htree, hcontent⟩
          refine ⟨htree, content, ?_, hparse⟩
          have hread : contentAt t₀ path = some content := by
            rcases hcontent with hnone | hcontent
            · cases hnone
            · exact hcontent.symm
          unfold contentAt at hread
          split at hread
          · next content' hfile =>
              cases hread
              exact hfile
          · cases hread
            rw [JsonText.parse_nil] at hparse
            cases hparse
          · cases hread

theorem triple_loadExistingStateOrEmpty (t₀ : Tree) (outputPaths : OutputPaths) :
    Triple (OnTree (· = t₀)) (loadExistingStateOrEmpty outputPaths)
      (fun previous w => w.tree = t₀ ∧ Previous t₀ outputPaths.stateJsonPath.locate previous)
      (fun _ => OnTree (· = t₀)) := by
  apply Triple.bind (readsOnly_pathExists _ t₀)
  intro found
  apply Triple.ite
  · intro _
    apply triple_catchFailure (S := fun _ => OnTree (· = t₀))
    · refine Triple.bind ((triple_readJsonFile t₀ outputPaths.stateJsonPath).conseq
        (fun _ h => h) (fun _ _ h => h) ?_) ?_
      · intro e w h
        cases e <;> exact h
      · intro value
        apply Triple.pure
        rintro w ⟨htree, content, hfind, hparse⟩
        refine ⟨htree, ?_⟩
        split
        · next hobject =>
            exact Or.inr ⟨content, (find_eq_some_iff.mp hfind).2, hparse, hobject⟩
        · exact Or.inl rfl
    · exact fun _ => Triple.pure fun _ h => ⟨h, Or.inl rfl⟩
  · exact fun _ => Triple.pure fun _ h => ⟨h, Or.inl rfl⟩

theorem triple_baseStateJson (t₀ : Tree) (config : RuntimeConfig) (outputPaths : OutputPaths)
    (state : ArtifactState) (now : TimestampPair) :
    Triple (OnTree (· = t₀)) (baseStateJson config outputPaths state now)
      (fun members w => w.tree = t₀ ∧ ∃ previous createdUtc,
        Previous t₀ outputPaths.stateJsonPath.locate previous ∧
          members = manifest config outputPaths state previous createdUtc now)
      (fun _ => OnTree (· = t₀)) := by
  apply Triple.bind (triple_loadExistingStateOrEmpty t₀ outputPaths)
  intro previous
  apply Triple.of_pre
  intro hprevious
  apply Triple.bind (readsOnly_createdUtcForState outputPaths now t₀)
  intro createdUtc
  exact Triple.pure fun w hw => ⟨hw, previous, createdUtc, hprevious, rfl⟩

/-- A manifest that `rewriteState` puts together from what is in the tree. -/
def IsAmended (t : Tree) (config : RuntimeConfig) (outputPaths : OutputPaths)
    (state : ArtifactState) (amend : TimestampPair → Json.Members → Json.Members)
    (members : Json.Members) : Prop :=
  ∃ previous createdUtc now, Previous t outputPaths.stateJsonPath.locate previous ∧
    members = amend now (manifest config outputPaths state previous createdUtc now)

/-- Whatever happens, only the file of the manifest is written to, and what arrives there
is the beginning of a manifest. -/
theorem triple_rewriteState (t₀ : Tree) (config : RuntimeConfig) (outputPaths : OutputPaths)
    (state : ArtifactState) (amend : TimestampPair → Json.Members → Json.Members) :
    Triple (OnTree (· = t₀)) (rewriteState config outputPaths state amend)
      (fun _ => OnTree fun t => ∃ members,
        IsAmended t₀ config outputPaths state amend members ∧
          (Json.object members).isUtf8 = true ∧ Reaches t outputPaths.stateJsonPath ∧
            Overwritten outputPaths.stateJsonPath.locate (manifestText (.object members)) t₀ t)
      (fun _ => OnTree fun t => Extends t₀ t ∨ ∃ members,
        IsAmended t₀ config outputPaths state amend members ∧
          Overwritten outputPaths.stateJsonPath.locate (manifestText (.object members))
            t₀ t) := by
  unfold rewriteState
  refine Triple.bind (S := fun _ => OnTree (Extends t₀))
    ((createDirectories_extends t₀ outputPaths.artifactDir).conseq (fun _ h => h)
      (fun _ _ h => h.1) ?_) ?_
  · exact fun _ w h => Or.inl h
  intro _
  apply triple_onTree
  intro t₁ hext
  refine Triple.bind ((readsOnly_captureTimestamp t₁).conseq (fun _ h => h) (fun _ _ h => h)
    ?_) ?_
  · exact fun _ w h => onTree_of_eq h (Or.inl hext)
  intro now
  refine Triple.bind ((triple_baseStateJson t₁ config outputPaths state now).conseq
    (fun _ h => h) (fun _ _ h => h) ?_) ?_
  · exact fun _ w h => onTree_of_eq h (Or.inl hext)
  intro stateJson
  apply Triple.of_pre
  rintro ⟨previous, createdUtc, hprevious, rfl⟩
  have hamended : IsAmended t₀ config outputPaths state amend
      (amend now (manifest config outputPaths state previous createdUtc now)) :=
    ⟨previous, createdUtc, now, hprevious.of_extends hext, rfl⟩
  refine (triple_writeJsonFile t₁ _ _).conseq (fun _ h => h) ?_ ?_
  · rintro _ w ⟨hutf, hreach, hover⟩
    exact ⟨_, hamended, hutf, hreach, hover.of_extends hext⟩
  · rintro _ w (hmore | hover)
    · exact Or.inl (hext.trans hmore)
    · exact Or.inr ⟨_, hamended, hover.of_extends hext⟩

/-! ### What writing a manifest keeps -/

omit [JsonText] in
theorem keeps_ensureParentDirectory {I : Tree → Prop}
    (hcreate : ∀ p, Keeps (OnTree I) (createDirectories p)) (p : Path) :
    Keeps (OnTree I) (ensureParentDirectory p) := by
  unfold ensureParentDirectory
  split
  · exact Keeps.pure _
  · exact hcreate _

theorem keeps_writeJsonFile {I : Tree → Prop} {path : Path} (value : Json)
    (hparent : Keeps (OnTree I) (ensureParentDirectory path)) (h : Ignores path.locate I) :
    Keeps (OnTree I) (writeJsonFile path value) := by
  apply Keeps.bind hparent
  intro _
  refine Triple.bind (triple_openTruncated_of_ignores h) fun opened => ?_
  apply Triple.of_pre
  intro hopened
  cases opened with
  | none => exact Keeps.throw _
  | some l =>
      obtain rfl := hopened l rfl
      apply Keeps.bind ((readsOnly_dumpIndented _).keeps I)
      intro text
      apply Keeps.bind (keeps_writeBuffered h _)
      intro good
      split
      · exact Keeps.pure _
      · exact Keeps.throw _

/-- Writing a manifest keeps what its directories and the contents of its file do not change. -/
theorem keeps_rewriteState {I : Tree → Prop} {outputPaths : OutputPaths}
    (hdir : Keeps (OnTree I) (createDirectories outputPaths.artifactDir))
    (hparent : Keeps (OnTree I) (ensureParentDirectory outputPaths.stateJsonPath))
    (h : Ignores outputPaths.stateJsonPath.locate I) (config : RuntimeConfig)
    (state : ArtifactState) (amend : TimestampPair → Json.Members → Json.Members) :
    Keeps (OnTree I) (rewriteState config outputPaths state amend) := by
  apply Keeps.bind hdir
  intro _
  apply Keeps.bind (readsOnly_captureTimestamp.keeps I)
  intro now
  apply Keeps.bind ((readsOnly_baseStateJson config outputPaths state now).keeps I)
  intro stateJson
  exact keeps_writeJsonFile _ hparent h

end Rules

end BtClient
