import BtClient.ArtifactRules

/-!
# Operations that meet no fault

A process for which nothing fails sees a tree and a clock. What it reads is then a
function of the tree, and a manifest that it writes is in the file as a whole.
-/

namespace BtClient

open Effect FileSystem

/-- The process runs in the root. -/
def rootDir : CurrentDir := ⟨"/", by decide⟩

/-- A world without faults. -/
def quietWorld (t : Tree) (clock : List TimestampPair) : World where
  tree := t
  clock := clock

@[simp] theorem tree_quietWorld (t : Tree) (clock : List TimestampPair) :
    (quietWorld t clock).tree = t := rfl

/-- The world is still without faults, and the clock has not been read. -/
def OnQuiet (clock : List TimestampPair) (I : Tree → Prop) (w : World) : Prop :=
  ∃ t, w = quietWorld t clock ∧ I t

theorem onQuiet_self {clock : List TimestampPair} {I : Tree → Prop} {t : Tree} (h : I t) :
    OnQuiet clock I (quietWorld t clock) := ⟨t, rfl, h⟩

section FileSystem

variable (t : Tree) (clock : List TimestampPair)

theorem pathExists_quiet (p : Path) :
    pathExists p (quietWorld t clock) = (.ok (find t p).isSome, quietWorld t clock) := rfl

theorem openForReading_quiet (p : Path) :
    openForReading p (quietWorld t clock) = (.ok (contentAt t p), quietWorld t clock) := rfl

theorem captureTimestamp_quiet (now : TimestampPair) :
    captureTimestamp (quietWorld t (now :: clock)) = (.ok now, quietWorld t clock) := rfl

theorem writeBuffered_quiet (l : Location) (data : ByteString) :
    writeBuffered l data (quietWorld t clock) =
      (.ok true, quietWorld (appended t l data) clock) := rfl

theorem setTree_quiet (t' : Tree) :
    setTree t' (quietWorld t clock) = (.ok ⟨⟩, quietWorld t' clock) := rfl

end FileSystem

/-- The computation leaves a quiet world quiet and does not read the clock. -/
abbrev KeepsQuiet {α : Type} (m : Action α) : Prop :=
  ∀ clock, Keeps (OnQuiet clock fun _ => True) m

section KeepsQuiet

variable {α : Type}

theorem keepsQuiet_checkpoint : KeepsQuiet checkpoint := by
  rintro clock w ⟨t, rfl, -⟩
  exact onQuiet_self trivial

theorem keepsQuiet_tree : KeepsQuiet tree := by
  rintro clock w ⟨t, rfl, -⟩
  exact onQuiet_self trivial

theorem keepsQuiet_setTree (t' : Tree) : KeepsQuiet (setTree t') := by
  rintro clock w ⟨t, rfl, -⟩
  exact onQuiet_self trivial

theorem keepsQuiet_throwFailure (f : Failure) : KeepsQuiet (throwFailure f : Action α) :=
  fun _ => Keeps.throw _

theorem keepsQuiet_ensureDirectory (l : Location) : KeepsQuiet (ensureDirectory l) := by
  intro clock
  apply Keeps.bind (keepsQuiet_tree clock)
  intro t
  split
  · exact Keeps.pure _
  · exact keepsQuiet_throwFailure _ clock
  · apply Keeps.bind (keepsQuiet_checkpoint clock)
    intro _
    split
    · exact keepsQuiet_setTree _ clock
    · exact keepsQuiet_throwFailure _ clock

theorem keepsQuiet_createDirectories (p : Path) : KeepsQuiet (createDirectories p) := by
  intro clock
  have hall : ∀ (components : List (PathComponent ByteString)) (l : Location),
      Keeps (OnQuiet clock fun _ => True) (ensureDirectories l components) := by
    intro components
    induction components with
    | nil => exact fun l => keepsQuiet_ensureDirectory l clock
    | cons c rest ih =>
        intro l
        exact Keeps.bind (keepsQuiet_ensureDirectory l clock) fun _ => ih (c.next l)
  exact hall p.components []

theorem keepsQuiet_ensureParentDirectory (path : Path) :
    KeepsQuiet (ensureParentDirectory path) := by
  intro clock
  unfold ensureParentDirectory
  split
  · exact Keeps.pure _
  · exact keepsQuiet_createDirectories _ clock

theorem triple_nextFault_quiet (clock : List TimestampPair) {E : Stop → World → Prop} :
    Triple (OnQuiet clock fun _ => True) nextFault
      (fun fault w => OnQuiet clock (fun _ => True) w ∧ fault = .none) E := by
  rintro w ⟨t, rfl, -⟩
  exact ⟨onQuiet_self trivial, rfl⟩

theorem keepsQuiet_openTruncated (p : Path) : KeepsQuiet (openTruncated p) := by
  intro clock
  apply Triple.bind (triple_nextFault_quiet clock)
  intro fault
  apply Triple.of_pre
  rintro rfl
  apply Keeps.bind (keepsQuiet_tree clock)
  intro t
  split
  · split
    · exact Keeps.bind (keepsQuiet_setTree _ clock) fun _ => Keeps.pure _
    · exact Keeps.pure _
  · exact Keeps.pure _

/-- In a quiet world, what the computation does to the tree, if it returns. -/
theorem KeepsQuiet.triple {m : Action α} (h : KeepsQuiet m) {t : Tree}
    {Q : α → Tree → Prop} {E : Stop → World → Prop}
    (hm : Triple (OnTree (· = t)) m (fun a => OnTree (Q a)) E) (clock : List TimestampPair) :
    Triple (· = quietWorld t clock) m (fun a => OnQuiet clock (Q a)) (fun _ _ => True) := by
  refine (hm.and (h clock)).conseq ?_ ?_ fun _ _ _ => trivial
  · rintro w rfl
    exact ⟨rfl, onQuiet_self trivial⟩
  · rintro a w ⟨hQ, t', rfl, -⟩
    exact onQuiet_self hQ

end KeepsQuiet

/-- To treat a quiet world, fix its tree. -/
theorem triple_onQuiet {α : Type} {clock : List TimestampPair} {I : Tree → Prop}
    {m : Action α} {Q : α → World → Prop} {E : Stop → World → Prop}
    (h : ∀ t, I t → Triple (· = quietWorld t clock) m Q E) : Triple (OnQuiet clock I) m Q E := by
  rintro w ⟨t, rfl, ht⟩
  exact h t ht _ rfl

/-! ### Making directories -/

/-- The places that a path goes through and leads to. -/
def Path.places (p : Path) : List Location := p.visited ++ [p.locate]

theorem Path.mem_places {p : Path} {k : Location} :
    k ∈ p.places ↔ k ∈ p.visited ∨ k = p.locate := by
  rw [Path.places, List.mem_append, List.mem_singleton]

/-- Of the places, the directories have been added that were not there. -/
structure MadeAt (places : List Location) (t t' : Tree) : Prop where
  extends_ : Extends t t'
  isDir : ∀ k ∈ places, t'.isDir k
  elsewhere : ∀ k, k ∉ places → t'.get? k = t.get? k

theorem triple_ensureDirectory_quiet {t : Tree} {l : Location} (clock : List TimestampPair)
    (hfile : ∀ content, t.get? l ≠ some (.file content))
    (hparent : t.isDir l ∨ t.isDir l.dropLast) :
    Triple (· = quietWorld t clock) (ensureDirectory l)
      (fun _ => OnQuiet clock (MadeAt [l] t)) (fun _ _ => False) := by
  unfold ensureDirectory
  refine Triple.bind (S := fun t' w => w = quietWorld t clock ∧ t' = t) ?_ fun t' => ?_
  · rintro w rfl
    exact ⟨rfl, rfl⟩
  apply Triple.of_pre
  rintro rfl
  cases hget : t'.get? l with
  | some node =>
      cases node with
      | dir =>
          apply Triple.pure
          rintro w rfl
          exact onQuiet_self ⟨Extends.refl _, by simpa [FileTree.isDir] using hget, fun _ _ => rfl⟩
      | file content => exact absurd hget (hfile content)
  | none =>
      have hnot : ¬ t'.isDir l := by rw [FileTree.isDir, hget]; simp
      have hroot : l ≠ [] := by
        rintro rfl
        rw [FileTree.get?_root] at hget
        cases hget
      have hw : t'.Writable l := ⟨hroot, hparent.resolve_left hnot, hnot⟩
      refine Triple.bind (S := fun _ w => w = quietWorld t' clock) ?_ fun _ => ?_
      · rintro w rfl
        exact rfl
      rw [dif_pos hw]
      rintro w rfl
      rw [setTree_quiet]
      refine onQuiet_self ⟨extends_put_dir hw hget, ?_, ?_⟩
      · rintro k hk
        rw [List.mem_singleton.mp hk, FileTree.isDir, FileTree.get?_put, if_pos rfl]
      · intro k hk
        rw [FileTree.get?_put, if_neg (by simpa using hk)]

theorem triple_ensureDirectories_quiet {t : Tree} {l : Location} (clock : List TimestampPair)
    (components : List (PathComponent ByteString))
    (hfile : ∀ k, k ∈ PathComponent.visited l components ++ [PathComponent.target l components] →
      ∀ content, t.get? k ≠ some (.file content))
    (hparent : t.isDir l ∨ t.isDir l.dropLast) :
    Triple (· = quietWorld t clock) (ensureDirectories l components)
      (fun _ => OnQuiet clock (MadeAt (PathComponent.visited l components ++
        [PathComponent.target l components]) t)) (fun _ _ => False) := by
  induction components generalizing t l with
  | nil => exact triple_ensureDirectory_quiet clock (hfile l List.mem_cons_self) hparent
  | cons c rest ih =>
      apply Triple.bind (triple_ensureDirectory_quiet clock (hfile l List.mem_cons_self) hparent)
      intro _
      apply triple_onQuiet
      rintro t₁ ⟨hext, hdir, helse⟩
      have hl : t₁.isDir l := hdir l List.mem_cons_self
      have hfile₁ : ∀ k, k ∈ PathComponent.visited (c.next l) rest ++
          [PathComponent.target (c.next l) rest] → ∀ content, t₁.get? k ≠ some (.file content) :=
        fun k hk content hcontent =>
          hfile k (List.mem_cons_of_mem _ hk) content (hext.get?_eq_file.mp hcontent)
      have hparent₁ : t₁.isDir (c.next l) ∨ t₁.isDir (c.next l).dropLast := by
        cases c with
        | here => exact Or.inl hl
        | up => exact Or.inl (FileTree.isDir_dropLast hl)
        | name n =>
            refine Or.inr ?_
            rw [PathComponent.next, List.dropLast_concat]
            exact hl
      refine (ih hfile₁ hparent₁).conseq (fun _ h => h) ?_ fun _ _ h => h
      rintro _ w ⟨t₂, rfl, hmade⟩
      refine onQuiet_self ⟨hext.trans hmade.extends_, ?_, ?_⟩
      · intro k hk
        rcases List.mem_cons.mp hk with rfl | hk
        · exact hmade.extends_.isDir hl
        · exact hmade.isDir k hk
      · intro k hk
        rw [PathComponent.visited, List.cons_append, List.mem_cons, not_or] at hk
        rw [hmade.elsewhere k hk.2, helse k (by simpa using hk.1)]

/-- Where no file is in the way, the directories of a path can be made. -/
theorem triple_createDirectories_quiet {t : Tree} (clock : List TimestampPair) (p : Path)
    (hfile : ∀ k ∈ p.places, ∀ content, t.get? k ≠ some (.file content)) :
    Triple (· = quietWorld t clock) (createDirectories p)
      (fun _ => OnQuiet clock (MadeAt p.places t)) (fun _ _ => False) :=
  triple_ensureDirectories_quiet clock p.components hfile (Or.inl (FileTree.get?_root t))

/-! ### What is read -/

section Reading

variable [JsonText] (t : Tree) (clock : List TimestampPair)

/-- The value that is read at a path. -/
def valueAt (t : Tree) (p : Path) : Option Json := (contentAt t p).bind JsonText.parse

/-- The previous manifest that is taken into account, if this value is read. -/
def previousOf (seen : Option Json) : Json :=
  seen.elim (.object []) fun previous => if previous.isObject then previous else .object []

/-- The time of the first manifest, if this value is read. -/
def createdUtcOf (seen : Option Json) (now : TimestampPair) : ByteString :=
  seen.elim now.utcTs fun previous =>
    let createdUtc := jsonStringOrEmpty previous "created_utc"
    if createdUtc.isEmpty then now.utcTs else createdUtc

/-- The previous manifest that is taken into account. -/
def previousAt (t : Tree) (p : Path) : Json := previousOf (valueAt t p)

/-- The time of the first manifest. -/
def createdUtcAt (t : Tree) (p : Path) (now : TimestampPair) : ByteString :=
  createdUtcOf (valueAt t p) now

theorem readJsonFile_quiet (p : Path) :
    (∃ value, valueAt t p = some value ∧
      readJsonFile p (quietWorld t clock) = (.ok value, quietWorld t clock)) ∨
    (valueAt t p = none ∧ ∃ failure,
      readJsonFile p (quietWorld t clock) = (.error (.thrown failure), quietWorld t clock)) := by
  rw [readJsonFile, bind_ok (openForReading_quiet t clock p), valueAt]
  cases hcontent : contentAt t p with
  | none => exact Or.inr ⟨rfl, _, rfl⟩
  | some content =>
      rw [Option.bind_some]
      cases hparse : JsonText.parse content with
      | none => exact Or.inr ⟨rfl, _, by simp only [hparse]; rfl⟩
      | some value => exact Or.inl ⟨value, rfl, by simp only [hparse]; rfl⟩

theorem valueAt_of_find_none {p : Path} (h : find t p = none) : valueAt t p = none := by
  rw [valueAt, contentAt, h]
  rfl

omit [JsonText] in
theorem contentAt_of_file {t : Tree} {p : Path} (hreach : Reaches t p) {content : ByteString}
    (h : t.get? p.locate = some (.file content)) : contentAt t p = some content := by
  rw [contentAt, find_of_reaches hreach, h]

/-- Where there is no file there is no value. -/
theorem valueAt_eq_none {t : Tree} {p : Path}
    (h : ∀ content, t.get? p.locate ≠ some (.file content)) : valueAt t p = none := by
  unfold valueAt contentAt
  split
  · next content hfile => exact absurd (find_eq_some_iff.mp hfile).2 (h content)
  · exact JsonText.parse_nil
  · rfl

/-- A value that is read and used, or something else if that fails. -/
theorem readOrElse_quiet {α : Type} (p : Path) (f : Json → α) (fallback : α) :
    (do
      if ← pathExists p then
        catchFailure
          (do
            let previous ← readJsonFile p
            pure (f previous))
          fun _ => pure fallback
      else pure fallback : Action α) (quietWorld t clock) =
      (.ok ((valueAt t p).elim fallback f), quietWorld t clock) := by
  rw [bind_ok (pathExists_quiet t clock p)]
  cases hfind : find t p with
  | none =>
      rw [valueAt_of_find_none t hfind]
      rfl
  | some node =>
      rw [Option.isSome_some, if_pos rfl, catchFailure, handle]
      rcases readJsonFile_quiet t clock p with ⟨value, hvalue, hread⟩ | ⟨hnone, f', hread⟩
      · rw [hvalue, bind_ok hread]
        rfl
      · rw [hnone, bind_error hread]
        rfl

theorem loadExistingStateOrEmpty_quiet (outputPaths : OutputPaths) :
    loadExistingStateOrEmpty outputPaths (quietWorld t clock) =
      (.ok (previousAt t outputPaths.stateJsonPath), quietWorld t clock) :=
  readOrElse_quiet t clock _ (fun previous =>
    if previous.isObject then previous else .object []) _

theorem createdUtcForState_quiet (outputPaths : OutputPaths) (now : TimestampPair) :
    createdUtcForState outputPaths now (quietWorld t clock) =
      (.ok (createdUtcAt t outputPaths.stateJsonPath now), quietWorld t clock) :=
  readOrElse_quiet t clock _ (fun previous =>
    let createdUtc := jsonStringOrEmpty previous "created_utc"
    if createdUtc.isEmpty then (now.utcTs : ByteString) else createdUtc) _

theorem baseStateJson_quiet (config : RuntimeConfig) (outputPaths : OutputPaths)
    (state : ArtifactState) (now : TimestampPair) :
    baseStateJson config outputPaths state now (quietWorld t clock) =
      (.ok (manifest config outputPaths state (previousAt t outputPaths.stateJsonPath)
        (createdUtcAt t outputPaths.stateJsonPath now) now), quietWorld t clock) := by
  rw [baseStateJson, bind_ok (loadExistingStateOrEmpty_quiet t clock outputPaths),
    bind_ok (createdUtcForState_quiet t clock outputPaths now)]
  rfl

end Reading

/-! ### What is written -/

/-- At `l` there is a file with the text; elsewhere only directories have been added. -/
structure Rewritten (l : Location) (text : ByteString) (t t' : Tree) : Prop where
  elsewhere : ∀ k, k ≠ l →
    t'.get? k = t.get? k ∨ (t.get? k = none ∧ t'.get? k = some .dir)
  here : t'.get? l = some (.file text)

section Writing

variable [JsonText] {t : Tree} {clock : List TimestampPair}

theorem triple_writeJsonFile_quiet (path : Path) (value : Json) :
    Triple (· = quietWorld t clock) (writeJsonFile path value)
      (fun _ => OnQuiet clock fun t' => value.isUtf8 = true ∧ Reaches t' path ∧
        Rewritten path.locate (manifestText value) t t')
      (fun _ _ => True) := by
  unfold writeJsonFile
  apply Triple.bind ((keepsQuiet_ensureParentDirectory path).triple
    (triple_ensureParentDirectory t path) clock)
  intro _
  apply triple_onQuiet
  intro t₁ hext
  apply Triple.bind ((keepsQuiet_openTruncated path).triple (triple_openTruncated t₁ path) clock)
  intro opened
  cases opened with
  | none => exact Triple.throw fun _ _ => trivial
  | some l =>
      apply triple_onQuiet
      rintro t₂ ⟨rfl, hreach, hw, rfl⟩
      have hempty : (t₁.put path.locate (.file []) hw).get? path.locate = some (.file []) := by
        rw [FileTree.get?_put, if_pos rfl]
      unfold dumpIndented
      cases hutf : value.isUtf8 with
      | false =>
          rw [if_neg Bool.false_ne_true]
          exact fun _ _ => trivial
      | true =>
          rw [if_pos rfl]
          apply Triple.pure_bind
          rintro w rfl
          rw [bind_ok (writeBuffered_quiet _ _ _ _)]
          refine onQuiet_self ⟨rfl, reaches_append hreach hw _, fun k hk => ?_, ?_⟩
          · rw [get?_appended hempty, if_neg hk, FileTree.get?_put, if_neg hk]
            exact hext k
          · rw [get?_appended hempty, if_pos rfl, manifestText_of_isUtf8 hutf]
            rfl

/-- The manifest that `rewriteState` puts together from what it reads in the tree. -/
def amendedAt (t : Tree) (config : RuntimeConfig) (outputPaths : OutputPaths)
    (state : ArtifactState) (amend : TimestampPair → Json.Members → Json.Members)
    (now : TimestampPair) : Json.Members :=
  amend now (manifest config outputPaths state (previousAt t outputPaths.stateJsonPath)
    (createdUtcAt t outputPaths.stateJsonPath now) now)

/-- When nothing fails, the new manifest is written as a whole, from what is read after
the directory of the session has been made. -/
theorem triple_rewriteState_quiet (config : RuntimeConfig) (outputPaths : OutputPaths)
    (state : ArtifactState) (amend : TimestampPair → Json.Members → Json.Members)
    (now : TimestampPair) :
    Triple (· = quietWorld t (now :: clock)) (rewriteState config outputPaths state amend)
      (fun _ => OnQuiet clock fun t' => ∃ t₁, Extends t t₁ ∧
        Reaches t₁ outputPaths.artifactDir ∧ t₁.isDir outputPaths.artifactDir.locate ∧
          (Json.object (amendedAt t₁ config outputPaths state amend now)).isUtf8 = true ∧
            Reaches t' outputPaths.stateJsonPath ∧ Rewritten outputPaths.stateJsonPath.locate
              (manifestText (.object (amendedAt t₁ config outputPaths state amend now))) t₁ t')
      (fun _ _ => True) := by
  unfold rewriteState
  apply Triple.bind ((keepsQuiet_createDirectories _).triple
    (createDirectories_extends t outputPaths.artifactDir) (now :: clock))
  intro _
  apply triple_onQuiet
  rintro t₁ ⟨hext, hreach, hdir⟩ w rfl
  rw [bind_ok (captureTimestamp_quiet t₁ clock now),
    bind_ok (baseStateJson_quiet t₁ clock config outputPaths state now)]
  refine ((triple_writeJsonFile_quiet outputPaths.stateJsonPath
    (.object (amendedAt t₁ config outputPaths state amend now))).conseq
      (fun _ h => h) ?_ fun _ _ h => h) _ rfl
  rintro _ w ⟨t', rfl, hwritten⟩
  exact onQuiet_self ⟨t₁, hext, hreach, hdir, hwritten⟩

end Writing

end BtClient
