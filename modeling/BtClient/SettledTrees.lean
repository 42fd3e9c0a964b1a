import BtClient.CompleteArtifacts
import BtClient.ReadBack

/-!
# Trees that the program has written

In a tree that only the program has written to, the names are ordinary, and every manifest
that can be read in the pending directory names its own place. Whatever the operations of
the program do and wherever they are cut short, they keep this.
-/

namespace BtClient

open Effect FileSystem

theorem keeps_of_final {α : Type} {I : World → Prop} {m : Action α}
    (h : ∀ w, I w → I (m w).2) : Keeps I m := by
  intro w hw
  have hfinal := h w hw
  cases hrun : m w with
  | mk r w' =>
      rw [hrun] at hfinal
      cases r with
      | ok a => exact hfinal
      | error e => exact hfinal

/-! ### Ordinary names -/

section Names

theorem isName_of_mem_locate {p : Path} {n : ByteString} (hn : n ∈ p.locate) : Path.IsName n :=
  isName_of_mem_places (Path.mem_places.mpr (Or.inr rfl)) hn

theorem ignores_hasNames (p : Path) : Ignores p.locate HasNames := by
  intro t t' hsame _ hnames k hk n hn
  by_cases hl : k = p.locate
  · exact isName_of_mem_locate (hl ▸ hn)
  · rw [hsame k hl] at hk
    exact hnames k hk n hn

theorem keeps_createDirectories_hasNames (p : Path) :
    Keeps (OnTree HasNames) (createDirectories p) := by
  refine keeps_of_final fun w hnames k hk n hn => ?_
  by_cases hplace : k ∈ p.places
  · exact isName_of_mem_places hplace hn
  · rw [Path.mem_places, not_or] at hplace
    have hsame := (keeps_createDirectories_elsewhere hplace.1 hplace.2 (w.tree.get? k)).final
      (s := w) rfl
    rw [show (createDirectories p w).2.tree.get? k = w.tree.get? k from hsame] at hk
    exact hnames k hk n hn

theorem keeps_ensureParentDirectory_hasNames (p : Path) :
    Keeps (OnTree HasNames) (ensureParentDirectory p) :=
  keeps_ensureParentDirectory keeps_createDirectories_hasNames p

/-- A directory that is moved keeps the names in it. -/
theorem HasNames.of_move {t : Tree} (h : HasNames t) {a : Location} {p : Path}
    (hmove : (vacated t p.locate).Movable a p.locate) :
    HasNames ((vacated t p.locate).move a p.locate hmove) := by
  have hvacated : ∀ k, ((vacated t p.locate).get? k).isSome → ∀ n ∈ k, Path.IsName n := by
    intro k hk n hn
    by_cases hl : k = p.locate
    · exact isName_of_mem_locate (hl ▸ hn)
    · rw [get?_vacated hl] at hk
      exact h k hk n hn
  intro k hk n hn
  by_cases hb : p.locate <+: k
  · obtain ⟨r, rfl⟩ := hb
    rw [FileTree.get?_move_append] at hk
    rcases List.mem_append.mp hn with hn | hn
    · exact isName_of_mem_locate hn
    · exact hvacated _ hk n (List.mem_append_right a hn)
  · rw [FileTree.get?_move_of_not_isPrefix _ _ _ _ hb] at hk
    split at hk
    · cases hk
    · exact hvacated k hk n hn

theorem keeps_rename_hasNames (source destination : Path) :
    Keeps (OnTree HasNames) (rename source destination) := by
  apply triple_onTree
  intro t hnames
  refine (triple_rename t source destination).conseq (fun _ h => h) ?_
    fun _ _ h => onTree_of_eq h hnames
  rintro _ w ⟨hmove, -, -, htree⟩
  rw [OnTree, htree]
  exact hnames.of_move hmove

variable (currentDir : CurrentDir)

theorem keeps_moveToArchive_hasNames (config : RuntimeConfig) (outputPaths : OutputPaths) :
    Keeps (OnTree HasNames) (moveToArchive currentDir config outputPaths) := by
  apply Keeps.bind ((readsOnly_absolutePath currentDir _).keeps _)
  intro archiveRoot
  apply Keeps.bind ((readsOnly_pathExists _).keeps _)
  intro found
  split
  · exact Keeps.throw _
  · apply Keeps.bind (keeps_createDirectories_hasNames _)
    intro _
    apply Keeps.bind (keeps_rename_hasNames _ _)
    intro _
    apply Keeps.bind ((readsOnly_absolutePath currentDir _).keeps _)
    exact fun _ => Keeps.pure _

theorem keeps_rewriteState_hasNames [JsonText] (config : RuntimeConfig)
    (outputPaths : OutputPaths) (state : ArtifactState)
    (amend : TimestampPair → Json.Members → Json.Members) :
    Keeps (OnTree HasNames) (rewriteState config outputPaths state amend) :=
  keeps_rewriteState (keeps_createDirectories_hasNames _)
    (keeps_ensureParentDirectory_hasNames _) (ignores_hasNames _) config state amend

end Names

/-- What new directories do not change stays when a manifest is written in another place. -/
theorem keeps_rewriteState_of_stable [JsonText] {I : Tree → Prop} (hstable : Stable I)
    {outputPaths : OutputPaths} (hignores : Ignores outputPaths.stateJsonPath.locate I)
    (config : RuntimeConfig) (state : ArtifactState)
    (amend : TimestampPair → Json.Members → Json.Members) :
    Keeps (OnTree I) (rewriteState config outputPaths state amend) :=
  keeps_rewriteState (keeps_createDirectories hstable _)
    (keeps_ensureParentDirectory (keeps_createDirectories hstable) _) hignores config state amend

/-! ### Manifests in their places -/

section Own

variable [JsonText]

/-- As the place of the manifest, the value names `l` or nothing. -/
def NamesPlace (l : Location) (value : Json) : Prop :=
  ∀ files, value.find "files" = some (.object files) →
    let path : Path := ⟨jsonStringOrEmpty (.object files) "state_json"⟩
    path.bytes = [] ∨ (path.isAbsolute = true ∧ path.locate = l)

/-- Where the manifest of the session `n` in a directory lies. -/
def manifestPlace (directory : Path) (n : ByteString) : Location :=
  directory.locate ++ [n, ByteString.ofString "state.json"]

/-- Whatever can be read as a manifest in the directory names its own place. -/
def ManifestsAreOwn (directory : Path) (t : Tree) : Prop :=
  ∀ n content value, t.get? (manifestPlace directory n) = some (.file content) →
    JsonText.parse content = some value → NamesPlace (manifestPlace directory n) value

variable {directory : Path}

theorem stable_manifestsAreOwn : Stable (ManifestsAreOwn directory) :=
  fun _ _ hext hown n content value hget => hown n content value (hext.get?_eq_file.mp hget)

theorem ignores_manifestsAreOwn {l : Location} (hl : ∀ n, manifestPlace directory n ≠ l) :
    Ignores l (ManifestsAreOwn directory) :=
  fun _ _ hsame _ hown n content value hget =>
    hown n content value (hsame _ (hl n) ▸ hget)

/-- A manifest that is put together names its own place. -/
theorem namesPlace_of_isAmended {t : Tree} {config : RuntimeConfig} {outputPaths : OutputPaths}
    {state : ArtifactState} {amend : TimestampPair → Json.Members → Json.Members}
    {members : Json.Members} (hamend : IsHistoric amend)
    (habsolute : outputPaths.stateJsonPath.isAbsolute = true)
    (h : IsAmended t config outputPaths state amend members) :
    NamesPlace outputPaths.stateJsonPath.locate (.object members) := by
  intro files hfiles
  have hnames : NamesSession config outputPaths (.object members) :=
    namesSession_of_isAmended hamend rfl rfl ⟨rfl, rfl, rfl⟩ h
  have hmember := hnames.files
  rw [hfiles] at hmember
  have hobject : Json.object files = filesMember outputPaths := Option.some.inj hmember
  have hstate : jsonStringOrEmpty (.object files) "state_json" =
      outputPaths.stateJsonPath.bytes := by
    rw [hobject, jsonStringOrEmpty, find_filesMember]
    rfl
  rw [hstate]
  exact Or.inr ⟨habsolute, rfl⟩

/-- Writing a manifest keeps this, however it ends. -/
theorem keeps_rewriteState_manifestsAreOwn {outputPaths : OutputPaths}
    {amend : TimestampPair → Json.Members → Json.Members} (hamend : IsHistoric amend)
    (habsolute : outputPaths.stateJsonPath.isAbsolute = true) (config : RuntimeConfig)
    (state : ArtifactState) :
    Keeps (OnTree (ManifestsAreOwn directory)) (rewriteState config outputPaths state amend) := by
  apply triple_onTree
  intro t hown
  have hwritten : ∀ {t' : Tree} {members : Json.Members},
      IsAmended t config outputPaths state amend members →
        Overwritten outputPaths.stateJsonPath.locate (manifestText (.object members)) t t' →
          ManifestsAreOwn directory t' := by
    intro t' members hamended hover n content value hget hparse
    by_cases hplace : manifestPlace directory n = outputPaths.stateJsonPath.locate
    · obtain ⟨text, htext, hhere⟩ := hover.here
      rw [hplace] at hget ⊢
      cases hget.symm.trans hhere
      obtain ⟨rfl, -⟩ :=
        eq_of_parse_manifestText (isPlain_of_isAmended hamend hamended) htext hparse
      exact namesPlace_of_isAmended hamend habsolute hamended
    · exact hown n content value ((hover.get?_eq_file hplace).mp hget) hparse
  refine (triple_rewriteState t config outputPaths state amend).conseq (fun _ h => h) ?_ ?_
  · rintro _ w ⟨members, hamended, -, -, hover⟩
    exact hwritten hamended hover
  · rintro _ w (hext | ⟨members, hamended, hover⟩)
    · exact stable_manifestsAreOwn _ _ hext hown
    · exact hwritten hamended hover

omit [JsonText] in
/-- What is neither above nor in the place of the directory stays where it was, or it was in
the directory that has been moved. -/
theorem Moved.get?_of_not_isPrefix {a b k : Location} {t t' : Tree} (h : Moved a b t t')
    (hb : ¬ b <+: k) {content : ByteString} (hk : t'.get? k = some (.file content)) :
    ¬ a <+: k ∧ t.get? k = some (.file content) := by
  obtain ⟨t₁, hext, hmove, rfl⟩ := h
  rw [FileTree.get?_move_of_not_isPrefix _ _ _ _ hb] at hk
  split at hk
  · cases hk
  · next ha =>
      have hne : k ≠ b := fun heq => hb (heq ▸ List.prefix_rfl)
      rw [get?_vacated hne] at hk
      exact ⟨ha, hext.get?_eq_file.mp hk⟩

omit [JsonText] in
theorem Moved.get?_eq_file_of_not_isPrefix {a b k : Location} {t t' : Tree}
    (h : Moved a b t t') (ha : ¬ a <+: k) (hb : ¬ b <+: k) {content : ByteString}
    (hk : t.get? k = some (.file content)) : t'.get? k = some (.file content) := by
  obtain ⟨t₁, hext, hmove, rfl⟩ := h
  have hne : k ≠ b := fun heq => hb (heq ▸ List.prefix_rfl)
  rw [FileTree.get?_move_of_not_isPrefix _ _ _ _ hb, if_neg ha, get?_vacated hne]
  exact hext.get?_eq_some hk

theorem ManifestsAreOwn.of_moved {a b : Location} {t t' : Tree}
    (h : ManifestsAreOwn directory t) (hb : ∀ n, ¬ b <+: manifestPlace directory n)
    (hmoved : Moved a b t t') : ManifestsAreOwn directory t' :=
  fun n content value hget =>
    h n content value (hmoved.get?_of_not_isPrefix (hb n) hget).2

end Own

end BtClient
