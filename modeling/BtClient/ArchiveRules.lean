import BtClient.QuietWorlds

/-!
# Moving a session into the archive

`archive_artifact_session` first moves the directory of the session and then writes the
manifest again, in the place where it is now.
-/

namespace BtClient

open Effect FileSystem

section Archive

variable (currentDir : CurrentDir)

/-- `archive_artifact_session` up to the move. -/
def moveToArchive (config : RuntimeConfig) (pendingOutputPaths : OutputPaths) :
    Action OutputPaths := do
  let archiveRoot ← archiveArtifactsDir currentDir config.artifactsDir
  let archiveDir := archiveRoot / pendingOutputPaths.artifactDir.filename
  if ← pathExists archiveDir then
    throwFailure (.runtimeError
      ("archive artifact directory already exists: " ++ archiveDir.bytes))
  else
    createDirectories archiveDir.parentPath
    rename pendingOutputPaths.artifactDir archiveDir
    artifactPathsForSessionDir currentDir archiveDir

theorem archiveArtifactSession_eq [JsonText] (config : RuntimeConfig)
    (pendingOutputPaths : OutputPaths) :
    archiveArtifactSession currentDir config pendingOutputPaths =
      (do
        let archivedOutputPaths ← moveToArchive currentDir config pendingOutputPaths
        writeArtifactState config archivedOutputPaths .archived
        pure archivedOutputPaths) := by
  unfold archiveArtifactSession moveToArchive
  rw [bind_assoc]
  refine bind_congr fun archiveRoot => ?_
  dsimp only
  rw [bind_assoc]
  refine bind_congr fun found => ?_
  split
  · rfl
  · rw [bind_assoc]
    refine bind_congr fun _ => ?_
    rw [bind_assoc]

/-- The directory at `a` is now at `b`; before that only directories have been added. -/
def Moved (a b : Location) (t t' : Tree) : Prop :=
  ∃ t₁, Extends t t₁ ∧ ∃ h : (vacated t₁ b).Movable a b, t' = (vacated t₁ b).move a b h

namespace Moved

variable {a b : Location} {t t' : Tree}

/-- What was in the directory is now in its new place. -/
theorem get?_append (h : Moved a b t t') {r : Location} {node : Node ByteString}
    (hnode : t.get? (a ++ r) = some node) : t'.get? (b ++ r) = some node := by
  obtain ⟨t₁, hext, hmove, rfl⟩ := h
  have hne : a ++ r ≠ b := by
    rintro rfl
    exact hmove.2.2.2.2.2 (List.prefix_append a r)
  rw [FileTree.get?_move_append, get?_vacated hne]
  exact hext.get?_eq_some hnode

end Moved

/-- When the move returns, the directory of the session is in the archive under its name. -/
theorem triple_moveToArchive (t₀ : Tree) (config : RuntimeConfig)
    (pendingOutputPaths : OutputPaths) :
    Triple (OnTree (· = t₀)) (moveToArchive currentDir config pendingOutputPaths)
      (fun archived => OnTree fun t => ∃ archiveRoot,
        Path.absolute currentDir (config.artifactsDir / "archive") = some archiveRoot ∧
          archived = .inDirectory (archiveRoot / pendingOutputPaths.artifactDir.filename) ∧
            Moved pendingOutputPaths.artifactDir.locate archived.artifactDir.locate t₀ t)
      (fun _ => OnTree (Extends t₀)) := by
  unfold moveToArchive archiveArtifactsDir absolutePath
  cases hroot : Path.absolute currentDir (config.artifactsDir / "archive") with
  | none => exact fun w hw => onTree_of_eq hw (Extends.refl _)
  | some archiveRoot =>
      apply Triple.pure_bind
      dsimp only
      have habsolute : (archiveRoot / pendingOutputPaths.artifactDir.filename).isAbsolute =
          true := Path.isAbsolute_join (Path.isAbsolute_of_absolute currentDir.2 hroot)
      refine Triple.bind ((readsOnly_pathExists _ t₀).conseq (fun _ h => h) (fun _ _ h => h)
        fun _ _ h => onTree_of_eq h (Extends.refl _)) ?_
      intro found
      apply Triple.ite
      · exact fun _ => Triple.throw fun _ h => onTree_of_eq h (Extends.refl _)
      · intro _
        refine Triple.bind (S := fun _ => OnTree (Extends t₀))
          ((createDirectories_extends t₀ _).conseq (fun _ h => h) (fun _ _ h => h.1)
            fun _ _ h => h) ?_
        intro _
        apply triple_onTree
        intro t₁ hext
        refine Triple.bind ((triple_rename t₁ _ _).conseq (fun _ h => h) (fun _ _ h => h)
          fun _ _ h => onTree_of_eq h hext) ?_
        intro _
        unfold artifactPathsForSessionDir absolutePath
        rw [Path.absolute_of_isAbsolute _ habsolute]
        apply Triple.pure
        rintro w ⟨hmove, -, -, htree⟩
        exact ⟨archiveRoot, rfl, rfl, t₁, hext, hmove, htree⟩

theorem keepsQuiet_absolutePath (p : Path) : KeepsQuiet (absolutePath currentDir p) := by
  intro clock
  unfold absolutePath
  split
  · exact Keeps.pure _
  · exact keepsQuiet_throwFailure _ clock

theorem keepsQuiet_pathExists (p : Path) : KeepsQuiet (pathExists p) := by
  rintro clock w ⟨t, rfl, -⟩
  exact onQuiet_self trivial

theorem keepsQuiet_rename (source destination : Path) :
    KeepsQuiet (rename source destination) := by
  intro clock
  apply Keeps.bind (keepsQuiet_checkpoint clock)
  intro _
  apply Keeps.bind (keepsQuiet_tree clock)
  intro t
  split
  · exact keepsQuiet_throwFailure _ clock
  · split
    · split
      · exact keepsQuiet_setTree _ clock
      · exact keepsQuiet_throwFailure _ clock
    · exact keepsQuiet_throwFailure _ clock

theorem keepsQuiet_moveToArchive (config : RuntimeConfig) (pendingOutputPaths : OutputPaths) :
    KeepsQuiet (moveToArchive currentDir config pendingOutputPaths) := by
  intro clock
  apply Keeps.bind (keepsQuiet_absolutePath currentDir _ clock)
  intro archiveRoot
  apply Keeps.bind (keepsQuiet_pathExists _ clock)
  intro found
  split
  · exact keepsQuiet_throwFailure _ clock
  · apply Keeps.bind (keepsQuiet_createDirectories _ clock)
    intro _
    apply Keeps.bind (keepsQuiet_rename _ _ clock)
    intro _
    apply Keeps.bind (keepsQuiet_absolutePath currentDir _ clock)
    exact fun _ => Keeps.pure _

end Archive

end BtClient
