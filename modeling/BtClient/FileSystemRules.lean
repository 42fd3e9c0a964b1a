import BtClient.FileSystem

/-!
# What the operations on the file system do

For each operation: what it keeps of the tree whatever faults it meets, what is true of
the tree when it returns, and what it does when it meets no fault.
-/

namespace BtClient

open Effect

/-- A condition on the tree of the world. -/
def OnTree (I : Tree → Prop) (w : World) : Prop := I w.tree

theorem onTree_of_eq {I : Tree → Prop} {t : Tree} {w : World} (h : OnTree (· = t) w)
    (hI : I t) : OnTree I w := by
  have htree : w.tree = t := h
  rwa [OnTree, htree]

/-- The computation does not touch the tree. -/
def ReadsOnly {α : Type} (m : Action α) : Prop := ∀ t, Keeps (OnTree (· = t)) m

/-- The directories that the way to a file goes through are there. -/
def Reaches (t : Tree) (p : Path) : Prop := ∀ d ∈ p.visited, t.isDir d

/-- The world has no faults left. -/
def World.Quiet (w : World) : Prop := w.faults = []

namespace FileSystem

theorem resolve_eq_some_iff {t : Tree} {p : Path} {l : Location} :
    resolve t p = some l ↔ p.locate = l ∧ Reaches t p :=
  FileTree.walk_eq_some_iff

theorem resolve_of_reaches {t : Tree} {p : Path} (h : Reaches t p) :
    resolve t p = some p.locate :=
  resolve_eq_some_iff.mpr ⟨rfl, h⟩

theorem find_of_reaches {t : Tree} {p : Path} (h : Reaches t p) :
    find t p = t.get? p.locate := by
  rw [find, resolve_of_reaches h, Option.bind_some]

theorem find_eq_some_iff {t : Tree} {p : Path} {node : Node ByteString} :
    find t p = some node ↔ Reaches t p ∧ t.get? p.locate = some node := by
  constructor
  · intro h
    obtain ⟨l, hl, hget⟩ := Option.bind_eq_some_iff.mp h
    obtain ⟨rfl, hreach⟩ := resolve_eq_some_iff.mp hl
    exact ⟨hreach, hget⟩
  · rintro ⟨hreach, hget⟩
    rw [find_of_reaches hreach, hget]

theorem reaches_join_name {t : Tree} {p : Path} {n : ByteString} (h : Path.IsName n) :
    Reaches t (p / (⟨n⟩ : Path)) ↔ Reaches t p ∧ t.isDir p.locate := by
  simp only [Reaches, Path.mem_visited_join_name p h]
  constructor
  · intro hreach
    exact ⟨fun d hd => hreach d (Or.inl hd), hreach _ (Or.inr rfl)⟩
  · rintro ⟨hreach, hdir⟩ d (hd | rfl)
    · exact hreach d hd
    · exact hdir

theorem reaches_parentPath {t : Tree} {p : Path} (h : Reaches t p)
    (hparent : p.parentPath.isEmpty = false) :
    Reaches t p.parentPath ∧ t.isDir p.parentPath.locate :=
  ⟨fun d hd => h d (Path.mem_visited_of_parentPath hparent (Or.inl hd)),
    h _ (Path.mem_visited_of_parentPath hparent (Or.inr rfl))⟩

end FileSystem

/-! ### Operations that only read -/

section ReadsOnly

variable {α β : Type}

namespace ReadsOnly

theorem keeps {m : Action α} (h : ReadsOnly m) (I : Tree → Prop) : Keeps (OnTree I) m := by
  intro w hw
  have hpost := h w.tree w rfl
  cases hrun : m w with
  | mk r w' =>
      rw [hrun] at hpost
      cases r with
      | ok a =>
          have htree : w'.tree = w.tree := hpost
          have hI : I w'.tree := htree ▸ hw
          exact hI
      | error e =>
          have htree : w'.tree = w.tree := hpost
          have hI : I w'.tree := htree ▸ hw
          exact hI

theorem pure (a : α) : ReadsOnly (Pure.pure a) := fun _ => Keeps.pure a

theorem throw (e : Stop) : ReadsOnly (Effect.throw e : Action α) := fun _ => Keeps.throw e

theorem throwFailure (f : Failure) : ReadsOnly (BtClient.throwFailure f : Action α) :=
  ReadsOnly.throw _

theorem bind {m : Action α} {f : α → Action β} (hm : ReadsOnly m)
    (hf : ∀ a, ReadsOnly (f a)) : ReadsOnly (m >>= f) :=
  fun t => Keeps.bind (hm t) fun a => hf a t

theorem catchFailure {m : Action α} {handler : Failure → Action α} (hm : ReadsOnly m)
    (hh : ∀ f, ReadsOnly (handler f)) : ReadsOnly (BtClient.catchFailure m handler) := by
  intro t
  apply Keeps.handle (hm t)
  intro e
  cases e with
  | thrown f => exact hh f t
  | crash => exact Keeps.throw _

end ReadsOnly

theorem Keeps.catchFailure {I : World → Prop} {m : Action α} {handler : Failure → Action α}
    (hm : Keeps I m) (hh : ∀ f, Keeps I (handler f)) :
    Keeps I (BtClient.catchFailure m handler) := by
  apply Keeps.handle hm
  intro e
  cases e with
  | thrown f => exact hh f
  | crash => exact Keeps.throw _

theorem readsOnly_captureTimestamp : ReadsOnly captureTimestamp := by
  rintro t ⟨tree, faults, clock⟩ hw
  cases clock <;> exact hw

theorem absolutePath_eq_pure {currentDir : CurrentDir} {p q : Path}
    (h : Path.absolute currentDir p = some q) : absolutePath currentDir p = pure q := by
  unfold absolutePath
  rw [h]

theorem readsOnly_absolutePath (currentDir : CurrentDir) (p : Path) :
    ReadsOnly (absolutePath currentDir p) := by
  unfold absolutePath
  split
  · exact ReadsOnly.pure _
  · exact ReadsOnly.throwFailure _

namespace FileSystem

theorem readsOnly_nextFault : ReadsOnly nextFault := by
  rintro t ⟨tree, faults, clock⟩ hw
  cases faults <;> exact hw

theorem readsOnly_checkpoint : ReadsOnly checkpoint := by
  apply ReadsOnly.bind readsOnly_nextFault
  intro fault
  cases fault with
  | none => exact ReadsOnly.pure _
  | reported reached => exact ReadsOnly.throwFailure _
  | unnoticed reached => exact ReadsOnly.pure _
  | crash reached => exact ReadsOnly.throw _

theorem readsOnly_tree : ReadsOnly tree :=
  ReadsOnly.bind (fun _ => Keeps.get) fun _ => ReadsOnly.pure _

theorem readsOnly_pathExists (p : Path) : ReadsOnly (pathExists p) :=
  ReadsOnly.bind readsOnly_checkpoint fun _ =>
    ReadsOnly.bind readsOnly_tree fun _ => ReadsOnly.pure _

theorem readsOnly_isDirectory (p : Path) : ReadsOnly (isDirectory p) :=
  ReadsOnly.bind readsOnly_checkpoint fun _ =>
    ReadsOnly.bind readsOnly_tree fun _ => ReadsOnly.pure _

theorem readsOnly_isEmptyDirectory (p : Path) : ReadsOnly (isEmptyDirectory p) := by
  apply ReadsOnly.bind readsOnly_checkpoint
  intro _
  apply ReadsOnly.bind readsOnly_tree
  intro t
  split
  · exact ReadsOnly.pure _
  · exact ReadsOnly.throwFailure _

theorem readsOnly_directoryEntries (p : Path) : ReadsOnly (directoryEntries p) := by
  apply ReadsOnly.bind readsOnly_checkpoint
  intro _
  apply ReadsOnly.bind readsOnly_tree
  intro t
  split
  · split
    · exact ReadsOnly.pure _
    · exact ReadsOnly.throwFailure _
  · exact ReadsOnly.throwFailure _

theorem readsOnly_openForReading (p : Path) : ReadsOnly (openForReading p) := by
  apply ReadsOnly.bind readsOnly_nextFault
  intro fault
  cases fault with
  | none => exact ReadsOnly.bind readsOnly_tree fun _ => ReadsOnly.pure _
  | reported reached => exact ReadsOnly.pure _
  | unnoticed reached => exact ReadsOnly.bind readsOnly_tree fun _ => ReadsOnly.pure _
  | crash reached => exact ReadsOnly.throw _

theorem readsOnly_closeStream : ReadsOnly closeStream := by
  apply ReadsOnly.bind readsOnly_nextFault
  intro fault
  cases fault with
  | none => exact ReadsOnly.pure _
  | reported reached => exact ReadsOnly.pure _
  | unnoticed reached => exact ReadsOnly.pure _
  | crash reached => exact ReadsOnly.throw _

end FileSystem

end ReadsOnly

theorem triple_catchFailure {α : Type} {P : World → Prop} {m : Action α}
    {handler : Failure → Action α} {Q : α → World → Prop} {E : Stop → World → Prop}
    {S : Failure → World → Prop}
    (hm : Triple P m Q fun e w => match e with
      | .thrown f => S f w
      | .crash => E .crash w)
    (hh : ∀ f, Triple (S f) (handler f) Q E) : Triple P (catchFailure m handler) Q E := by
  apply Triple.handle hm
  intro e
  cases e with
  | thrown f => exact hh f
  | crash => exact Triple.throw fun _ h => h

/-- To treat a condition on the tree, fix the tree. -/
theorem triple_onTree {α : Type} {I : Tree → Prop} {m : Action α} {Q : α → World → Prop}
    {E : Stop → World → Prop} (h : ∀ t, I t → Triple (OnTree (· = t)) m Q E) :
    Triple (OnTree I) m Q E :=
  fun w hw => h w.tree hw w rfl

/-! ### Operations that change the tree -/

namespace FileSystem

theorem triple_tree {I : Tree → Prop} :
    Triple (OnTree I) tree (fun t w => w.tree = t ∧ I t) (fun _ _ => False) :=
  fun _ hw => ⟨rfl, hw⟩

theorem triple_nextFault (t₀ : Tree) {E : Stop → World → Prop} :
    Triple (OnTree (· = t₀)) nextFault (fun _ => OnTree (· = t₀)) E := by
  rintro ⟨tree, faults, clock⟩ hw
  cases faults <;> exact hw

/-- Making directories only adds directories. -/
def Extends (t t' : Tree) : Prop :=
  ∀ k, t'.get? k = t.get? k ∨ (t.get? k = none ∧ t'.get? k = some .dir)

namespace Extends

variable {t t' t'' : Tree}

theorem refl (t : Tree) : Extends t t := fun _ => Or.inl rfl

theorem trans (h : Extends t t') (h' : Extends t' t'') : Extends t t'' := by
  intro k
  rcases h k with hk | ⟨hnone, hdir⟩
  · rw [← hk]
    exact h' k
  · rcases h' k with hk | ⟨hnone', -⟩
    · exact Or.inr ⟨hnone, hk.trans hdir⟩
    · rw [hdir] at hnone'
      cases hnone'

theorem get?_eq_some (h : Extends t t') {k : Location} {node : Node ByteString}
    (hk : t.get? k = some node) : t'.get? k = some node := by
  rcases h k with heq | ⟨hnone, -⟩
  · rw [heq, hk]
  · rw [hk] at hnone
    cases hnone

theorem get?_eq_file (h : Extends t t') {k : Location} {content : ByteString} :
    t'.get? k = some (.file content) ↔ t.get? k = some (.file content) := by
  constructor
  · intro hk
    rcases h k with heq | ⟨-, hdir⟩
    · rw [← heq, hk]
    · rw [hdir] at hk
      cases hk
  · exact h.get?_eq_some

theorem isDir (h : Extends t t') {k : Location} (hk : t.isDir k) : t'.isDir k :=
  h.get?_eq_some hk

theorem reaches (h : Extends t t') {p : Path} (hp : Reaches t p) : Reaches t' p :=
  fun d hd => h.isDir (hp d hd)

end Extends

theorem extends_put_dir {t : Tree} {l : Location} (h : t.Writable l) (hl : t.get? l = none) :
    Extends t (t.put l .dir h) := by
  intro k
  rw [FileTree.get?_put]
  split
  · next heq =>
      subst heq
      exact Or.inr ⟨hl, rfl⟩
  · exact Or.inl rfl

theorem ensureDirectory_extends (t₀ : Tree) (l : Location) :
    Triple (OnTree (· = t₀)) (ensureDirectory l)
      (fun _ => OnTree fun t => Extends t₀ t ∧ t.isDir l) (fun _ => OnTree (Extends t₀)) := by
  unfold ensureDirectory
  apply Triple.bind (triple_tree.conseq (fun _ h => h) (fun _ _ h => h) fun _ _ h => h.elim)
  intro t
  cases hget : t.get? l with
  | some node =>
      cases node with
      | dir =>
          apply Triple.pure
          rintro w ⟨rfl, rfl⟩
          exact ⟨Extends.refl _, hget⟩
      | file content =>
          apply Triple.throw
          rintro w ⟨rfl, rfl⟩
          exact Extends.refl _
  | none =>
      have hcheck : Triple (fun w => w.tree = t ∧ t = t₀) checkpoint
          (fun _ w => w.tree = t ∧ t = t₀) (fun _ w => w.tree = t ∧ t = t₀) :=
        readsOnly_checkpoint.keeps fun t' => t' = t ∧ t = t₀
      apply Triple.bind (hcheck.conseq (fun _ h => h) (fun _ _ h => h)
        (by rintro e w ⟨rfl, rfl⟩; exact Extends.refl _))
      intro _
      split
      · next hw =>
          rintro w ⟨rfl, rfl⟩
          refine ⟨extends_put_dir hw hget, ?_⟩
          change ((w.tree.put l .dir hw).get? l) = some .dir
          rw [FileTree.get?_put, if_pos rfl]
      · apply Triple.throw
        rintro w ⟨rfl, rfl⟩
        exact Extends.refl _

theorem ensureDirectories_extends (t₀ : Tree) (l : Location)
    (components : List (PathComponent ByteString)) :
    Triple (OnTree (· = t₀)) (ensureDirectories l components)
      (fun _ => OnTree fun t => Extends t₀ t ∧
        (∀ d ∈ PathComponent.visited l components, t.isDir d) ∧
          t.isDir (PathComponent.target l components))
      (fun _ => OnTree (Extends t₀)) := by
  induction components generalizing l t₀ with
  | nil =>
      apply (ensureDirectory_extends t₀ l).conseq (fun _ h => h) _ fun _ _ h => h
      rintro _ w ⟨hext, hdir⟩
      exact ⟨hext, by simp [PathComponent.visited], hdir⟩
  | cons c rest ih =>
      apply Triple.bind (ensureDirectory_extends t₀ l)
      rintro _ w ⟨hext, hdir⟩
      -- the rest adds to the tree that is there now
      refine ((ih w.tree (c.next l)).conseq (fun _ h => h) ?_ ?_) w rfl
      · rintro _ w' ⟨hmore, hvisited, htarget⟩
        refine ⟨hext.trans hmore, ?_, htarget⟩
        rw [PathComponent.visited, List.forall_mem_cons]
        exact ⟨hmore.isDir hdir, hvisited⟩
      · exact fun _ w' hmore => hext.trans hmore

/-- `create_directories` only adds directories, and when it returns the path leads to
one. -/
theorem createDirectories_extends (t₀ : Tree) (p : Path) :
    Triple (OnTree (· = t₀)) (createDirectories p)
      (fun _ => OnTree fun t => Extends t₀ t ∧ Reaches t p ∧ t.isDir p.locate)
      (fun _ => OnTree (Extends t₀)) :=
  ensureDirectories_extends t₀ [] p.components

/-- Making the directories of a path concerns the places on its way only. -/
theorem keeps_createDirectories_elsewhere {p : Path} {k : Location} (hvisited : k ∉ p.visited)
    (hlocate : k ≠ p.locate) (node : Option (Node ByteString)) :
    Keeps (OnTree fun t => t.get? k = node) (createDirectories p) := by
  have hone : ∀ l, k ≠ l → Keeps (OnTree fun t => t.get? k = node) (ensureDirectory l) := by
    intro l hl
    apply Triple.bind (triple_tree.conseq (fun _ h => h) (fun _ _ h => h) fun _ _ h => h.elim)
    intro t
    split
    · apply Triple.pure
      rintro w ⟨rfl, hk⟩
      exact hk
    · apply Triple.throw
      rintro w ⟨rfl, hk⟩
      exact hk
    · have hcheck : Triple (fun w : World => w.tree = t ∧ t.get? k = node) checkpoint
          (fun _ w => w.tree = t ∧ t.get? k = node) (fun _ => OnTree fun t => t.get? k = node) :=
        (readsOnly_checkpoint.keeps fun t' => t' = t ∧ t.get? k = node).conseq (fun _ h => h)
          (fun _ _ h => h) (by rintro e w ⟨rfl, hk⟩; exact hk)
      apply Triple.bind hcheck
      intro _
      split
      · next hw =>
          rintro w ⟨rfl, hk⟩
          change (w.tree.put l .dir hw).get? k = node
          rw [FileTree.get?_put, if_neg hl, hk]
      · apply Triple.throw
        rintro w ⟨rfl, hk⟩
        exact hk
  have hall : ∀ (components : List (PathComponent ByteString)) (l : Location),
      k ∉ PathComponent.visited l components → k ≠ PathComponent.target l components →
        Keeps (OnTree fun t => t.get? k = node) (ensureDirectories l components) := by
    intro components
    induction components with
    | nil => exact fun l _ hl => hone l hl
    | cons c rest ih =>
        intro l hvisited htarget
        rw [PathComponent.visited, List.mem_cons, not_or] at hvisited
        exact Keeps.bind (hone l hvisited.1) fun _ => ih (c.next l) hvisited.2 htarget
  exact hall p.components [] hvisited hlocate

/-- What is kept when directories are added. -/
def Stable (I : Tree → Prop) : Prop := ∀ t t', Extends t t' → I t → I t'

theorem keeps_createDirectories {I : Tree → Prop} (h : Stable I) (p : Path) :
    Keeps (OnTree I) (createDirectories p) := by
  intro w hw
  refine ((createDirectories_extends w.tree p).conseq (fun _ h => h) ?_ ?_) w rfl
  · rintro _ w' ⟨hext, -⟩
    exact h _ _ hext hw
  · exact fun _ w' hext => h _ _ hext hw

/-- What is kept when the contents of the file at `l` change. -/
def Ignores (l : Location) (I : Tree → Prop) : Prop :=
  ∀ t t', (∀ k, k ≠ l → t'.get? k = t.get? k) → ¬ t.isDir l → I t → I t'

theorem ignores_get? {l k : Location} (hk : k ≠ l) (node : Option (Node ByteString)) :
    Ignores l fun t => t.get? k = node :=
  fun _ _ hsame _ hget => (hsame k hk).trans hget

theorem keeps_openTruncated {I : Tree → Prop} {p : Path} (h : Ignores p.locate I) :
    Keeps (OnTree I) (openTruncated p) := by
  apply Keeps.bind (readsOnly_nextFault.keeps I)
  intro fault
  cases fault
  case reported => exact Keeps.pure _
  case crash => exact Keeps.throw _
  -- without a fault, or with one that goes unnoticed, the file is opened
  all_goals
    apply Triple.bind (triple_tree.conseq (fun _ h => h) (fun _ _ h => h) fun _ _ h => h.elim)
    intro t
    split
    · next l hl =>
        obtain ⟨rfl, -⟩ := resolve_eq_some_iff.mp hl
        split
        · next hw =>
            rintro w ⟨rfl, hI⟩
            apply h _ _ _ hw.2.2 hI
            intro k hk
            change (w.tree.put _ _ hw).get? k = _
            rw [FileTree.get?_put, if_neg hk]
        · apply Triple.pure
          rintro w ⟨rfl, hI⟩
          exact hI
    · apply Triple.pure
      rintro w ⟨rfl, hI⟩
      exact hI

theorem writable_of_file {t : Tree} {l : Location} {content : ByteString}
    (h : t.get? l = some (.file content)) : t.Writable l := by
  rcases List.eq_nil_or_concat l with rfl | ⟨r, n, rfl⟩
  · rw [FileTree.get?_root] at h
    cases h
  · rw [List.concat_eq_append] at h ⊢
    refine ⟨by simp, ?_, ?_⟩
    · rw [List.dropLast_concat]
      exact FileTree.isDir_of_isSome_append (by rw [h]; rfl)
    · rw [FileTree.isDir, h]
      simp

theorem get?_appended {t : Tree} {l : Location} {content : ByteString}
    (h : t.get? l = some (.file content)) (data : ByteString) (k : Location) :
    (appended t l data).get? k =
      if k = l then some (.file (content ++ data)) else t.get? k := by
  rw [appended, h]
  dsimp only
  rw [dif_pos (writable_of_file h), FileTree.get?_put]

theorem appended_of_not_file {t : Tree} {l : Location} (h : ∀ content, t.get? l ≠ some (.file content))
    (data : ByteString) : appended t l data = t := by
  unfold appended
  split
  · next content hcontent => exact absurd hcontent (h content)
  · rfl

theorem keeps_append {I : Tree → Prop} {l : Location} (h : Ignores l I) (data : ByteString) :
    Keeps (OnTree I) (append l data) := by
  intro w hw
  change OnTree I { w with tree := appended w.tree l data }
  by_cases hfile : ∃ content, w.tree.get? l = some (.file content)
  · obtain ⟨content, hcontent⟩ := hfile
    apply h w.tree _ _ _ hw
    · intro k hk
      rw [get?_appended hcontent, if_neg hk]
    · rw [FileTree.isDir, hcontent]
      simp
  · rw [OnTree, appended_of_not_file fun content hcontent => hfile ⟨content, hcontent⟩]
    exact hw

theorem keeps_writeBuffered {I : Tree → Prop} {l : Location} (h : Ignores l I)
    (data : ByteString) : Keeps (OnTree I) (writeBuffered l data) := by
  apply Keeps.bind (readsOnly_nextFault.keeps I)
  intro fault
  cases fault with
  | none => exact Keeps.bind (keeps_append h _) fun _ => Keeps.pure _
  | reported reached => exact Keeps.bind (keeps_append h _) fun _ => Keeps.pure _
  | unnoticed reached => exact Keeps.bind (keeps_append h _) fun _ => Keeps.pure _
  | crash reached => exact Keeps.bind (keeps_append h _) fun _ => Keeps.throw _

theorem keeps_writeFlushed {I : Tree → Prop} {l : Location} (h : Ignores l I)
    (data : ByteString) : Keeps (OnTree I) (writeFlushed l data) := by
  apply Keeps.bind (readsOnly_nextFault.keeps I)
  intro fault
  cases fault with
  | none => exact Keeps.bind (keeps_append h _) fun _ => Keeps.pure _
  | reported reached => exact Keeps.bind (keeps_append h _) fun _ => Keeps.pure _
  | unnoticed reached => exact Keeps.bind (keeps_append h _) fun _ => Keeps.pure _
  | crash reached => exact Keeps.bind (keeps_append h _) fun _ => Keeps.throw _

/-- Opening a file either changes nothing or leaves it empty. -/
theorem triple_openTruncated (t₀ : Tree) (p : Path) :
    Triple (OnTree (· = t₀)) (openTruncated p)
      (fun r => OnTree fun t => match r with
        | none => t = t₀
        | some l => l = p.locate ∧ Reaches t₀ p ∧
            ∃ h : t₀.Writable l, t = t₀.put l (.file []) h)
      (fun _ => OnTree (· = t₀)) := by
  apply Triple.bind (readsOnly_nextFault t₀)
  intro fault
  cases fault
  case reported => exact Triple.pure fun _ h => h
  case crash => exact Triple.throw fun _ h => h
  all_goals
    apply Triple.bind (triple_tree.conseq (fun _ h => h) (fun _ _ h => h) fun _ _ h => h.elim)
    intro t
    split
    · next l hl =>
        obtain ⟨rfl, hreach⟩ := resolve_eq_some_iff.mp hl
        split
        · next hw =>
            rintro w ⟨rfl, rfl⟩
            exact ⟨rfl, hreach, hw, rfl⟩
        · apply Triple.pure
          rintro w ⟨rfl, rfl⟩
          rfl
    · apply Triple.pure
      rintro w ⟨rfl, rfl⟩
      rfl

/-- A file that is opened to be written is at its own place. -/
theorem triple_openTruncated_of_ignores {I : Tree → Prop} {p : Path}
    (h : Ignores p.locate I) :
    Triple (OnTree I) (openTruncated p)
      (fun opened w => OnTree I w ∧ ∀ l, opened = some l → l = p.locate) (fun _ => OnTree I) := by
  apply triple_onTree
  intro t ht
  have hboth := (keeps_openTruncated h).and (triple_openTruncated t p)
  refine hboth.conseq (fun w hw => ⟨onTree_of_eq hw ht, hw⟩) ?_ fun _ _ h => h.1
  rintro opened w ⟨hkeeps, hopened⟩
  refine ⟨hkeeps, ?_⟩
  rintro l rfl
  exact hopened.1

theorem triple_append (t₀ : Tree) (l : Location) (data : ByteString) {E : Stop → World → Prop} :
    Triple (OnTree (· = t₀)) (append l data)
      (fun _ => OnTree (· = appended t₀ l data)) E := by
  rintro w rfl
  rfl

/-- Of the bytes that are written, the first ones arrive. -/
theorem triple_writeBuffered (t₀ : Tree) (l : Location) (data : ByteString) :
    Triple (OnTree (· = t₀)) (writeBuffered l data)
      (fun _ => OnTree fun t => ∃ n, t = appended t₀ l (data.take n))
      (fun _ => OnTree fun t => ∃ n, t = appended t₀ l (data.take n)) := by
  have hput : ∀ n {r : Action Bool}, (∀ t, Keeps (OnTree (· = t)) r) →
      Triple (OnTree (· = t₀)) (do
        append l (data.take n)
        r)
        (fun _ => OnTree fun t => ∃ n, t = appended t₀ l (data.take n))
        (fun _ => OnTree fun t => ∃ n, t = appended t₀ l (data.take n)) := by
    intro n r hr
    apply Triple.bind (triple_append t₀ l (data.take n))
    intro _
    exact (hr _).conseq (fun _ h => h) (fun _ _ h => ⟨n, h⟩) fun _ _ h => ⟨n, h⟩
  apply Triple.bind (triple_nextFault t₀)
  intro fault
  cases fault with
  | none =>
      have hall := hput data.length (r := pure true) fun _ => Keeps.pure _
      rwa [List.take_length] at hall
  | reported reached => exact hput reached fun _ => Keeps.pure _
  | unnoticed reached => exact hput reached fun _ => Keeps.pure _
  | crash reached => exact hput reached fun _ => Keeps.throw _

/-- What can be read at a path. -/
def contentAt (t : Tree) (p : Path) : Option ByteString :=
  match find t p with
  | some (.file content) => some content
  | some .dir => some []
  | none => none

theorem triple_openForReading (t₀ : Tree) (p : Path) :
    Triple (OnTree (· = t₀)) (openForReading p)
      (fun r w => w.tree = t₀ ∧ (r = none ∨ r = contentAt t₀ p)) (fun _ => OnTree (· = t₀)) := by
  apply Triple.bind (triple_nextFault t₀)
  intro fault
  cases fault
  case reported => exact Triple.pure fun _ h => ⟨h, Or.inl rfl⟩
  case crash => exact Triple.throw fun _ h => h
  all_goals
    apply Triple.bind (triple_tree.conseq (fun _ h => h) (fun _ _ h => h) fun _ _ h => h.elim)
    intro t
    apply Triple.pure
    rintro w ⟨rfl, rfl⟩
    exact ⟨rfl, Or.inr rfl⟩

theorem get?_vacated {t : Tree} {l k : Location} (h : k ≠ l) :
    (vacated t l).get? k = t.get? k := by
  unfold vacated
  split
  · rw [FileTree.get?_remove, if_neg h]
  · rfl

/-- A rename either changes nothing or moves the directory that its first path leads to
to the place that its second path leads to, which is free or an empty directory. -/
theorem triple_rename (t₀ : Tree) (source destination : Path) :
    Triple (OnTree (· = t₀)) (rename source destination)
      (fun _ => OnTree fun t =>
        ∃ h : (vacated t₀ destination.locate).Movable source.locate destination.locate,
          Reaches t₀ source ∧ Reaches t₀ destination ∧
            t = (vacated t₀ destination.locate).move _ _ h)
      (fun _ => OnTree (· = t₀)) := by
  apply Triple.bind (readsOnly_checkpoint t₀)
  intro _
  apply Triple.bind (triple_tree.conseq (fun _ h => h) (fun _ _ h => h) fun _ _ h => h.elim)
  intro t
  have hthrow : Triple (fun w : World => w.tree = t ∧ t = t₀)
      (throwFailure .filesystemError : Action Unit)
      (fun _ => OnTree fun t =>
        ∃ h : (vacated t₀ destination.locate).Movable source.locate destination.locate,
          Reaches t₀ source ∧ Reaches t₀ destination ∧
            t = (vacated t₀ destination.locate).move _ _ h)
      (fun _ => OnTree (· = t₀)) := by
    apply Triple.throw
    rintro w ⟨rfl, rfl⟩
    rfl
  apply Triple.ite
  · exact fun _ => hthrow
  · intro _
    split
    · next a b ha hb =>
        obtain ⟨rfl, hsource⟩ := resolve_eq_some_iff.mp ha
        obtain ⟨rfl, hdestination⟩ := resolve_eq_some_iff.mp hb
        split
        · next hmove =>
            rintro w ⟨rfl, rfl⟩
            exact ⟨hmove, hsource, hdestination, rfl⟩
        · exact hthrow
    · exact hthrow

end FileSystem

end BtClient
