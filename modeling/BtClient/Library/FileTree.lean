import Mathlib

/-!
# Directory trees

A tree of directories and files is a finite map from locations to nodes, where a location
is the list of names that leads to it from the root. Everything that has an entry lies in
a directory. Files are written, directories are made, moved and removed; what an operation
does is said by what is found at each location afterwards.

A path is a list of components, which may also stay where they are or go back to the
parent. Walking along a path needs every directory that it visits, and then ends where
the path alone says.
-/

universe u v

inductive Node (C : Type v) where
  | dir
  | file (content : C)
  deriving DecidableEq

structure FileTree (N : Type u) (C : Type v) where
  entries : List (List N × Node C)
  nodup : (entries.map Prod.fst).Nodup
  rooted : [] ∉ entries.map Prod.fst
  closed : ∀ l n, l ++ [n] ∈ entries.map Prod.fst → l = [] ∨ (l, Node.dir) ∈ entries

namespace FileTree

variable {N : Type u} {C : Type v}

/-- Only the root. -/
def empty : FileTree N C where
  entries := []
  nodup := List.nodup_nil
  rooted := List.not_mem_nil
  closed _ _ h := absurd h List.not_mem_nil

variable [DecidableEq N]

/-- What is found at a location. -/
def get? (t : FileTree N C) (l : List N) : Option (Node C) :=
  if l = [] then some .dir else t.entries.lookup l

def isDir (t : FileTree N C) (l : List N) : Prop := t.get? l = some .dir

@[simp] theorem get?_root (t : FileTree N C) : t.get? [] = some .dir := if_pos rfl

theorem get?_of_ne {t : FileTree N C} {l : List N} (h : l ≠ []) :
    t.get? l = t.entries.lookup l := if_neg h

theorem lookup_cons (k l : List N) (node : Node C) (rest : List (List N × Node C)) :
    ((k, node) :: rest).lookup l = if l = k then some node else rest.lookup l := by
  rw [List.lookup_cons]
  by_cases hk : l = k
  · subst hk
    simp
  · have hbeq : (l == k) = false := beq_false_of_ne hk
    rw [hbeq, if_neg hk]

theorem lookup_eq_some_iff {entries : List (List N × Node C)}
    (hnodup : (entries.map Prod.fst).Nodup) {l : List N} {node : Node C} :
    entries.lookup l = some node ↔ (l, node) ∈ entries := by
  induction entries with
  | nil => simp
  | cons e rest ih =>
      obtain ⟨k, v⟩ := e
      rw [List.map_cons, List.nodup_cons] at hnodup
      rw [lookup_cons, List.mem_cons, Prod.mk.injEq]
      by_cases hk : l = k
      · subst hk
        have hrest : ∀ node, (l, node) ∉ rest := fun node hmem =>
          hnodup.1 (List.mem_map.mpr ⟨(l, node), hmem, rfl⟩)
        simp [hrest, eq_comm]
      · simp [hk, ih hnodup.2]

theorem get?_eq_some_iff {t : FileTree N C} {l : List N} (h : l ≠ []) {node : Node C} :
    t.get? l = some node ↔ (l, node) ∈ t.entries := by
  rw [get?_of_ne h, lookup_eq_some_iff t.nodup]

theorem mem_keys_iff {t : FileTree N C} {l : List N} (h : l ≠ []) :
    l ∈ t.entries.map Prod.fst ↔ (t.get? l).isSome := by
  rw [List.mem_map, Option.isSome_iff_exists]
  constructor
  · rintro ⟨⟨k, node⟩, hmem, rfl⟩
    exact ⟨node, (get?_eq_some_iff h).mpr hmem⟩
  · rintro ⟨node, hnode⟩
    exact ⟨(l, node), (get?_eq_some_iff h).mp hnode, rfl⟩

/-- What is in something is in a directory. -/
theorem isDir_of_isSome_append {t : FileTree N C} {l : List N} {n : N}
    (h : (t.get? (l ++ [n])).isSome) : t.isDir l := by
  rw [← mem_keys_iff (by simp)] at h
  rcases t.closed l n h with rfl | hdir
  · exact get?_root t
  · by_cases hl : l = []
    · subst hl
      exact get?_root t
    · exact (get?_eq_some_iff hl).mpr hdir

/-- A directory lies in a directory. -/
theorem isDir_dropLast {t : FileTree N C} {l : List N} (h : t.isDir l) : t.isDir l.dropLast := by
  rcases List.eq_nil_or_concat l with rfl | ⟨r, n, rfl⟩
  · exact h
  · rw [List.concat_eq_append] at h ⊢
    rw [List.dropLast_concat]
    exact isDir_of_isSome_append (by rw [h]; rfl)

theorem isDir_of_isPrefix {t : FileTree N C} {l m : List N} (h : (t.get? m).isSome)
    (hbelow : l <+: m) (hne : l ≠ m) : t.isDir l := by
  obtain ⟨r, rfl⟩ := hbelow
  induction r using List.reverseRecOn with
  | nil => exact absurd (List.append_nil l).symm hne
  | append_singleton r n ih =>
      rw [← List.append_assoc] at h
      have hdir := isDir_of_isSome_append h
      by_cases hr : r = []
      · rwa [hr, List.append_nil] at hdir
      · exact ih (by rw [hdir]; rfl) (by simpa using hr)

/-- Nothing lies below what is not there. -/
theorem get?_eq_none_of_isPrefix {t : FileTree N C} {l m : List N} (h : t.get? l = none)
    (hbelow : l <+: m) : t.get? m = none := by
  by_contra hm
  by_cases heq : l = m
  · exact hm (heq ▸ h)
  · have hdir := isDir_of_isPrefix (Option.isSome_iff_ne_none.mpr hm) hbelow heq
    rw [isDir, h] at hdir
    cases hdir

/-! ### Writing at one location -/

/-- Replace the node at `l`, or append one. -/
def setEntry (l : List N) (node : Node C) :
    List (List N × Node C) → List (List N × Node C)
  | [] => [(l, node)]
  | (k, v) :: rest => if k = l then (k, node) :: rest else (k, v) :: setEntry l node rest

theorem mem_keys_setEntry {l k : List N} {node : Node C} {entries : List (List N × Node C)} :
    k ∈ (setEntry l node entries).map Prod.fst ↔ k = l ∨ k ∈ entries.map Prod.fst := by
  induction entries with
  | nil => simp [setEntry]
  | cons e rest ih =>
      obtain ⟨k', v⟩ := e
      by_cases hk : k' = l
      · subst hk
        simp [setEntry]
      · rw [setEntry, if_neg hk, List.map_cons, List.mem_cons, ih, List.map_cons, List.mem_cons]
        exact or_left_comm

theorem nodup_setEntry {l : List N} {node : Node C} {entries : List (List N × Node C)}
    (h : (entries.map Prod.fst).Nodup) : ((setEntry l node entries).map Prod.fst).Nodup := by
  induction entries with
  | nil => simp [setEntry]
  | cons e rest ih =>
      obtain ⟨k, v⟩ := e
      by_cases hk : k = l
      · subst hk
        simpa [setEntry] using h
      · rw [List.map_cons, List.nodup_cons] at h
        rw [setEntry, if_neg hk, List.map_cons, List.nodup_cons, mem_keys_setEntry]
        exact ⟨not_or.mpr ⟨hk, h.1⟩, ih h.2⟩

theorem lookup_setEntry (l k : List N) (node : Node C) (entries : List (List N × Node C)) :
    (setEntry l node entries).lookup k = if k = l then some node else entries.lookup k := by
  induction entries with
  | nil => rw [setEntry, lookup_cons]
  | cons e rest ih =>
      obtain ⟨k', v⟩ := e
      by_cases hk' : k' = l
      · subst hk'
        rw [setEntry, if_pos rfl, lookup_cons, lookup_cons]
        split <;> rfl
      · rw [setEntry, if_neg hk', lookup_cons, lookup_cons, ih]
        by_cases hk : k = k'
        · subst hk
          rw [if_pos rfl, if_neg hk', if_pos rfl]
        · rw [if_neg hk, if_neg hk]

/-- A node may be put at `l`: it lies in a directory, and a directory is not replaced. -/
def Writable (t : FileTree N C) (l : List N) : Prop :=
  l ≠ [] ∧ t.isDir l.dropLast ∧ ¬ t.isDir l

def put (t : FileTree N C) (l : List N) (node : Node C) (h : t.Writable l) : FileTree N C where
  entries := setEntry l node t.entries
  nodup := nodup_setEntry t.nodup
  rooted hmem := by
    rcases mem_keys_setEntry.mp hmem with hnil | hmem
    · exact h.1 hnil.symm
    · exact t.rooted hmem
  closed k n hmem := by
    obtain ⟨hl, hparent, hleaf⟩ := h
    have hdir : t.isDir k := by
      rcases mem_keys_setEntry.mp hmem with heq | hmem
      · rwa [← heq, List.dropLast_concat] at hparent
      · exact isDir_of_isSome_append ((mem_keys_iff (by simp)).mp hmem)
    by_cases hk : k = []
    · exact Or.inl hk
    · have hne : k ≠ l := fun heq => hleaf (heq ▸ hdir)
      rw [isDir, get?_of_ne hk] at hdir
      exact Or.inr ((lookup_eq_some_iff (nodup_setEntry t.nodup)).mp
        (by rw [lookup_setEntry, if_neg hne, hdir]))

theorem get?_put (t : FileTree N C) (l : List N) (node : Node C) (h : t.Writable l)
    (k : List N) : (t.put l node h).get? k = if k = l then some node else t.get? k := by
  by_cases hk : k = []
  · subst hk
    rw [get?_root, get?_root, if_neg h.1.symm]
  · rw [get?_of_ne hk, get?_of_ne hk]
    exact lookup_setEntry l k node t.entries

/-! ### Moving a directory -/

/-- Where the location `k` ends up when `a` is moved to `b`. -/
def relocate (a b k : List N) : List N :=
  if a <+: k then b ++ k.drop a.length else k

/-- The directory `a` may be moved to `b`. -/
def Movable (t : FileTree N C) (a b : List N) : Prop :=
  a ≠ [] ∧ t.isDir a ∧ b ≠ [] ∧ t.isDir b.dropLast ∧ t.get? b = none ∧ ¬ a <+: b

omit [DecidableEq N] in
theorem append_drop_of_isPrefix {a k : List N} (h : a <+: k) : a ++ k.drop a.length = k := by
  obtain ⟨r, rfl⟩ := h
  simp

theorem relocate_append (a b r : List N) : relocate a b (a ++ r) = b ++ r := by
  rw [relocate, if_pos (List.prefix_append a r), List.drop_left]

theorem relocate_of_not_isPrefix {a k : List N} (h : ¬ a <+: k) (b : List N) :
    relocate a b k = k := if_neg h

/-- Different entries do not end up in the same place. -/
theorem relocate_injOn {t : FileTree N C} {a b : List N} (h : t.Movable a b) {k k' : List N}
    (hk : k ∈ t.entries.map Prod.fst) (hk' : k' ∈ t.entries.map Prod.fst)
    (heq : relocate a b k = relocate a b k') : k = k' := by
  obtain ⟨-, -, -, -, hfree, -⟩ := h
  have habsent : ∀ m ∈ t.entries.map Prod.fst, ¬ b <+: m := by
    intro m hm hbelow
    have hnil : m ≠ [] := fun heq => t.rooted (heq ▸ hm)
    have hsome := (mem_keys_iff hnil).mp hm
    rw [get?_eq_none_of_isPrefix hfree hbelow] at hsome
    cases hsome
  unfold relocate at heq
  split at heq
  · next hak =>
      split at heq
      · next hak' =>
          have hdrop := List.append_cancel_left heq
          rw [← append_drop_of_isPrefix hak, hdrop, append_drop_of_isPrefix hak']
      · exact absurd ⟨_, heq⟩ (habsent k' hk')
  · split at heq
    · exact absurd ⟨_, heq.symm⟩ (habsent k hk)
    · exact heq

def moveEntries (t : FileTree N C) (a b : List N) : List (List N × Node C) :=
  t.entries.map fun e => (relocate a b e.1, e.2)

theorem mem_moveEntries {t : FileTree N C} {a b k : List N} {node : Node C} :
    (k, node) ∈ t.moveEntries a b ↔ ∃ m, (m, node) ∈ t.entries ∧ relocate a b m = k := by
  constructor
  · intro h
    obtain ⟨⟨m, node'⟩, hmem, heq⟩ := List.mem_map.mp h
    cases heq
    exact ⟨m, hmem, rfl⟩
  · rintro ⟨m, hmem, rfl⟩
    exact List.mem_map.mpr ⟨(m, node), hmem, rfl⟩

theorem nodup_moveEntries {t : FileTree N C} {a b : List N} (h : t.Movable a b) :
    ((t.moveEntries a b).map Prod.fst).Nodup := by
  have hkeys : (t.moveEntries a b).map Prod.fst =
      (t.entries.map Prod.fst).map (relocate a b) := by
    simp [moveEntries]
  rw [hkeys]
  exact t.nodup.map_on fun k hk k' hk' heq => relocate_injOn h hk hk' heq

def move (t : FileTree N C) (a b : List N) (h : t.Movable a b) : FileTree N C where
  entries := t.moveEntries a b
  nodup := nodup_moveEntries h
  rooted hmem := by
    obtain ⟨⟨k, node⟩, hk, hnil⟩ := List.mem_map.mp hmem
    obtain ⟨m, hm, heq⟩ := mem_moveEntries.mp hk
    obtain ⟨ha, -, hb, -⟩ := h
    have hmne : m ≠ [] := fun heq => t.rooted (List.mem_map.mpr ⟨(m, node), hm, heq⟩)
    dsimp only at hnil
    subst hnil
    unfold relocate at heq
    split at heq
    · exact hb (List.append_eq_nil_iff.mp heq).1
    · exact hmne heq
  closed k n hmem := by
    obtain ⟨⟨k', node⟩, hk', heq'⟩ := List.mem_map.mp hmem
    dsimp only at heq'
    subst heq'
    obtain ⟨m, hm, heq⟩ := mem_moveEntries.mp hk'
    obtain ⟨ha, hadir, hb, hbdir, hfree, hinside⟩ := h
    have hmne : m ≠ [] := fun heq => t.rooted (List.mem_map.mpr ⟨(m, node), hm, heq⟩)
    have hmove : ∀ d, t.isDir d → relocate a b d = [] ∨
        (relocate a b d, Node.dir) ∈ t.moveEntries a b := by
      intro d hd
      by_cases hdne : d = []
      · subst hdne
        rw [relocate_of_not_isPrefix (fun hpre => ha (List.prefix_nil.mp hpre))]
        exact Or.inl rfl
      · exact Or.inr (mem_moveEntries.mpr ⟨d, (get?_eq_some_iff hdne).mp hd, rfl⟩)
    by_cases hma : a <+: m
    · obtain ⟨r, rfl⟩ := hma
      rw [relocate_append] at heq
      rcases List.eq_nil_or_concat r with rfl | ⟨r', n', rfl⟩
      · -- the moved directory itself: its new parent stays where it is
        rw [List.append_nil] at heq
        have hparent : k = b.dropLast := by rw [heq, List.dropLast_concat]
        have hstay : ¬ a <+: b.dropLast := fun hpre =>
          hinside (hpre.trans (List.dropLast_prefix b))
        have hdir := hmove b.dropLast hbdir
        rwa [relocate_of_not_isPrefix hstay, ← hparent] at hdir
      · have hsome : (t.get? (a ++ r' ++ [n'])).isSome := by
          rw [← mem_keys_iff (by simp)]
          exact List.mem_map.mpr ⟨_, hm, by simp⟩
        have hdir := hmove (a ++ r') (isDir_of_isSome_append hsome)
        have hk : k = b ++ r' := by
          rw [List.concat_eq_append, ← List.append_assoc] at heq
          exact (List.append_inj' heq rfl).1.symm
        rwa [relocate_append, ← hk] at hdir
    · rw [relocate_of_not_isPrefix hma] at heq
      subst heq
      have hsome : (t.get? (k ++ [n])).isSome := by
        rw [← mem_keys_iff (by simp)]
        exact List.mem_map.mpr ⟨_, hm, rfl⟩
      have hdir := hmove k (isDir_of_isSome_append hsome)
      have hstay : ¬ a <+: k := fun hpre => hma (hpre.trans (List.prefix_append k [n]))
      rwa [relocate_of_not_isPrefix hstay] at hdir

/-- What is found at `b` and below was at `a`, where nothing is left. -/
theorem get?_move_append (t : FileTree N C) (a b : List N) (h : t.Movable a b) (r : List N) :
    (t.move a b h).get? (b ++ r) = t.get? (a ++ r) := by
  obtain ⟨ha, -, hb, -, hfree, -⟩ := id h
  apply Option.ext
  intro node
  rw [get?_eq_some_iff (by simp [hb]), get?_eq_some_iff (by simp [ha])]
  constructor
  · intro hmem
    obtain ⟨m, hm, heq⟩ := mem_moveEntries.mp hmem
    by_cases hma : a <+: m
    · obtain ⟨r', rfl⟩ := hma
      rw [relocate_append] at heq
      rwa [List.append_cancel_left heq] at hm
    · rw [relocate_of_not_isPrefix hma] at heq
      subst heq
      have hsome := (get?_eq_some_iff (by simp [hb])).mpr hm
      rw [get?_eq_none_of_isPrefix hfree (List.prefix_append b r)] at hsome
      cases hsome
  · intro hmem
    exact mem_moveEntries.mpr ⟨a ++ r, hmem, relocate_append a b r⟩

theorem get?_move_of_not_isPrefix (t : FileTree N C) (a b : List N) (h : t.Movable a b)
    {k : List N} (hb : ¬ b <+: k) :
    (t.move a b h).get? k = if a <+: k then none else t.get? k := by
  by_cases hk : k = []
  · subst hk
    rw [get?_root, if_neg fun hpre => h.1 (List.prefix_nil.mp hpre), get?_root]
  apply Option.ext
  intro node
  rw [get?_eq_some_iff hk]
  constructor
  · intro hmem
    obtain ⟨m, hm, heq⟩ := mem_moveEntries.mp hmem
    by_cases hma : a <+: m
    · obtain ⟨r, rfl⟩ := hma
      rw [relocate_append] at heq
      exact absurd ⟨r, heq⟩ hb
    · rw [relocate_of_not_isPrefix hma] at heq
      subst heq
      rw [if_neg hma]
      exact (get?_eq_some_iff hk).mpr hm
  · intro hsome
    split at hsome
    · cases hsome
    · next hak =>
        exact mem_moveEntries.mpr
          ⟨k, (get?_eq_some_iff hk).mp hsome, relocate_of_not_isPrefix hak b⟩

/-! ### The names in a directory -/

/-- The name of an entry that lies directly in `l`. -/
def childName (l k : List N) : Option N :=
  if l <+: k then
    match k.drop l.length with
    | [n] => some n
    | _ => none
  else none

/-- The names in `l`, in the order of the entries. -/
def children (t : FileTree N C) (l : List N) : List N :=
  t.entries.filterMap fun e => childName l e.1

theorem childName_eq_some_iff {l k : List N} {n : N} :
    childName l k = some n ↔ k = l ++ [n] := by
  unfold childName
  constructor
  · intro h
    split at h
    · next hpre =>
        split at h
        · next n' hdrop =>
            cases h
            rw [← append_drop_of_isPrefix hpre, hdrop]
        · cases h
    · cases h
  · rintro rfl
    rw [if_pos (List.prefix_append l [n]), List.drop_left]

theorem mem_children_iff {t : FileTree N C} {l : List N} {n : N} :
    n ∈ t.children l ↔ (t.get? (l ++ [n])).isSome := by
  rw [← mem_keys_iff (by simp), children, List.mem_filterMap, List.mem_map]
  constructor
  · rintro ⟨e, he, hn⟩
    exact ⟨e, he, childName_eq_some_iff.mp hn⟩
  · rintro ⟨e, he, hn⟩
    exact ⟨e, he, childName_eq_some_iff.mpr hn⟩

theorem nodup_children (t : FileTree N C) (l : List N) : (t.children l).Nodup := by
  have hkeys : t.children l = (t.entries.map Prod.fst).filterMap (childName l) := by
    simp [children, List.filterMap_map]
  rw [hkeys]
  apply t.nodup.filterMap
  intro k k' n hk hk'
  rw [Option.mem_def, childName_eq_some_iff] at hk hk'
  rw [hk, hk']

/-! ### Removing an empty directory -/

/-- The empty directory `l` may be removed. -/
def Removable (t : FileTree N C) (l : List N) : Prop :=
  l ≠ [] ∧ t.isDir l ∧ t.children l = []

theorem mem_keys_remove {entries : List (List N × Node C)} {l k : List N} :
    k ∈ (entries.filter fun e => e.1 ≠ l).map Prod.fst ↔
      k ∈ entries.map Prod.fst ∧ k ≠ l := by
  simp only [List.mem_map, List.mem_filter, decide_eq_true_eq]
  constructor
  · rintro ⟨e, ⟨he, hne⟩, rfl⟩
    exact ⟨⟨e, he, rfl⟩, hne⟩
  · rintro ⟨⟨e, he, rfl⟩, hne⟩
    exact ⟨e, ⟨he, hne⟩, rfl⟩

def remove (t : FileTree N C) (l : List N) (h : t.Removable l) : FileTree N C where
  entries := t.entries.filter fun e => e.1 ≠ l
  nodup := t.nodup.sublist (List.filter_sublist.map Prod.fst)
  rooted hmem := t.rooted (mem_keys_remove.mp hmem).1
  closed k n hmem := by
    obtain ⟨hkey, -⟩ := mem_keys_remove.mp hmem
    rcases t.closed k n hkey with hroot | hdir
    · exact Or.inl hroot
    · refine Or.inr (List.mem_filter.mpr ⟨hdir, decide_eq_true ?_⟩)
      rintro rfl
      have hchild : n ∈ t.children k :=
        mem_children_iff.mpr ((mem_keys_iff (by simp)).mp hkey)
      rw [h.2.2] at hchild
      cases hchild

theorem get?_remove (t : FileTree N C) (l : List N) (h : t.Removable l) (k : List N) :
    (t.remove l h).get? k = if k = l then none else t.get? k := by
  by_cases hk : k = []
  · subst hk
    rw [get?_root, get?_root, if_neg h.1.symm]
  apply Option.ext
  intro node
  rw [get?_eq_some_iff hk, remove, List.mem_filter, decide_eq_true_iff]
  split
  · next heq => simp [heq]
  · next hne => simp [hne, get?_eq_some_iff hk]

/-! ### Walking along a path -/

end FileTree

/-- A component of a path. -/
inductive PathComponent (N : Type u) where
  | here
  | up
  | name (n : N)
  deriving DecidableEq

namespace PathComponent

variable {N : Type u}

/-- Where a component leads from a directory; the root is its own parent. -/
def next (l : List N) : PathComponent N → List N
  | .here => l
  | .up => l.dropLast
  | .name n => l ++ [n]

/-- Where the components lead. -/
def target (l : List N) (components : List (PathComponent N)) : List N :=
  components.foldl next l

/-- The directories that the walk goes through before it ends. -/
def visited : List N → List (PathComponent N) → List (List N)
  | _, [] => []
  | l, c :: rest => l :: visited (next l c) rest

@[simp] theorem target_append (l : List N) (components more : List (PathComponent N)) :
    target l (components ++ more) = target (target l components) more :=
  List.foldl_append

theorem visited_append (l : List N) (components more : List (PathComponent N)) :
    visited l (components ++ more) =
      visited l components ++ visited (target l components) more := by
  induction components generalizing l with
  | nil => rfl
  | cons c rest ih =>
      rw [List.cons_append, visited, visited, ih, List.cons_append]
      rfl

@[simp] theorem target_cons (l : List N) (c : PathComponent N)
    (components : List (PathComponent N)) :
    target l (c :: components) = target (next l c) components := rfl

/-- The names on a walk are those of the place it starts from and of its components. -/
theorem mem_of_mem_visited {l d : List N} {components : List (PathComponent N)} {n : N}
    (hd : d ∈ visited l components ∨ d = target l components) (hn : n ∈ d) :
    n ∈ l ∨ .name n ∈ components := by
  induction components generalizing l with
  | nil =>
      rcases hd with hd | rfl
      · cases hd
      · exact Or.inl hn
  | cons c rest ih =>
      rw [visited, target_cons, List.mem_cons, or_assoc] at hd
      rcases hd with rfl | hd
      · exact Or.inl hn
      · rcases ih hd with hnext | hrest
        · cases c with
          | here => exact Or.inl hnext
          | up => exact Or.inl (List.mem_of_mem_dropLast hnext)
          | name m =>
              rcases List.mem_append.mp hnext with hl | hm
              · exact Or.inl hl
              · rw [List.mem_singleton.mp hm]
                exact Or.inr List.mem_cons_self
        · exact Or.inr (List.mem_cons_of_mem _ hrest)

/-- A walk either climbs out of the directory it starts from, or stays inside. -/
theorem target_cases (base : List N) (components : List (PathComponent N)) :
    (∀ x y, target (base ++ [x]) components = target (base ++ [y]) components) ∨
      ∃ r, ∀ x, target (base ++ [x]) components = base ++ [x] ++ r := by
  induction components using List.reverseRecOn with
  | nil => exact Or.inr ⟨[], fun x => (List.append_nil _).symm⟩
  | append_singleton components c ih =>
      simp only [target_append]
      rcases ih with hclimbed | ⟨r, hr⟩
      · exact Or.inl fun x y => by rw [hclimbed x y]
      · cases c with
        | here => exact Or.inr ⟨r, hr⟩
        | name n => exact Or.inr ⟨r ++ [n], fun x => by
            rw [hr, ← List.append_assoc]
            rfl⟩
        | up =>
            rcases List.eq_nil_or_concat r with rfl | ⟨r, n, rfl⟩
            · refine Or.inl fun x y => ?_
              rw [hr, hr, List.append_nil, List.append_nil]
              change (base ++ [x]).dropLast = (base ++ [y]).dropLast
              rw [List.dropLast_concat, List.dropLast_concat]
            · refine Or.inr ⟨r, fun x => ?_⟩
              rw [hr, List.concat_eq_append, ← List.append_assoc]
              exact List.dropLast_concat

/-- A walk comes through everything above the places it gets to, unless it was there from
the start. -/
theorem mem_visited_of_isPrefix {l d k : List N} {components : List (PathComponent N)}
    (hd : d ∈ visited l components ∨ d = target l components) (hk : k <+: d) :
    k <+: l ∨ k ∈ visited l components ∨ k = target l components := by
  induction components generalizing l with
  | nil =>
      rcases hd with hd | rfl
      · cases hd
      · exact Or.inl hk
  | cons c rest ih =>
      rw [visited, target_cons] at hd ⊢
      have hbelow : k <+: next l c → k <+: l ∨ k = next l c := by
        intro hnext
        cases c with
        | here => exact Or.inl hnext
        | up => exact Or.inl (hnext.trans (List.dropLast_prefix l))
        | name n =>
            rcases List.prefix_concat_iff.mp hnext with heq | hl
            · exact Or.inr heq
            · exact Or.inl hl
      have hnext : next l c ∈ visited (next l c) rest ∨ next l c = target (next l c) rest := by
        cases rest with
        | nil => exact Or.inr rfl
        | cons c' rest => exact Or.inl List.mem_cons_self
      have hrest : k <+: next l c ∨ k ∈ visited (next l c) rest ∨ k = target (next l c) rest →
          k <+: l ∨ k ∈ l :: visited (next l c) rest ∨ k = target (next l c) rest := by
        rintro (h | h | h)
        · rcases hbelow h with hl | rfl
          · exact Or.inl hl
          · exact Or.inr (hnext.imp (List.mem_cons_of_mem _) id)
        · exact Or.inr (Or.inl (List.mem_cons_of_mem _ h))
        · exact Or.inr (Or.inr h)
      rcases hd with hd | hd
      · rcases List.mem_cons.mp hd with rfl | hd
        · exact Or.inl hk
        · exact hrest (ih (Or.inl hd))
      · exact hrest (ih (Or.inr hd))

/-- A walk that comes back to where it started, wherever that was, and stays above it
does not move. -/
theorem eq_here_of_visited {base : List N} {a b : N} (hab : a ≠ b) {c : PathComponent N}
    {components : List (PathComponent N)}
    (hback : ∀ x, target (base ++ [x]) components = base ++ [x])
    (hvisited : ∀ d ∈ visited (base ++ [a]) (components ++ [c]), d <+: base ++ [a]) :
    ∀ c' ∈ components, c' = .here := by
  induction components with
  | nil => simp
  | cons c' rest ih =>
      rw [List.cons_append, visited, List.forall_mem_cons] at hvisited
      rw [List.forall_mem_cons]
      cases c' with
      | here => exact ⟨rfl, ih hback hvisited.2⟩
      | up =>
          have hroot : ∀ x, target base rest = base ++ [x] := by
            intro x
            have hx := hback x
            rwa [target_cons, next, List.dropLast_concat] at hx
          have hnames := (List.append_inj' ((hroot a).symm.trans (hroot b)) rfl).2
          exact absurd (List.singleton_inj.mp hnames) hab
      | name n =>
          obtain ⟨c'', more, hmore⟩ := List.exists_cons_of_ne_nil
            (List.append_ne_nil_of_right_ne_nil rest (List.cons_ne_nil c []))
          have hbelow := hvisited.2 (base ++ [a] ++ [n]) (by
            rw [hmore]
            exact List.mem_cons_self)
          have hlength := hbelow.length_le
          simp at hlength

end PathComponent

namespace FileTree

variable {N : Type u} {C : Type v} [DecidableEq N] [DecidableEq C]

instance (t : FileTree N C) (l : List N) : Decidable (t.isDir l) :=
  inferInstanceAs (Decidable (t.get? l = some .dir))

instance (t : FileTree N C) (l : List N) : Decidable (t.Writable l) :=
  inferInstanceAs (Decidable (l ≠ [] ∧ t.isDir l.dropLast ∧ ¬ t.isDir l))

instance (t : FileTree N C) (a b : List N) : Decidable (t.Movable a b) :=
  inferInstanceAs (Decidable (a ≠ [] ∧ t.isDir a ∧ b ≠ [] ∧ t.isDir b.dropLast ∧
    t.get? b = none ∧ ¬ a <+: b))

instance (t : FileTree N C) (l : List N) : Decidable (t.Removable l) :=
  inferInstanceAs (Decidable (l ≠ [] ∧ t.isDir l ∧ t.children l = []))

omit [DecidableEq C] in
/-- There is a tree with only the directories that lead to a location. -/
theorem exists_dirs (l : List N) : ∃ t : FileTree N C, ∀ k,
    t.get? k = if k <+: l then some .dir else none := by
  induction l using List.reverseRecOn with
  | nil =>
      refine ⟨empty, fun k => ?_⟩
      cases k with
      | nil => simp
      | cons n rest => simp [get?, empty]
  | append_singleton l n ih =>
      obtain ⟨t, ht⟩ := ih
      have hw : t.Writable (l ++ [n]) := by
        refine ⟨by simp, ?_, ?_⟩
        · rw [isDir, List.dropLast_concat, ht, if_pos (List.prefix_refl l)]
        · rw [isDir, ht, if_neg]
          · simp
          · intro hbelow
            have hlength := hbelow.length_le
            simp at hlength
      refine ⟨t.put (l ++ [n]) .dir hw, fun k => ?_⟩
      rw [get?_put, ht]
      by_cases hk : k = l ++ [n]
      · simp [hk]
      · simp [hk, List.prefix_concat_iff]

omit [DecidableEq C] in
/-- There is a tree with only one file and the directories that lead to it. -/
theorem exists_file (l : List N) (n : N) (c : C) : ∃ t : FileTree N C, ∀ k,
    t.get? k = if k = l ++ [n] then some (.file c)
      else if k <+: l then some .dir else none := by
  obtain ⟨dirs, hdirs⟩ := exists_dirs (C := C) l
  have hw : dirs.Writable (l ++ [n]) := by
    refine ⟨by simp, ?_, ?_⟩
    · rw [List.dropLast_concat, isDir, hdirs, if_pos (List.prefix_refl _)]
    · rw [isDir, hdirs, if_neg]
      · simp
      · intro hbelow
        have hlength := hbelow.length_le
        simp at hlength
  exact ⟨dirs.put _ (.file c) hw, fun k => by rw [get?_put, hdirs]⟩

/-- Walk along the components; what is not a directory has nothing in it. -/
def walk (t : FileTree N C) (l : List N) : List (PathComponent N) → Option (List N)
  | [] => some l
  | c :: rest => if t.isDir l then t.walk (c.next l) rest else none

/-- A walk ends where the path says, if the directories on the way are there. -/
theorem walk_eq_some_iff {t : FileTree N C} {l m : List N}
    {components : List (PathComponent N)} :
    t.walk l components = some m ↔
      PathComponent.target l components = m ∧
        ∀ d ∈ PathComponent.visited l components, t.isDir d := by
  induction components generalizing l with
  | nil => simp [walk, PathComponent.target, PathComponent.visited]
  | cons c rest ih =>
      rw [walk, PathComponent.visited, List.forall_mem_cons]
      split
      · next hdir =>
          rw [ih]
          simp [hdir, PathComponent.target]
      · next hdir => simp [hdir]

end FileTree
