import BtClient.Library.FileTree
import BtClient.Libtorrent

/-!
# Paths

`std::filesystem::path` on a POSIX system: a sequence of bytes in which slashes
separate the components. The operations are those of the standard library that
the client uses; none of them looks at the file system. An absolute path is looked
up by walking along its components from the root.
-/

namespace BtClient

structure Path where
  bytes : ByteString
  deriving DecidableEq

namespace Path

/-- The byte `'/'`. -/
def slash : UInt8 := 47

instance : Coe String Path := ⟨fun s => ⟨ByteString.ofString s⟩⟩

def isEmpty (p : Path) : Bool := p.bytes.isEmpty

def isAbsolute (p : Path) : Bool := p.bytes.head? = some slash

/-- The path ends in a component, not in a slash. -/
def hasFilename (p : Path) : Bool := p.bytes.getLast?.any fun c => c ≠ slash

/-- `p / q`: an absolute `q` replaces `p`. -/
def join (p q : Path) : Path :=
  if q.isAbsolute then q
  else if p.hasFilename then ⟨p.bytes ++ slash :: q.bytes⟩
  else ⟨p.bytes ++ q.bytes⟩

instance : Div Path := ⟨join⟩

/-- What follows the last slash. -/
def filename (p : Path) : Path :=
  ⟨(p.bytes.reverse.takeWhile (· ≠ slash)).reverse⟩

/-- What stands before the last component, without its trailing slashes; the root
is its own parent. -/
def parentPath (p : Path) : Path :=
  let directory := (p.bytes.reverse.dropWhile (· ≠ slash)).reverse
  let stripped := (directory.reverse.dropWhile (· = slash)).reverse
  if p.bytes.all (· = slash) then p
  else if stripped.isEmpty && !directory.isEmpty then ⟨[slash]⟩
  else ⟨stripped⟩

/-- `std::filesystem::absolute`, which refuses the empty path. -/
def absolute (currentDir p : Path) : Option Path :=
  if p.isEmpty then none
  else if p.isAbsolute then some p
  else some (currentDir / p)

/-- What stands between the slashes. -/
def split : ByteString → List ByteString
  | [] => [[]]
  | c :: rest =>
      if c = slash then [] :: split rest
      else
        match split rest with
        | segment :: more => (c :: segment) :: more
        | [] => [[c]]

/-- The component that a segment stands for: `.` and nothing at all stay in the
directory, `..` goes back to its parent. -/
def toComponent (segment : ByteString) : PathComponent ByteString :=
  if segment = [] ∨ segment = ByteString.ofString "." then .here
  else if segment = ByteString.ofString ".." then .up
  else .name segment

def components (p : Path) : List (PathComponent ByteString) :=
  (split p.bytes).map toComponent

/-- Where an absolute path leads. -/
def locate (p : Path) : List ByteString := PathComponent.target [] p.components

/-- The directories on the way. -/
def visited (p : Path) : List (List ByteString) := PathComponent.visited [] p.components

/-- The last component is `.` or `..`, whatever slashes follow it. -/
def endsInDots (p : Path) : Bool :=
  match ((split p.bytes).filter fun segment => segment ≠ []).getLast? with
  | some segment =>
      segment = ByteString.ofString "." || segment = ByteString.ofString ".."
  | none => false

/-- An ordinary name of a file or directory. -/
def IsName (n : ByteString) : Prop :=
  n ≠ [] ∧ slash ∉ n ∧ n ≠ ByteString.ofString "." ∧ n ≠ ByteString.ofString ".."

instance (n : ByteString) : Decidable (IsName n) :=
  inferInstanceAs (Decidable (n ≠ [] ∧ slash ∉ n ∧ n ≠ ByteString.ofString "." ∧
    n ≠ ByteString.ofString ".."))

/-! ### Components -/

theorem split_ne_nil (b : ByteString) : split b ≠ [] := by
  cases b with
  | nil => simp [split]
  | cons c rest =>
      rw [split]
      split
      · simp
      · split <;> simp

theorem split_append_slash (a b : ByteString) :
    split (a ++ slash :: b) = split a ++ split b := by
  induction a with
  | nil => simp [split]
  | cons c rest ih =>
      rw [List.cons_append, split, split, ih]
      split
      · rfl
      · cases hrest : split rest with
        | nil => exact absurd hrest (split_ne_nil rest)
        | cons segment more => rfl

theorem split_of_notMem {b : ByteString} (h : slash ∉ b) : split b = [b] := by
  induction b with
  | nil => rfl
  | cons c rest ih =>
      rw [List.mem_cons, not_or] at h
      rw [split, if_neg fun heq => h.1 heq.symm, ih h.2]

theorem components_ne_nil (p : Path) : p.components ≠ [] := by
  simp [components, split_ne_nil]

theorem components_append_slash (a b : ByteString) :
    components ⟨a ++ slash :: b⟩ = components ⟨a⟩ ++ components ⟨b⟩ := by
  simp [components, split_append_slash]

theorem components_empty : components ⟨[]⟩ = [.here] := rfl

theorem components_of_isName {n : ByteString} (h : IsName n) :
    components ⟨n⟩ = [.name n] := by
  obtain ⟨hne, hslash, hdot, hdots⟩ := h
  simp [components, split_of_notMem hslash, toComponent, hne, hdot, hdots]

theorem isAbsolute_of_isName {n : ByteString} (h : IsName n) :
    isAbsolute ⟨n⟩ = false := by
  obtain ⟨-, hslash, -, -⟩ := h
  cases n with
  | nil => rfl
  | cons c rest =>
      have hc : c ≠ slash := fun heq => hslash (heq ▸ List.mem_cons_self)
      simp [isAbsolute, hc]

theorem isAbsolute_join {p q : Path} (hp : p.isAbsolute = true) : (p / q).isAbsolute = true := by
  have hdiv : p / q = join p q := rfl
  have hhead : ∀ more : ByteString, isAbsolute ⟨p.bytes ++ more⟩ = true := by
    intro more
    have hslash : p.bytes.head? = some slash := of_decide_eq_true hp
    obtain ⟨rest, hrest⟩ := List.head?_eq_some_iff.mp hslash
    exact decide_eq_true (by rw [hrest]; rfl)
  rw [hdiv, join]
  split_ifs with hq hfile
  · exact hq
  · exact hhead _
  · exact hhead _

theorem absolute_of_isAbsolute (currentDir : Path) {p : Path} (hp : p.isAbsolute = true) :
    absolute currentDir p = some p := by
  have hne : p.isEmpty = false := by
    obtain ⟨bytes⟩ := p
    cases bytes with
    | nil => cases hp
    | cons c rest => rfl
  rw [absolute, if_neg (by simp [hne]), if_pos hp]

theorem isAbsolute_of_absolute {currentDir p q : Path} (hdir : currentDir.isAbsolute = true)
    (h : absolute currentDir p = some q) : q.isAbsolute = true := by
  unfold absolute at h
  split_ifs at h with hempty hp
  · cases h
    exact hp
  · cases h
    exact isAbsolute_join hdir

/-- A path that does not end in a component is empty or ends in a slash. -/
theorem eq_nil_or_eq_append_slash {p : Path} (h : p.hasFilename = false) :
    p.bytes = [] ∨ ∃ a, p.bytes = a ++ [slash] := by
  rcases List.eq_nil_or_concat p.bytes with hnil | ⟨a, c, hc⟩
  · exact Or.inl hnil
  · rw [List.concat_eq_append] at hc
    rw [hasFilename, hc] at h
    have hslash : c = slash := by simpa using h
    exact Or.inr ⟨a, by rw [hc, hslash]⟩

/-- The components of `p / q` for a relative `q` are those of `p` and then those of `q`,
up to one that stays where it is. -/
theorem components_join {p q : Path} (hq : q.isAbsolute = false) :
    (p / q).components = p.components ++ q.components ∨
      ∃ before, p.components = before ++ [.here] ∧
        (p / q).components = before ++ q.components := by
  have hdiv : p / q = join p q := rfl
  rw [hdiv, join, if_neg (by simp [hq])]
  cases hfile : p.hasFilename with
  | true =>
      rw [if_pos rfl, components_append_slash]
      exact Or.inl rfl
  | false =>
      rw [if_neg Bool.false_ne_true]
      right
      obtain ⟨bytes⟩ := p
      rcases eq_nil_or_eq_append_slash hfile with hnil | ⟨a, ha⟩
      · dsimp only at hnil
        subst hnil
        exact ⟨[], rfl, rfl⟩
      · dsimp only at ha
        subst ha
        refine ⟨components ⟨a⟩, components_append_slash a [], ?_⟩
        rw [List.append_assoc]
        exact components_append_slash a q.bytes

theorem locate_join {p q : Path} (hq : q.isAbsolute = false) :
    (p / q).locate = PathComponent.target p.locate q.components := by
  rcases components_join (p := p) hq with h | ⟨before, hp, h⟩
  · rw [locate, h, PathComponent.target_append]
    rfl
  · rw [locate, locate, h, hp, PathComponent.target_append, PathComponent.target_append]
    rfl

theorem mem_visited_join {p q : Path} (hq : q.isAbsolute = false) {d : List ByteString} :
    d ∈ (p / q).visited ↔
      d ∈ p.visited ∨ d ∈ PathComponent.visited p.locate q.components := by
  rcases components_join (p := p) hq with h | ⟨before, hp, h⟩
  · rw [visited, h, PathComponent.visited_append, List.mem_append]
    rfl
  · have hhere : PathComponent.target [] p.components = PathComponent.target [] before := by
      rw [hp, PathComponent.target_append]
      rfl
    obtain ⟨c, rest, hcomponents⟩ := List.exists_cons_of_ne_nil q.components_ne_nil
    rw [visited, visited, locate, h, hhere, hp, PathComponent.visited_append,
      PathComponent.visited_append, hcomponents]
    simp only [PathComponent.visited, List.mem_append, List.mem_cons, List.not_mem_nil,
      or_false]
    tauto

theorem locate_join_name (p : Path) {n : ByteString} (h : IsName n) :
    (p / (⟨n⟩ : Path)).locate = p.locate ++ [n] := by
  rw [locate_join (isAbsolute_of_isName h), components_of_isName h]
  rfl

theorem mem_visited_join_name (p : Path) {n : ByteString} (h : IsName n)
    {d : List ByteString} : d ∈ (p / (⟨n⟩ : Path)).visited ↔ d ∈ p.visited ∨ d = p.locate := by
  rw [mem_visited_join (isAbsolute_of_isName h), components_of_isName h]
  simp [PathComponent.visited]

theorem root_mem_visited (p : Path) : [] ∈ p.visited := by
  obtain ⟨c, rest, hcomponents⟩ := List.exists_cons_of_ne_nil p.components_ne_nil
  rw [visited, hcomponents]
  exact List.mem_cons_self

/-! ### File names and parents -/

theorem filename_append_slash (a : ByteString) {n : ByteString} (h : slash ∉ n) :
    filename ⟨a ++ slash :: n⟩ = ⟨n⟩ := by
  have hall : ∀ c ∈ n.reverse, decide (c ≠ slash) = true := by
    intro c hc
    exact decide_eq_true fun heq => h (heq ▸ List.mem_reverse.mp hc)
  have hreverse : (a ++ slash :: n).reverse = n.reverse ++ slash :: a.reverse := by simp
  rw [filename, hreverse, List.takeWhile_append_of_pos hall]
  simp

theorem filename_of_notMem {n : ByteString} (h : slash ∉ n) : filename ⟨n⟩ = ⟨n⟩ := by
  have hall : ∀ c ∈ n.reverse, decide (c ≠ slash) = true := by
    intro c hc
    exact decide_eq_true fun heq => h (heq ▸ List.mem_reverse.mp hc)
  rw [filename, List.takeWhile_eq_self_iff.mpr hall, List.reverse_reverse]

theorem filename_join_name (p : Path) {n : ByteString} (h : IsName n) :
    (p / (⟨n⟩ : Path)).filename = ⟨n⟩ := by
  have hdiv : p / (⟨n⟩ : Path) = join p ⟨n⟩ := rfl
  rw [hdiv, join, if_neg (by simp [isAbsolute_of_isName h])]
  cases hfile : p.hasFilename with
  | true => exact filename_append_slash _ h.2.1
  | false =>
      rw [if_neg Bool.false_ne_true]
      rcases eq_nil_or_eq_append_slash hfile with hnil | ⟨a, ha⟩
      · rw [hnil]
        exact filename_of_notMem h.2.1
      · rw [ha, List.append_assoc]
        exact filename_append_slash a h.2.1

theorem join_relative (p : Path) {q : Path} (hq : q.isAbsolute = false) :
    p / q = if p.hasFilename then ⟨p.bytes ++ slash :: q.bytes⟩ else ⟨p.bytes ++ q.bytes⟩ :=
  if_neg (by simp [hq])

theorem join_of_relative {p q : Path} (hp : p.hasFilename = true) (hq : q.isAbsolute = false) :
    p / q = ⟨p.bytes ++ slash :: q.bytes⟩ := by
  rw [join_relative p hq, if_pos hp]

theorem join_of_isAbsolute (p : Path) {q : Path} (hq : q.isAbsolute = true) : p / q = q :=
  if_pos hq

theorem hasFilename_join_name (p : Path) {n : ByteString} (h : IsName n) :
    (p / (⟨n⟩ : Path)).hasFilename = true := by
  have hdiv : p / (⟨n⟩ : Path) = join p ⟨n⟩ := rfl
  have hlast : ∀ before : ByteString, hasFilename ⟨before ++ n⟩ = true := by
    intro before
    obtain ⟨r, c, hc⟩ := List.eq_nil_or_concat n |>.resolve_left h.1
    rw [List.concat_eq_append] at hc
    have hne : c ≠ slash := fun heq => h.2.1 (by simp [hc, heq])
    rw [hasFilename, hc, ← List.append_assoc, List.getLast?_append]
    simpa using hne
  rw [hdiv, join, if_neg (by simp [isAbsolute_of_isName h])]
  split
  · rw [List.append_cons]
    exact hlast _
  · exact hlast _

/-- The name of the file that a joined path leads to is that of its last part. -/
theorem filename_join {p q : Path} (hp : p.hasFilename = true) (hq : q.isAbsolute = false) :
    (p / q).filename = q.filename := by
  have hreverse : (p.bytes ++ slash :: q.bytes).reverse =
      q.bytes.reverse ++ slash :: p.bytes.reverse := by simp
  rw [join_of_relative hp hq, filename, filename, hreverse]
  by_cases hall : ∀ c ∈ q.bytes.reverse, decide (c ≠ slash) = true
  · rw [List.takeWhile_append_of_pos hall, List.takeWhile_eq_self_iff.mpr hall]
    simp
  · have hstops : (q.bytes.reverse.takeWhile fun c => decide (c ≠ slash)).length ≠
        q.bytes.reverse.length := by
      intro hlength
      exact hall (List.takeWhile_eq_self_iff.mp
        ((List.takeWhile_prefix _).eq_of_length hlength))
    rw [List.takeWhile_append, if_neg hstops]

theorem slash_notMem_filename (p : Path) : slash ∉ p.filename.bytes := by
  intro hmem
  have hfirst := List.mem_takeWhile_imp (List.mem_reverse.mp hmem)
  simp at hfirst

/-- A path is its directory part, then the name of the file. -/
theorem directory_append_filename (p : Path) :
    p.bytes = (p.bytes.reverse.dropWhile (· ≠ slash)).reverse ++ p.filename.bytes := by
  rw [filename, ← List.reverse_append, List.takeWhile_append_dropWhile, List.reverse_reverse]

/-- The directory part is empty or ends in a slash. -/
theorem directory_cases (p : Path) :
    (p.bytes.reverse.dropWhile (· ≠ slash)).reverse = [] ∨
      ∃ before, (p.bytes.reverse.dropWhile (· ≠ slash)).reverse = before ++ [slash] := by
  rcases List.eq_nil_or_concat (p.bytes.reverse.dropWhile (· ≠ slash)).reverse with
    hnil | ⟨before, c, hc⟩
  · exact Or.inl hnil
  · have hslash : c = slash := by
      have hhead := List.head?_dropWhile_not (fun c : UInt8 => decide (c ≠ slash)) p.bytes.reverse
      rw [← List.reverse_reverse (List.dropWhile _ _), hc, List.concat_eq_append,
        List.reverse_append] at hhead
      simpa using hhead
    exact Or.inr ⟨before, by rw [hc, hslash, List.concat_eq_append]⟩

/-- The last component is that of the name of the file. -/
theorem components_filename (p : Path) :
    ∃ before, p.components = before ++ [toComponent p.filename.bytes] := by
  have hname : components ⟨p.filename.bytes⟩ = [toComponent p.filename.bytes] := by
    rw [components, split_of_notMem (slash_notMem_filename p)]
    rfl
  have hbytes := directory_append_filename p
  rcases directory_cases p with hnil | ⟨before, hbefore⟩
  · rw [hnil, List.nil_append] at hbytes
    refine ⟨[], ?_⟩
    rw [List.nil_append, ← hname]
    exact congrArg (fun bytes => components ⟨bytes⟩) hbytes
  · rw [hbefore, List.append_assoc] at hbytes
    refine ⟨components ⟨before⟩, ?_⟩
    rw [← hname, ← components_append_slash]
    exact congrArg (fun bytes => components ⟨bytes⟩) hbytes

/-- The file is called as the last component says. -/
theorem filename_of_components {p : Path} {before : List (PathComponent ByteString)}
    {n : ByteString} (h : p.components = before ++ [.name n]) : p.filename = ⟨n⟩ := by
  obtain ⟨before', hfilename⟩ := components_filename p
  have hlast : .name n = toComponent p.filename.bytes := by
    rw [h] at hfilename
    exact List.singleton_inj.mp (List.append_inj' hfilename rfl).2
  have hbytes : p.filename.bytes = n := by
    unfold toComponent at hlast
    split_ifs at hlast
    cases hlast
    rfl
  exact congrArg Path.mk hbytes

theorem isAbsolute_filename (p : Path) : p.filename.isAbsolute = false := by
  have hslash := slash_notMem_filename p
  unfold isAbsolute
  cases hbytes : p.filename.bytes with
  | nil => rfl
  | cons c rest =>
      rw [hbytes, List.mem_cons, not_or] at hslash
      simpa using fun heq : c = slash => hslash.1 heq.symm

theorem locate_join_filename (p q : Path) :
    (p / q.filename).locate = PathComponent.next p.locate (toComponent q.filename.bytes) := by
  have hcomponents : q.filename.components = [toComponent q.filename.bytes] := by
    rw [components, split_of_notMem (slash_notMem_filename q)]
    rfl
  rw [locate_join (isAbsolute_filename q), hcomponents]
  rfl

/-- The names among the components are ordinary names. -/
theorem isName_of_mem_components {p : Path} {n : ByteString} (h : .name n ∈ p.components) :
    IsName n := by
  have hsplit : ∀ (b : ByteString), ∀ segment ∈ split b, slash ∉ segment := by
    intro b
    induction b with
    | nil => simp [split]
    | cons c rest ih =>
        rw [split]
        split
        · rw [List.forall_mem_cons]
          exact ⟨List.not_mem_nil, ih⟩
        · next hc =>
            cases hrest : split rest with
            | nil => simpa using fun heq => hc heq.symm
            | cons segment more =>
                rw [hrest, List.forall_mem_cons] at ih
                rw [List.forall_mem_cons]
                refine ⟨?_, ih.2⟩
                rw [List.mem_cons, not_or]
                exact ⟨fun heq => hc heq.symm, ih.1⟩
  obtain ⟨segment, hsegment, hcomponent⟩ := List.mem_map.mp h
  unfold toComponent at hcomponent
  split_ifs at hcomponent with hhere hup
  cases hcomponent
  rw [not_or] at hhere
  exact ⟨hhere.1, hsplit _ _ hsegment, hhere.2, hup⟩

theorem hasFilename_append (before : ByteString) {b : ByteString} (hb : b ≠ []) :
    hasFilename ⟨before ++ b⟩ = hasFilename ⟨b⟩ := by
  rw [hasFilename, hasFilename, List.getLast?_append_of_ne_nil _ hb]

theorem isAbsolute_join_relative {p q : Path} (hne : p.bytes ≠ []) (hp : p.isAbsolute = false)
    (hq : q.isAbsolute = false) : (p / q).isAbsolute = false := by
  obtain ⟨c, rest, hcons⟩ := List.exists_cons_of_ne_nil hne
  rw [isAbsolute, hcons] at hp
  rw [join_relative p hq, isAbsolute]
  split <;> rw [hcons] <;> exact hp

theorem join_assoc (a : Path) {p q : Path} (hne : p.bytes ≠ []) (hp : p.isAbsolute = false)
    (hq : q.isAbsolute = false) : a / p / q = a / (p / q) := by
  have hfile : (a / p).hasFilename = p.hasFilename := by
    rw [join_relative a hp]
    split
    · rw [List.append_cons]
      exact hasFilename_append _ hne
    · exact hasFilename_append _ hne
  rw [join_relative (a / p) hq, join_relative a (isAbsolute_join_relative hne hp hq), hfile,
    join_relative a hp, join_relative p hq]
  cases p.hasFilename <;> cases a.hasFilename <;> simp

theorem absolute_of_relative (currentDir : Path) {p : Path} (hne : p.bytes ≠ [])
    (hp : p.isAbsolute = false) : absolute currentDir p = some (currentDir / p) := by
  rw [absolute, if_neg (by simpa [isEmpty] using hne), if_neg (by simp [hp])]

/-- A path is made absolute in its first part. -/
theorem absolute_join {currentDir p p' : Path} (h : absolute currentDir p = some p') (q : Path) :
    absolute currentDir (p / q) = some (p' / q) := by
  cases hq : q.isAbsolute with
  | true =>
      rw [join_of_isAbsolute p hq, join_of_isAbsolute p' hq]
      exact absolute_of_isAbsolute currentDir hq
  | false =>
      by_cases hne : p.bytes = []
      · have hempty : p.isEmpty = true := List.isEmpty_iff.mpr hne
        rw [absolute, if_pos hempty] at h
        cases h
      cases hp : p.isAbsolute with
      | true =>
          rw [absolute_of_isAbsolute _ hp] at h
          cases h
          exact absolute_of_isAbsolute currentDir (isAbsolute_join hp)
      | false =>
          rw [absolute_of_relative _ hne hp] at h
          cases h
          rw [join_assoc _ hne hp hq]
          apply absolute_of_relative _ _ (isAbsolute_join_relative hne hp hq)
          rw [join_relative p hq]
          split <;> simp [hne]

/-- The directory that a path is relative to. -/
theorem exists_absolute_join (currentDir : {p : Path // p.isAbsolute = true}) (p : Path) :
    ∃ base : Path, base.isAbsolute = true ∧ ∀ {n : ByteString}, IsName n →
      absolute currentDir (p / (⟨n⟩ : Path)) = some (base / (⟨n⟩ : Path)) := by
  cases habsolute : p.isAbsolute with
  | true => exact ⟨p, habsolute, fun _ => absolute_of_isAbsolute _ (isAbsolute_join habsolute)⟩
  | false =>
      by_cases hempty : p.bytes = []
      · refine ⟨currentDir, currentDir.2, fun {n} hn => ?_⟩
        have hjoin : p / (⟨n⟩ : Path) = ⟨n⟩ := by
          obtain ⟨bytes⟩ := p
          dsimp only at hempty
          subst hempty
          exact join_relative ⟨[]⟩ (isAbsolute_of_isName hn)
        rw [hjoin]
        exact absolute_of_relative _ hn.1 (isAbsolute_of_isName hn)
      · refine ⟨currentDir / p, isAbsolute_join currentDir.2, fun {n} hn => ?_⟩
        exact absolute_join (absolute_of_relative _ hempty habsolute) _

/-- A text is what is left when the slashes at its end are taken away, and these slashes. -/
theorem exists_slashes (b : ByteString) :
    (∃ slashes, (∀ c ∈ slashes, c = slash) ∧
      b = (b.reverse.dropWhile (· = slash)).reverse ++ slashes) ∧
    ∀ before, (b.reverse.dropWhile (· = slash)).reverse ≠ before ++ [slash] := by
  refine ⟨⟨(b.reverse.takeWhile (· = slash)).reverse, ?_, ?_⟩, ?_⟩
  · intro c hc
    simpa using List.mem_takeWhile_imp (List.mem_reverse.mp hc)
  · rw [← List.reverse_append, List.takeWhile_append_dropWhile, List.reverse_reverse]
  · intro before hbefore
    have hhead := List.head?_dropWhile_not (fun c : UInt8 => decide (c = slash)) b.reverse
    rw [← List.reverse_reverse (List.dropWhile _ _), hbefore] at hhead
    simp at hhead

/-- Between the parent and the name of the file there are only slashes. -/
theorem parentPath_cases (p : Path) :
    (p.parentPath.isEmpty = true ∧ p.bytes = p.filename.bytes) ∨
    ((∀ c ∈ p.parentPath.bytes, c = slash) ∧ ∃ slashes, (∀ c ∈ slashes, c = slash) ∧
      p.bytes = slashes ++ p.filename.bytes) ∨
    ∃ slashes, (∀ c ∈ slashes, c = slash) ∧
      p.bytes = p.parentPath.bytes ++ slash :: (slashes ++ p.filename.bytes) := by
  have hbytes := directory_append_filename p
  have hdirectory := directory_cases p
  unfold parentPath
  generalize (p.bytes.reverse.dropWhile (· ≠ slash)).reverse = directory at hbytes hdirectory ⊢
  obtain ⟨⟨slashes, hslashes, hstripped⟩, hends⟩ := exists_slashes directory
  dsimp only
  generalize (directory.reverse.dropWhile (· = slash)).reverse = stripped
    at hstripped hends ⊢
  split_ifs with hall hroot
  · have hall' : ∀ c ∈ p.bytes, c = slash := by simpa using hall
    refine Or.inr (Or.inl ⟨hall', directory, fun c hc => hall' c ?_, hbytes⟩)
    rw [hbytes]
    exact List.mem_append_left _ hc
  · rw [Bool.and_eq_true, List.isEmpty_iff] at hroot
    rw [hroot.1, List.nil_append] at hstripped
    exact Or.inr (Or.inl ⟨by simp, slashes, hslashes, by rw [← hstripped, ← hbytes]⟩)
  · rw [Bool.and_eq_true, not_and_or, List.isEmpty_iff] at hroot
    rcases hdirectory with hnil | ⟨before, hbefore⟩
    · subst hnil
      refine Or.inl ⟨?_, hbytes⟩
      rw [(List.append_eq_nil_iff.mp hstripped.symm).1]
      rfl
    · -- the slash at the end of the directory part has been taken away
      cases slashes with
      | nil =>
          rw [List.append_nil] at hstripped
          exact absurd (hstripped.symm.trans hbefore) (hends before)
      | cons c rest =>
          rw [List.forall_mem_cons] at hslashes
          refine Or.inr (Or.inr ⟨rest, hslashes.2, ?_⟩)
          rw [hbytes, hstripped, hslashes.1]
          simp

theorem slash_mem_of_isAbsolute {p : Path} (h : p.isAbsolute = true) : slash ∈ p.bytes :=
  List.mem_of_mem_head? (of_decide_eq_true h)

/-- An absolute path has a parent. -/
theorem isEmpty_parentPath_of_isAbsolute {p : Path} (h : p.isAbsolute = true) :
    p.parentPath.isEmpty = false := by
  have hbytes := directory_append_filename p
  have hslash := slash_mem_of_isAbsolute h
  unfold parentPath
  generalize (p.bytes.reverse.dropWhile (· ≠ slash)).reverse = directory at hbytes ⊢
  dsimp only
  split_ifs with hall hroot
  · exact List.isEmpty_eq_false_iff.mpr (List.ne_nil_of_mem hslash)
  · rfl
  · rw [Bool.and_eq_true, not_and, Bool.not_eq_true', Bool.not_eq_false] at hroot
    by_contra hempty
    have hdirectory := List.isEmpty_iff.mp (hroot (Bool.not_eq_false _ ▸ hempty))
    rw [hdirectory, List.nil_append] at hbytes
    exact slash_notMem_filename p (hbytes ▸ hslash)

theorem components_of_slashes {b : ByteString} (h : ∀ c ∈ b, c = slash) :
    ∀ c ∈ components ⟨b⟩, c = .here := by
  induction b with
  | nil => simp [components_empty]
  | cons c rest ih =>
      rw [List.forall_mem_cons] at h
      have hcomponents : components ⟨c :: rest⟩ = .here :: components ⟨rest⟩ := by
        simp [components, split, h.1, toComponent]
      rw [hcomponents, List.forall_mem_cons]
      exact ⟨rfl, ih h.2⟩

theorem target_of_here {l : List ByteString} {components : List (PathComponent ByteString)}
    (h : ∀ c ∈ components, c = .here) : PathComponent.target l components = l := by
  induction components with
  | nil => rfl
  | cons c rest ih =>
      rw [List.forall_mem_cons] at h
      rw [h.1]
      exact ih h.2

theorem eq_of_mem_visited_here {l d : List ByteString}
    {components : List (PathComponent ByteString)} (h : ∀ c ∈ components, c = .here)
    (hd : d ∈ PathComponent.visited l components) : d = l := by
  induction components with
  | nil => cases hd
  | cons c rest ih =>
      rw [List.forall_mem_cons] at h
      rw [PathComponent.visited, h.1] at hd
      rcases List.mem_cons.mp hd with hd | hd
      · exact hd
      · exact ih h.2 hd

/-- The way to a file goes through its parent. -/
theorem mem_visited_of_parentPath {p : Path} (hparent : p.parentPath.isEmpty = false)
    {d : List ByteString} (hd : d ∈ p.parentPath.visited ∨ d = p.parentPath.locate) :
    d ∈ p.visited := by
  rcases parentPath_cases p with ⟨hempty, -⟩ | ⟨hslashes, -⟩ | ⟨rest, -, hrest⟩
  · rw [hparent] at hempty
    cases hempty
  · have hhere := components_of_slashes hslashes
    have hroot : d = [] := by
      rcases hd with hd | hd
      · exact eq_of_mem_visited_here hhere hd
      · rw [hd]
        exact target_of_here hhere
    rw [hroot]
    exact root_mem_visited p
  · have hcomponents : p.components = p.parentPath.components ++
        components ⟨rest ++ p.filename.bytes⟩ := by
      rw [← components_append_slash, ← hrest]
    obtain ⟨c, more, hmore⟩ :=
      List.exists_cons_of_ne_nil (components_ne_nil ⟨rest ++ p.filename.bytes⟩)
    rw [visited, hcomponents, PathComponent.visited_append, hmore, List.mem_append]
    rcases hd with hd | hd
    · exact Or.inl hd
    · exact Or.inr (hd ▸ List.mem_cons_self)

theorem components_slash (b : ByteString) :
    components ⟨slash :: b⟩ = .here :: components ⟨b⟩ :=
  components_append_slash [] b

/-- Slashes before a name stay where they are. -/
theorem visited_slashes {slashes n : ByteString} (hslashes : ∀ c ∈ slashes, c = slash)
    (hn : slash ∉ n) {l d : List ByteString}
    (hd : d ∈ PathComponent.visited l (components ⟨slashes ++ n⟩)) : d = l := by
  induction slashes with
  | nil =>
      have hone : components ⟨n⟩ = [toComponent n] := by
        rw [components, split_of_notMem hn]
        rfl
      rw [List.nil_append, hone] at hd
      exact List.mem_singleton.mp hd
  | cons c rest ih =>
      rw [List.forall_mem_cons] at hslashes
      rw [hslashes.1, List.cons_append, components_slash, PathComponent.visited] at hd
      rcases List.mem_cons.mp hd with hd | hd
      · exact hd
      · exact ih hslashes.2 hd

/-- The directories on the way to a file are those on the way to its parent, and the
parent. -/
theorem visited_subset_parentPath {p : Path} {d : List ByteString} (hd : d ∈ p.visited) :
    d ∈ p.parentPath.visited ∨ d = p.parentPath.locate := by
  have hname := slash_notMem_filename p
  have hroot : [] ∈ p.parentPath.visited := root_mem_visited _
  have hleading : ∀ {slashes : ByteString}, (∀ c ∈ slashes, c = slash) →
      p.bytes = slashes ++ p.filename.bytes → d ∈ p.parentPath.visited := by
    intro slashes hslashes hbytes
    have hcomponents : p.components = components ⟨slashes ++ p.filename.bytes⟩ := by
      rw [← hbytes]
    rw [visited, hcomponents] at hd
    rwa [visited_slashes hslashes hname hd]
  rcases parentPath_cases p with ⟨-, hbytes⟩ | ⟨-, slashes, hslashes, hbytes⟩ |
    ⟨slashes, hslashes, hbytes⟩
  · have hnone : ∀ c ∈ ([] : ByteString), c = slash := by simp
    exact Or.inl (hleading hnone hbytes)
  · exact Or.inl (hleading hslashes hbytes)
  · have hcomponents : p.components = p.parentPath.components ++
        components ⟨slashes ++ p.filename.bytes⟩ := by
      rw [← components_append_slash, ← hbytes]
    rw [visited, hcomponents, PathComponent.visited_append, List.mem_append] at hd
    rcases hd with hd | hd
    · exact Or.inl hd
    · exact Or.inr (visited_slashes hslashes hname hd)

end Path

end BtClient
