import BtClient.QuietWorlds

/-!
# Which operation meets which fault

The faults of a world are met in order, one by each operation. For an operation that
returns: which faults it has met, and which are left.
-/

namespace BtClient

open Effect FileSystem

/-- The operation that meets the fault is done all the same. -/
def Fault.passes : Fault → Bool
  | .none | .unnoticed _ => true
  | .reported _ | .crash _ => false

def Fault.isCrash : Fault → Bool
  | .crash _ => true
  | _ => false

/-- The bytes of a write that get to the device. -/
def Fault.arrived (data : ByteString) : Fault → ByteString
  | .none => data
  | .reported reached => data.take reached
  | .unnoticed reached => data.take reached
  | .crash reached => data.take reached

namespace World

/-- The fault that the operation after `n` others meets. -/
def fault (w : World) (n : ℕ) : Fault := w.faults.getD n .none

/-- The world after `n` operations that have changed nothing. -/
def after (w : World) (n : ℕ) : World := { w with faults := w.faults.drop n }

/-- The time that the clock shows. -/
def now (w : World) : TimestampPair := w.clock.headD ⟨"1970-01-01T00:00:00.000000Z", 0⟩

/-- The world when the clock has been read. -/
def ticked (w : World) : World := { w with clock := w.clock.tail }

variable (w : World) (n k : ℕ)

@[simp] theorem tree_after : (w.after n).tree = w.tree := rfl

@[simp] theorem faults_after : (w.after n).faults = w.faults.drop n := rfl

@[simp] theorem fault_after : (w.after n).fault k = w.fault (n + k) := by
  simp only [fault, faults_after, List.getD_eq_getElem?_getD, List.getElem?_drop]

@[simp] theorem after_after : (w.after n).after k = w.after (n + k) := by
  simp only [after, List.drop_drop]

theorem headD_faults : w.faults.headD .none = w.fault 0 := by
  rw [fault, List.getD_eq_getElem?_getD, List.headD_eq_head?_getD, List.head?_eq_getElem?]

@[simp] theorem tree_ticked : w.ticked.tree = w.tree := rfl

@[simp] theorem fault_ticked : w.ticked.fault k = w.fault k := rfl

@[simp] theorem faults_ticked : w.ticked.faults = w.faults := rfl

end World

/-! ### One operation -/

section Operations

variable {w w' : World} {α : Type}

theorem captureTimestamp_eq (w : World) : captureTimestamp w = (.ok w.now, w.ticked) := by
  obtain ⟨t, faults, clock⟩ := w
  cases clock <;> rfl

namespace FileSystem

theorem nextFault_eq (w : World) : nextFault w = (.ok (w.fault 0), w.after 1) := by
  obtain ⟨t, faults, clock⟩ := w
  cases faults <;> rfl

theorem checkpoint_ok_iff :
    checkpoint w = (.ok (), w') ↔ (w.fault 0).passes = true ∧ w' = w.after 1 := by
  rw [checkpoint, bind_ok (nextFault_eq w)]
  cases hfault : w.fault 0 with
  | none => simp [Fault.passes, pure, eq_comm]
  | unnoticed reached => simp [Fault.passes, pure, eq_comm]
  | reported reached => simp [Fault.passes, throwFailure, Effect.throw]
  | crash reached => simp [Fault.passes, Effect.throw]

theorem pathExists_ok_iff {p : Path} {found : Bool} :
    pathExists p w = (.ok found, w') ↔
      (w.fault 0).passes = true ∧ found = (find w.tree p).isSome ∧ w' = w.after 1 := by
  constructor
  · intro h
    obtain ⟨_, w₁, hcheck, hrest⟩ := of_bind_ok h
    obtain ⟨hpasses, rfl⟩ := checkpoint_ok_iff.mp hcheck
    cases hrest
    exact ⟨hpasses, rfl, rfl⟩
  · rintro ⟨hpasses, rfl, rfl⟩
    rw [pathExists, bind_ok (checkpoint_ok_iff.mpr ⟨hpasses, rfl⟩)]
    rfl

theorem openForReading_eq (p : Path) (w : World) :
    openForReading p w =
      (match w.fault 0 with
        | .none | .unnoticed _ => .ok (contentAt w.tree p)
        | .reported _ => .ok none
        | .crash _ => .error .crash,
      w.after 1) := by
  rw [openForReading, bind_ok (nextFault_eq w)]
  cases w.fault 0 <;> rfl

theorem openTruncated_of_passes {p : Path} (h : (w.fault 0).passes = true) :
    openTruncated p w =
      match resolve w.tree p with
      | some l =>
          if h : w.tree.Writable l then
            (.ok (some l), { w.after 1 with tree := w.tree.put l (.file []) h })
          else (.ok none, w.after 1)
      | none => (.ok none, w.after 1) := by
  have htree : tree (w.after 1) = (.ok w.tree, w.after 1) := rfl
  rw [openTruncated, bind_ok (nextFault_eq w)]
  cases hfault : w.fault 0 with
  | none | unnoticed =>
      refine (bind_ok htree).trans ?_
      cases resolve w.tree p with
      | none => rfl
      | some l =>
          dsimp only
          split <;> rfl
  | reported | crash => simp [hfault, Fault.passes] at h

theorem openTruncated_of_not_passes {p : Path} (h : (w.fault 0).passes = false) :
    openTruncated p w = (.ok none, w.after 1) ∨ openTruncated p w = (.error .crash, w.after 1) := by
  rw [openTruncated, bind_ok (nextFault_eq w)]
  cases hfault : w.fault 0 with
  | none | unnoticed => simp [hfault, Fault.passes] at h
  | reported => exact Or.inl rfl
  | crash => exact Or.inr rfl

/-- A file is opened to be written where there is a way to it and it is not a directory. -/
theorem openTruncated_ok_some_iff {p : Path} {l : Location} :
    openTruncated p w = (.ok (some l), w') ↔
      (w.fault 0).passes = true ∧ l = p.locate ∧ Reaches w.tree p ∧
        ∃ h : w.tree.Writable p.locate,
          w' = { w.after 1 with tree := w.tree.put p.locate (.file []) h } := by
  constructor
  · intro h
    cases hpasses : (w.fault 0).passes with
    | false =>
        rcases openTruncated_of_not_passes (p := p) hpasses with hopen | hopen
        · cases hopen.symm.trans h
        · cases hopen.symm.trans h
    | true =>
        rw [openTruncated_of_passes hpasses] at h
        split at h
        · next l' hl =>
            obtain ⟨rfl, hreach⟩ := resolve_eq_some_iff.mp hl
            split at h
            · next hw =>
                cases h
                exact ⟨rfl, rfl, hreach, hw, rfl⟩
            · cases h
        · cases h
  · rintro ⟨hpasses, rfl, hreach, hw, rfl⟩
    rw [openTruncated_of_passes hpasses, resolve_of_reaches hreach]
    dsimp only
    rw [dif_pos hw]

/-- What a write finds and what it leaves. -/
theorem writeBuffered_eq (l : Location) (data : ByteString) (w : World) :
    writeBuffered l data w =
      (match w.fault 0 with
        | .none | .unnoticed _ => .ok true
        | .reported _ => .ok false
        | .crash _ => .error .crash,
      { w.after 1 with tree := appended w.tree l ((w.fault 0).arrived data) }) := by
  rw [writeBuffered, bind_ok (nextFault_eq w)]
  cases w.fault 0 <;> rfl

end FileSystem

end Operations

/-! ### How many faults are met -/

/-- A computation that returns has met `n` faults. -/
def Meets {α : Type} (n : ℕ) (m : Action α) : Prop :=
  ∀ w a w', m w = (.ok a, w') → w'.faults = w.faults.drop n

section Meets

variable {α β : Type} {n k : ℕ}

theorem Meets.bind {m : Action α} {f : α → Action β} (hm : Meets n m) (hf : ∀ a, Meets k (f a)) :
    Meets (n + k) (m >>= f) := by
  intro w b w' h
  obtain ⟨a, w₁, hfirst, hsecond⟩ := of_bind_ok h
  rw [hf a _ _ _ hsecond, hm _ _ _ hfirst, List.drop_drop]

theorem meets_pure (a : α) : Meets 0 (pure a : Action α) := by
  intro w b w' h
  cases h
  rfl

theorem meets_throwFailure (failure : Failure) : Meets n (throwFailure failure : Action α) := by
  intro w b w' h
  cases h

theorem meets_openTruncated (p : Path) : Meets 1 (openTruncated p) := by
  intro w opened w' h
  cases hpasses : (w.fault 0).passes with
  | false =>
      rcases openTruncated_of_not_passes (p := p) hpasses with hopen | hopen
      · cases hopen.symm.trans h
        rfl
      · cases hopen.symm.trans h
  | true =>
      rw [openTruncated_of_passes hpasses] at h
      split at h
      · split at h <;> cases h <;> rfl
      · cases h
        rfl

theorem meets_writeBuffered (l : Location) (data : ByteString) : Meets 1 (writeBuffered l data) := by
  intro w good w' h
  rw [writeBuffered_eq] at h
  rw [← (Prod.mk.inj h).2]
  rfl

theorem meets_writeFlushed (l : Location) (data : ByteString) : Meets 1 (writeFlushed l data) := by
  intro w good w' h
  rw [writeFlushed, bind_ok (nextFault_eq w)] at h
  cases hfault : w.fault 0 with
  | crash =>
      rw [hfault] at h
      cases h
  | none | unnoticed | reported =>
      rw [hfault] at h
      cases h
      rfl

theorem meets_closeStream : Meets 1 closeStream := by
  intro w closed w' h
  rw [closeStream, bind_ok (nextFault_eq w)] at h
  cases hfault : w.fault 0 with
  | crash =>
      rw [hfault] at h
      cases h
  | none | unnoticed | reported =>
      rw [hfault] at h
      cases h
      rfl

end Meets

/-! ### Directories -/

/-- How many of these places are missing. -/
def missingAmong (t : Tree) (places : List Location) : ℕ :=
  (places.toFinset.filter fun l => t.get? l = none).card

section Directories

variable {w w' : World} {p : Path} {t : Tree} {l : Location} {places : List Location}

/-- Directories that are there are not made. -/
theorem ensureDirectories_of_isDir (components : List (PathComponent ByteString))
    (h : ∀ k ∈ PathComponent.visited l components ++ [PathComponent.target l components],
      w.tree.isDir k) : ensureDirectories l components w = (.ok (), w) := by
  have hone : ∀ l, w.tree.isDir l → ensureDirectory l w = (.ok (), w) := by
    intro l hl
    have htree : tree w = (.ok w.tree, w) := rfl
    rw [ensureDirectory, bind_ok htree, show w.tree.get? l = some .dir from hl]
    rfl
  induction components generalizing l with
  | nil => exact hone l (h l List.mem_cons_self)
  | cons c rest ih =>
      rw [ensureDirectories, bind_ok (hone l (h l List.mem_cons_self))]
      exact ih fun k hk => h k (List.mem_cons_of_mem _ hk)

theorem createDirectories_of_isDir (hreach : Reaches w.tree p) (hdir : w.tree.isDir p.locate) :
    createDirectories p w = (.ok (), w) := by
  apply ensureDirectories_of_isDir
  intro k hk
  rcases List.mem_append.mp hk with hk | hk
  · exact hreach k hk
  · rw [List.mem_singleton.mp hk]
    exact hdir

/-- On the way to a file that is there, no directory is made. -/
theorem ensureParentDirectory_of_reaches (hreach : Reaches w.tree p) :
    ensureParentDirectory p w = (.ok (), w) := by
  unfold ensureParentDirectory
  cases hparent : p.parentPath.isEmpty with
  | true => rfl
  | false =>
      obtain ⟨hway, hdir⟩ := reaches_parentPath hreach hparent
      exact createDirectories_of_isDir hway hdir

/-- Making directories does not read the clock. -/
theorem keeps_clock_createDirectories (p : Path) (clock : List TimestampPair) :
    Keeps (fun w : World => w.clock = clock) (createDirectories p) := by
  have hcheck : Keeps (fun w : World => w.clock = clock) checkpoint := by
    rintro ⟨t, faults, _⟩ hw
    cases faults with
    | nil => exact hw
    | cons fault rest => cases fault <;> exact hw
  have hone : ∀ l, Keeps (fun w : World => w.clock = clock) (ensureDirectory l) := by
    intro l
    refine Keeps.bind (m := tree) (fun _ hw => hw) fun t => ?_
    split
    · exact Keeps.pure _
    · exact Keeps.throw _
    · refine Keeps.bind hcheck fun _ => ?_
      split
      · exact fun _ hw => hw
      · exact Keeps.throw _
  have hall : ∀ (components : List (PathComponent ByteString)) (l : Location),
      Keeps (fun w : World => w.clock = clock) (ensureDirectories l components) := by
    intro components
    induction components with
    | nil => exact hone
    | cons c rest ih => exact fun l => Keeps.bind (hone l) fun _ => ih (c.next l)
  exact hall p.components []

theorem missingAmong_cons_of_isDir (h : t.isDir l) :
    missingAmong t (l :: places) = missingAmong t places := by
  have hsome : ¬ t.get? l = none := by
    rw [show t.get? l = some .dir from h]
    simp
  rw [missingAmong, List.toFinset_cons, Finset.filter_insert, if_neg hsome, missingAmong]

/-- When a missing directory has been made, the others are still missing. -/
theorem missingAmong_cons_of_missing (h : t.get? l = none) (hw : t.Writable l) :
    missingAmong t (l :: places) = 1 + missingAmong (t.put l .dir hw) places := by
  have hset : (l :: places).toFinset.filter (fun k => t.get? k = none) =
      insert l (places.toFinset.filter fun k => (t.put l .dir hw).get? k = none) := by
    ext k
    simp only [Finset.mem_filter, Finset.mem_insert, List.mem_toFinset, List.mem_cons,
      FileTree.get?_put]
    by_cases hk : k = l
    · simp [hk, h]
    · simp [hk]
  have hnot : l ∉ places.toFinset.filter fun k => (t.put l .dir hw).get? k = none := by
    simp [FileTree.get?_put]
  rw [missingAmong, hset, Finset.card_insert_of_notMem hnot, missingAmong, add_comm]

theorem ensureDirectory_ok (h : ensureDirectory l w = (.ok (), w')) :
    (w.tree.isDir l ∧ w' = w) ∨
      (w.tree.get? l = none ∧ ∃ hw : w.tree.Writable l,
        w' = { w.after 1 with tree := w.tree.put l .dir hw }) := by
  have htree : tree w = (.ok w.tree, w) := rfl
  rw [ensureDirectory, bind_ok htree] at h
  cases hget : w.tree.get? l with
  | some node =>
      rw [hget] at h
      cases node with
      | dir =>
          cases h
          exact Or.inl ⟨hget, rfl⟩
      | file content => cases h
  | none =>
      rw [hget] at h
      obtain ⟨_, w₁, hcheck, hrest⟩ := of_bind_ok h
      obtain ⟨-, rfl⟩ := checkpoint_ok_iff.mp hcheck
      split at hrest
      · next hw =>
          cases hrest
          exact Or.inr ⟨rfl, hw, rfl⟩
      · cases hrest

/-- Each missing directory is made with one operation. -/
theorem faults_ensureDirectories {components : List (PathComponent ByteString)}
    (h : ensureDirectories l components w = (.ok (), w')) :
    w'.faults = w.faults.drop (missingAmong w.tree
      (PathComponent.visited l components ++ [PathComponent.target l components])) := by
  have hone : ∀ {l : Location} {w w₁ : World}, ensureDirectory l w = (.ok (), w₁) →
      ∀ places, w₁.faults.drop (missingAmong w₁.tree places) =
        w.faults.drop (missingAmong w.tree (l :: places)) := by
    intro l w w₁ hmade places
    obtain ⟨hdir, rfl⟩ | ⟨hmissing, hw, rfl⟩ := ensureDirectory_ok hmade
    · rw [missingAmong_cons_of_isDir hdir]
    · rw [missingAmong_cons_of_missing hmissing hw]
      exact List.drop_drop
  induction components generalizing l w with
  | nil => exact hone h []
  | cons c rest ih =>
      obtain ⟨_, w₁, hfirst, hrest⟩ := of_bind_ok h
      rw [ih hrest]
      exact hone hfirst _

theorem faults_createDirectories (h : createDirectories p w = (.ok (), w')) :
    w'.faults = w.faults.drop (missingAmong w.tree (p.visited ++ [p.locate])) :=
  faults_ensureDirectories h

theorem missingAmong_congr {places' : List Location} (h : ∀ l, l ∈ places ↔ l ∈ places') :
    missingAmong t places = missingAmong t places' := by
  have hset : places.toFinset = places'.toFinset := by
    ext l
    rw [List.mem_toFinset, List.mem_toFinset, h]
  rw [missingAmong, hset, missingAmong]

/-- The directory that a path lies in and those on the way to it are the ones on the way to the path. -/
theorem missingAmong_parentPath (hparent : p.parentPath.isEmpty = false) :
    missingAmong t (p.parentPath.visited ++ [p.parentPath.locate]) = missingAmong t p.visited := by
  apply missingAmong_congr
  intro l
  rw [List.mem_append, List.mem_singleton]
  exact ⟨Path.mem_visited_of_parentPath hparent, Path.visited_subset_parentPath⟩

/-- A rename is one operation. -/
theorem rename_ok {source destination : Path} (h : rename source destination w = (.ok (), w')) :
    w'.faults = w.faults.drop 1 ∧ w'.clock = w.clock := by
  obtain ⟨_, w₁, hcheck, hrest⟩ := of_bind_ok h
  obtain ⟨-, rfl⟩ := checkpoint_ok_iff.mp hcheck
  refine Triple.apply_ok (P := fun v => v.faults = w.faults.drop 1 ∧ v.clock = w.clock)
    (Keeps.bind (m := tree) (fun _ hv => hv) fun t => ?_) ⟨rfl, rfl⟩ hrest
  split
  · exact Keeps.throw _
  · split
    · split
      · exact fun _ hv => hv
      · exact Keeps.throw _
    · exact Keeps.throw _

end Directories

/-! ### A manifest that is read if possible -/

section Reading

variable [JsonText] {w w' : World} {p : Path} {α : Type} {f : Json → α} {fallback a : α}

/-- What is seen of a value by a read that meets the fault. -/
def Fault.seen (value : Option Json) (fault : Fault) : Option Json :=
  if fault.passes then value else Option.none

omit [JsonText] in
theorem catchFailure_pure_ok_iff {m : Action α} :
    catchFailure m (fun _ => pure fallback) w = (.ok a, w') ↔
      m w = (.ok a, w') ∨ (∃ failure, m w = (.error (.thrown failure), w')) ∧ a = fallback := by
  unfold catchFailure handle
  cases hm : m w with
  | mk r w₁ =>
      cases r with
      | ok b => simp
      | error e =>
          cases e with
          | thrown failure => simp [pure, eq_comm, and_comm]
          | crash => simp [Effect.throw]

/-- How a file is read and its value used, or something else if that fails. -/
theorem readOr_ok_iff :
    catchFailure
        (do
          let previous ← readJsonFile p
          pure (f previous))
        (fun _ => pure fallback) w = (.ok a, w') ↔
      (w.fault 0).isCrash = false ∧
        a = (((w.fault 0).seen (valueAt w.tree p)).elim fallback f) ∧ w' = w.after 1 := by
  rw [catchFailure_pure_ok_iff]
  have hread := openForReading_eq p w
  cases hfault : w.fault 0 with
  | none | unnoticed =>
      rw [hfault] at hread
      rw [readJsonFile, bind_assoc, bind_ok hread, Fault.seen, valueAt]
      cases hcontent : contentAt w.tree p with
      | none => simp [throwFailure, Effect.throw, bind, Fault.isCrash, Fault.passes, eq_comm, and_comm]
      | some content =>
          cases hparse : JsonText.parse content with
          | none =>
              simp [hparse, throwFailure, Effect.throw, bind, Fault.isCrash, Fault.passes, eq_comm,
                and_comm]
          | some value => simp [hparse, bind, pure, Fault.isCrash, Fault.passes, eq_comm]
  | reported =>
      rw [hfault] at hread
      rw [readJsonFile, bind_assoc, bind_ok hread]
      simp [throwFailure, Effect.throw, bind, Fault.isCrash, Fault.passes, Fault.seen, eq_comm,
        and_comm]
  | crash =>
      rw [hfault] at hread
      rw [readJsonFile, bind_assoc, bind_error hread]
      simp [Fault.isCrash]

/-- The two operations of a manifest that is looked for and then read. -/
theorem readOrElse_ok_iff :
    (do
      if ← pathExists p then
        catchFailure
          (do
            let previous ← readJsonFile p
            pure (f previous))
          fun _ => pure fallback
      else pure fallback : Action α) w = (.ok a, w') ↔
      (w.fault 0).passes = true ∧
        if (find w.tree p).isSome then
          (w.fault 1).isCrash = false ∧
            a = ((w.fault 1).seen (valueAt w.tree p)).elim fallback f ∧ w' = w.after 2
        else a = fallback ∧ w' = w.after 1 := by
  constructor
  · intro h
    obtain ⟨found, w₁, hexists, hrest⟩ := of_bind_ok h
    obtain ⟨hpasses, rfl, rfl⟩ := pathExists_ok_iff.mp hexists
    refine ⟨hpasses, ?_⟩
    split at hrest
    · next hfound =>
        rw [if_pos hfound]
        simpa using readOr_ok_iff.mp hrest
    · next hfound =>
        rw [if_neg hfound]
        cases hrest
        exact ⟨rfl, rfl⟩
  · rintro ⟨hpasses, hrest⟩
    rw [bind_ok (pathExists_ok_iff.mpr ⟨hpasses, rfl, rfl⟩)]
    split at hrest
    · next hfound =>
        rw [if_pos hfound]
        exact readOr_ok_iff.mpr (by simpa using hrest)
    · next hfound =>
        rw [if_neg hfound]
        obtain ⟨rfl, rfl⟩ := hrest
        rfl

theorem loadExistingStateOrEmpty_ok_iff {outputPaths : OutputPaths} {previous : Json} :
    loadExistingStateOrEmpty outputPaths w = (.ok previous, w') ↔
      (w.fault 0).passes = true ∧
        if (find w.tree outputPaths.stateJsonPath).isSome then
          (w.fault 1).isCrash = false ∧
            previous = previousOf ((w.fault 1).seen (valueAt w.tree outputPaths.stateJsonPath)) ∧
              w' = w.after 2
        else previous = previousOf none ∧ w' = w.after 1 :=
  readOrElse_ok_iff

theorem createdUtcForState_ok_iff {outputPaths : OutputPaths} {now : TimestampPair}
    {createdUtc : ByteString} :
    createdUtcForState outputPaths now w = (.ok createdUtc, w') ↔
      (w.fault 0).passes = true ∧
        if (find w.tree outputPaths.stateJsonPath).isSome then
          (w.fault 1).isCrash = false ∧
            createdUtc =
              createdUtcOf ((w.fault 1).seen (valueAt w.tree outputPaths.stateJsonPath)) now ∧
                w' = w.after 2
        else createdUtc = createdUtcOf none now ∧ w' = w.after 1 :=
  readOrElse_ok_iff

end Reading

end BtClient
