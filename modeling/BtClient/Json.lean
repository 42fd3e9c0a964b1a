import BtClient.Libtorrent

/-!
# JSON values

The values of `nlohmann::json` that the client builds and reads. An object is
its list of members in the order of the keys, as `std::map` keeps them. Numbers
are integers or doubles, and a double is identified with its value. A string is
any sequence of bytes: `dump` refuses the ones that are not UTF-8.
-/

namespace BtClient

inductive Json where
  | null
  | bool (b : Bool)
  | integer (n : Int)
  | real (x : ℚ)
  | string (s : ByteString)
  | array (items : List Json)
  | object (members : List (String × Json))

namespace Json

/-- The members of an object, in the order of the keys. -/
abbrev Members := List (String × Json)

namespace Members

/-- `object[key] = value` -/
def set (key : String) (value : Json) : Members → Members
  | [] => [(key, value)]
  | (k, v) :: rest =>
      if key < k then (key, value) :: (k, v) :: rest
      else if key = k then (key, value) :: rest
      else (k, v) :: set key value rest

/-- An object from a list of members in any order. -/
def ofList (l : List (String × Json)) : Members :=
  l.foldl (fun members e => members.set e.1 e.2) []

theorem lookup_cons (key k : String) (value : Json) (rest : Members) :
    List.lookup k ((key, value) :: rest) = if k = key then some value else rest.lookup k := by
  rw [List.lookup_cons]
  by_cases hk : k = key
  · simp [hk]
  · have hbeq : (k == key) = false := by simpa using hk
    simp [hbeq, hk]

/-- Reading a member back after an assignment. -/
theorem lookup_set (key : String) (value : Json) (members : Members) (k : String) :
    (members.set key value).lookup k = if k = key then some value else members.lookup k := by
  induction members with
  | nil => exact lookup_cons key k value []
  | cons e rest ih =>
      obtain ⟨k', v⟩ := e
      simp only [set]
      split
      · exact lookup_cons key k value ((k', v) :: rest)
      · split
        · next heq =>
            subst heq
            rw [lookup_cons, lookup_cons]
            split <;> rfl
        · next hne =>
            rw [lookup_cons, lookup_cons, ih]
            by_cases hk : k = k'
            · have hne' : k ≠ key := fun heq => hne (heq.symm.trans hk)
              rw [if_pos hk, if_neg hne', if_pos hk]
            · rw [if_neg hk, if_neg hk]

theorem lookup_eq_none {l : List (String × Json)} {k : String}
    (h : k ∉ l.map Prod.fst) : l.lookup k = none := by
  rw [List.lookup_eq_none_iff]
  intro e he
  have hne : k ≠ e.1 := fun heq => h (heq ▸ List.mem_map_of_mem he)
  simpa using hne

theorem lookup_eq_none_of_lt {members : Members} {k : String} (h : ∀ e ∈ members, k < e.1) :
    members.lookup k = none := by
  apply lookup_eq_none
  intro hk
  obtain ⟨e, he, rfl⟩ := List.mem_map.mp hk
  exact lt_irrefl _ (h e he)

/-- Members in order are the same if they are found under the same keys. -/
theorem ext_lookup {members members' : Members}
    (h : members.Pairwise fun e e' => e.1 < e'.1) (h' : members'.Pairwise fun e e' => e.1 < e'.1)
    (hlookup : ∀ k, members.lookup k = members'.lookup k) : members = members' := by
  induction members generalizing members' with
  | nil =>
      cases members' with
      | nil => rfl
      | cons e' rest' =>
          have hfirst := hlookup e'.1
          rw [lookup_cons e'.1 e'.1 e'.2, if_pos rfl] at hfirst
          cases hfirst
  | cons e rest ih =>
      obtain ⟨k, v⟩ := e
      rw [List.pairwise_cons] at h
      cases members' with
      | nil =>
          have hfirst := hlookup k
          rw [lookup_cons, if_pos rfl] at hfirst
          cases hfirst
      | cons e' rest' =>
          obtain ⟨k', v'⟩ := e'
          rw [List.pairwise_cons] at h'
          have hfirst := hlookup k
          have hfirst' := hlookup k'
          rw [lookup_cons, lookup_cons, if_pos rfl] at hfirst
          rw [lookup_cons, lookup_cons, if_pos rfl] at hfirst'
          have hkey : k = k' := by
            rcases lt_trichotomy k k' with hlt | heq | hlt
            · -- the smaller of the two first keys is not found on the other side
              rw [if_neg hlt.ne, lookup_eq_none_of_lt fun e he => hlt.trans (h'.1 e he)] at hfirst
              cases hfirst
            · exact heq
            · rw [if_neg hlt.ne, lookup_eq_none_of_lt fun e he => hlt.trans (h.1 e he)] at hfirst'
              cases hfirst'
          subst hkey
          rw [if_pos rfl] at hfirst
          cases hfirst
          congr 1
          apply ih h.2 h'.2
          intro j
          by_cases hj : j = k
          · rw [hj, lookup_eq_none_of_lt h.1, lookup_eq_none_of_lt h'.1]
          · have hrest := hlookup j
            rwa [lookup_cons, lookup_cons, if_neg hj, if_neg hj] at hrest

theorem lookup_foldl_set {l : List (String × Json)} (hnodup : (l.map Prod.fst).Nodup)
    (members : Members) (k : String) :
    (l.foldl (fun (members : Members) e => members.set e.1 e.2) members).lookup k =
      (l.lookup k).or (members.lookup k) := by
  induction l generalizing members with
  | nil => rfl
  | cons e rest ih =>
      obtain ⟨key, value⟩ := e
      rw [List.map_cons, List.nodup_cons] at hnodup
      rw [List.foldl_cons, ih hnodup.2, lookup_set, lookup_cons]
      split
      · next heq =>
          subst heq
          rw [lookup_eq_none hnodup.1]
          rfl
      · rfl

/-- Members that are listed under different keys are all found again. -/
theorem lookup_ofList {l : List (String × Json)} (hnodup : (l.map Prod.fst).Nodup)
    (k : String) : (ofList l).lookup k = l.lookup k := by
  rw [ofList, lookup_foldl_set hnodup]
  exact Option.or_none

end Members

/-- `find`: the value of a member of an object. -/
def find (key : String) : Json → Option Json
  | .object members => members.lookup key
  | _ => none

def isObject : Json → Bool
  | .object _ => true
  | _ => false

def isArray : Json → Bool
  | .array _ => true
  | _ => false

def isString : Json → Bool
  | .string _ => true
  | _ => false

def isNumberInteger : Json → Bool
  | .integer _ => true
  | _ => false

instance : Coe ℕ Json := ⟨fun n => .integer n⟩

/-- The object with the given members, in any order. -/
def obj (l : List (String × Json)) : Json :=
  .object (Members.ofList l)

/-- A text the program spells out, as a value. -/
def text (s : String) : Json :=
  .string (ByteString.ofString s)

mutual

/-- All strings in the value are UTF-8. -/
def isUtf8 : Json → Bool
  | .string s => decide (ByteString.IsValidUtf8 s)
  | .array items => itemsAreUtf8 items
  | .object members => membersAreUtf8 members
  | _ => true

def itemsAreUtf8 : List Json → Bool
  | [] => true
  | v :: rest => isUtf8 v && itemsAreUtf8 rest

def membersAreUtf8 : List (String × Json) → Bool
  | [] => true
  | (_, v) :: rest => isUtf8 v && membersAreUtf8 rest

end

mutual

/-- The real numbers are doubles, and the members of objects are in the order of their
keys. -/
def isPlain (isDouble : ℚ → Bool) : Json → Bool
  | .real x => isDouble x
  | .array items => itemsArePlain isDouble items
  | .object members =>
      decide (members.Pairwise fun e e' => e.1 < e'.1) && membersArePlain isDouble members
  | _ => true

def itemsArePlain (isDouble : ℚ → Bool) : List Json → Bool
  | [] => true
  | v :: rest => isPlain isDouble v && itemsArePlain isDouble rest

def membersArePlain (isDouble : ℚ → Bool) : List (String × Json) → Bool
  | [] => true
  | (_, v) :: rest => isPlain isDouble v && membersArePlain isDouble rest

end

section Plain

variable {isDouble : ℚ → Bool}

theorem itemsArePlain_iff {items : List Json} :
    itemsArePlain isDouble items = true ↔ ∀ v ∈ items, v.isPlain isDouble = true := by
  induction items with
  | nil => simp [itemsArePlain]
  | cons v rest ih => simp [itemsArePlain, ih]

theorem membersArePlain_iff {members : Members} :
    membersArePlain isDouble members = true ↔ ∀ e ∈ members, e.2.isPlain isDouble = true := by
  induction members with
  | nil => simp [membersArePlain]
  | cons e rest ih =>
      obtain ⟨k, v⟩ := e
      simp [membersArePlain, ih]

theorem isPlain_object {members : Members} :
    (object members).isPlain isDouble = true ↔
      (members.Pairwise fun e e' => e.1 < e'.1) ∧
        ∀ e ∈ members, e.2.isPlain isDouble = true := by
  rw [isPlain, Bool.and_eq_true, decide_eq_true_iff, membersArePlain_iff]

@[simp] theorem isPlain_text (s : String) : (text s).isPlain isDouble = true := rfl

end Plain

theorem mem_of_lookup {members : Members} {k : String} {v : Json}
    (h : members.lookup k = some v) : (k, v) ∈ members := by
  induction members with
  | nil => cases h
  | cons e rest ih =>
      obtain ⟨k', v'⟩ := e
      rw [Members.lookup_cons] at h
      split at h
      · next heq =>
          subst heq
          cases h
          exact List.mem_cons_self
      · exact List.mem_cons_of_mem _ (ih h)

/-- A member of a plain value is plain. -/
theorem isPlain_of_find {isDouble : ℚ → Bool} {v w : Json} {k : String}
    (h : v.isPlain isDouble = true) (hfind : v.find k = some w) :
    w.isPlain isDouble = true := by
  cases v with
  | object members => exact (isPlain_object.mp h).2 _ (mem_of_lookup hfind)
  | _ => cases hfind

theorem itemsAreUtf8_iff {items : List Json} :
    itemsAreUtf8 items = true ↔ ∀ v ∈ items, v.isUtf8 = true := by
  induction items with
  | nil => simp [itemsAreUtf8]
  | cons v rest ih => simp [itemsAreUtf8, ih]

theorem membersAreUtf8_iff {members : Members} :
    membersAreUtf8 members = true ↔ ∀ e ∈ members, e.2.isUtf8 = true := by
  induction members with
  | nil => simp [membersAreUtf8]
  | cons e rest ih =>
      obtain ⟨k, v⟩ := e
      simp [membersAreUtf8, ih]

/-- A member of a UTF-8 value is UTF-8. -/
theorem isUtf8_of_find {v w : Json} {k : String} (h : v.isUtf8 = true)
    (hfind : v.find k = some w) : w.isUtf8 = true := by
  cases v with
  | object members => exact membersAreUtf8_iff.mp h _ (mem_of_lookup hfind)
  | _ => cases hfind

@[simp] theorem isUtf8_text (s : String) : (text s).isUtf8 = true :=
  decide_eq_true (ByteString.isValidUtf8_ofString s)

namespace Members

variable {isDouble : ℚ → Bool}

theorem mem_set {key : String} {value : Json} {members : Members} {e : String × Json}
    (h : e ∈ members.set key value) : e = (key, value) ∨ e ∈ members := by
  induction members with
  | nil => exact Or.inl (List.mem_singleton.mp h)
  | cons e' rest ih =>
      obtain ⟨k, v⟩ := e'
      rw [set] at h
      split at h
      · exact List.mem_cons.mp h
      · split at h
        · rcases List.mem_cons.mp h with h | h
          · exact Or.inl h
          · exact Or.inr (List.mem_cons_of_mem _ h)
        · rcases List.mem_cons.mp h with h | h
          · exact Or.inr (h ▸ List.mem_cons_self)
          · exact (ih h).imp id (List.mem_cons_of_mem _)

/-- An assignment keeps the members in order. -/
theorem pairwise_set (key : String) (value : Json) {members : Members}
    (h : members.Pairwise fun e e' => e.1 < e'.1) :
    (members.set key value).Pairwise fun e e' => e.1 < e'.1 := by
  induction members with
  | nil => exact List.pairwise_singleton _ _
  | cons e rest ih =>
      obtain ⟨k, v⟩ := e
      rw [List.pairwise_cons] at h
      rw [set]
      split
      · next hlt =>
          refine List.pairwise_cons.mpr ⟨?_, List.pairwise_cons.mpr h⟩
          intro e' he'
          rcases List.mem_cons.mp he' with rfl | he'
          · exact hlt
          · exact lt_trans hlt (h.1 e' he')
      · next hlt =>
          split
          · next heq =>
              subst heq
              exact List.pairwise_cons.mpr h
          · next hne =>
              refine List.pairwise_cons.mpr ⟨?_, ih h.2⟩
              intro e' he'
              rcases mem_set he' with rfl | he'
              · exact lt_of_le_of_ne (not_lt.mp hlt) fun heq => hne heq.symm
              · exact h.1 e' he'

theorem isPlain_set {key : String} {value : Json} {members : Members}
    (h : (Json.object members).isPlain isDouble = true)
    (hvalue : value.isPlain isDouble = true) :
    (Json.object (members.set key value)).isPlain isDouble = true := by
  rw [isPlain_object] at h ⊢
  refine ⟨pairwise_set key value h.1, ?_⟩
  intro e he
  rcases mem_set he with rfl | he
  · exact hvalue
  · exact h.2 e he

theorem isUtf8_set {key : String} {value : Json} {members : Members}
    (h : (Json.object members).isUtf8 = true) (hvalue : value.isUtf8 = true) :
    (Json.object (members.set key value)).isUtf8 = true := by
  rw [isUtf8, membersAreUtf8_iff] at h ⊢
  intro e he
  rcases mem_set he with rfl | he
  · exact hvalue
  · exact h e he

theorem isUtf8_foldl_set {l : List (String × Json)} {members : Members}
    (h : (Json.object members).isUtf8 = true) (hl : ∀ e ∈ l, e.2.isUtf8 = true) :
    (Json.object (l.foldl (fun (members : Members) e => members.set e.1 e.2)
      members)).isUtf8 = true := by
  induction l generalizing members with
  | nil => exact h
  | cons e rest ih =>
      rw [List.forall_mem_cons] at hl
      exact ih (isUtf8_set h hl.1) hl.2

theorem isPlain_foldl_set {l : List (String × Json)} {members : Members}
    (h : (Json.object members).isPlain isDouble = true)
    (hl : ∀ e ∈ l, e.2.isPlain isDouble = true) :
    (Json.object (l.foldl (fun (members : Members) e => members.set e.1 e.2)
      members)).isPlain isDouble = true := by
  induction l generalizing members with
  | nil => exact h
  | cons e rest ih =>
      rw [List.forall_mem_cons] at hl
      exact ih (isPlain_set h hl.1) hl.2

end Members

theorem isPlain_obj {isDouble : ℚ → Bool} {l : List (String × Json)}
    (h : ∀ e ∈ l, e.2.isPlain isDouble = true) : (obj l).isPlain isDouble = true := by
  have hempty : (object []).isPlain isDouble = true := rfl
  exact Members.isPlain_foldl_set hempty h

theorem isUtf8_obj {l : List (String × Json)} (h : ∀ e ∈ l, e.2.isUtf8 = true) :
    (obj l).isUtf8 = true := by
  have hempty : (object []).isUtf8 = true := rfl
  exact Members.isUtf8_foldl_set hempty h

/-- An object has the members it was made of. -/
theorem find_obj {l : List (String × Json)} (hnodup : (l.map Prod.fst).Nodup) (k : String) :
    (obj l).find k = l.lookup k :=
  Members.lookup_ofList hnodup k

/-- The last of the values listed for a key is the one that is found. -/
theorem find_obj_eq_reverse (l : List (String × Json)) (k : String) :
    (obj l).find k = l.reverse.lookup k := by
  have hfold : ∀ (l : List (String × Json)) (members : Members),
      (l.foldl (fun (members : Members) e => members.set e.1 e.2) members).lookup k =
        (l.reverse.lookup k).or (members.lookup k) := by
    intro l
    induction l with
    | nil => exact fun _ => rfl
    | cons e rest ih =>
        intro members
        obtain ⟨key, value⟩ := e
        rw [List.foldl_cons, ih, Members.lookup_set, List.reverse_cons, List.lookup_append,
          Option.or_assoc, Members.lookup_cons]
        split <;> rfl
  exact (hfold l []).trans Option.or_none

end Json

end BtClient
