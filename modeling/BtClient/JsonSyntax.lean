import BtClient.JsonText

/-!
# The text of JSON values

A printer with the layouts of `dump()` and `dump(2)`, and a reader that takes one byte at
a time and keeps the containers that are still open on a stack. The reader ends with the
first value of the text, so it reads back what was printed, and what it has read from the
beginning of a text does not depend on what follows. The two make a `JsonText` without
doubles.
-/

namespace BtClient

namespace JsonSyntax

/-! ### The printer -/

/-- What stands before an item of the given depth, and between a key and its value. -/
structure Layout where
  line : ℕ → ByteString
  afterColon : ByteString

/-- The layout of `dump()`. -/
def compact : Layout where
  line _ := []
  afterColon := []

/-- The layout of `dump(2)`. -/
def indented : Layout where
  line depth := newline :: List.replicate (2 * depth) 32
  afterColon := [32]

def quote : UInt8 := 34
def backslash : UInt8 := 92
def comma : UInt8 := 44
def colon : UInt8 := 58
def minus : UInt8 := 45
def openBracket : UInt8 := 91
def closeBracket : UInt8 := 93
def openBrace : UInt8 := 123
def closeBrace : UInt8 := 125

def hexDigit (n : UInt8) : UInt8 := if n < 10 then 48 + n else 87 + n

/-- A byte inside a string. -/
def escape (c : UInt8) : ByteString :=
  if c = quote then [backslash, quote]
  else if c = backslash then [backslash, backslash]
  else if c = 8 then [backslash, 98]
  else if c = 9 then [backslash, 116]
  else if c = 10 then [backslash, 110]
  else if c = 12 then [backslash, 102]
  else if c = 13 then [backslash, 114]
  else if c < 32 then [backslash, 117, 48, 48, hexDigit (c / 16), hexDigit (c % 16)]
  else [c]

def quoted (s : ByteString) : ByteString := quote :: (s.flatMap escape ++ [quote])

def digit (d : ℕ) : UInt8 := 48 + d.toUInt8

/-- The decimal digits of a number. -/
def printNat (n : ℕ) : ByteString :=
  if n = 0 then [48] else ((Nat.digits 10 n).reverse.map digit)

def printInt : Int → ByteString
  | .ofNat n => printNat n
  | .negSucc n => minus :: printNat (n + 1)

mutual

/-- The text of a value at the given depth; there are no doubles. -/
def print (layout : Layout) (depth : ℕ) : Json → ByteString
  | .null => "null"
  | .bool true => "true"
  | .bool false => "false"
  | .integer n => printInt n
  | .real _ => "null"
  | .string s => quoted s
  | .array [] => [openBracket, closeBracket]
  | .array (v :: rest) =>
      openBracket :: (layout.line (depth + 1) ++ (print layout (depth + 1) v ++
        (printItems layout (depth + 1) rest ++ (layout.line depth ++ [closeBracket]))))
  | .object [] => [openBrace, closeBrace]
  | .object ((k, v) :: rest) =>
      openBrace :: (layout.line (depth + 1) ++ (quoted (ByteString.ofString k) ++
        colon :: (layout.afterColon ++ (print layout (depth + 1) v ++
          (printMembers layout (depth + 1) rest ++ (layout.line depth ++ [closeBrace]))))))

/-- The items after the first. -/
def printItems (layout : Layout) (depth : ℕ) : List Json → ByteString
  | [] => []
  | v :: rest =>
      comma :: (layout.line depth ++ (print layout depth v ++ printItems layout depth rest))

/-- The members after the first. -/
def printMembers (layout : Layout) (depth : ℕ) : List (String × Json) → ByteString
  | [] => []
  | (k, v) :: rest =>
      comma :: (layout.line depth ++ (quoted (ByteString.ofString k) ++
        colon :: (layout.afterColon ++ (print layout depth v ++
          printMembers layout depth rest))))

end

/-! ### The reader -/

/-- A container that is still open. -/
inductive Frame where
  | array (items : List Json)
  | object (members : Json.Members)
  | member (members : Json.Members) (key : String)

/-- What the reader is waiting for, or has read of a token. -/
inductive Mode where
  | value
  | firstItem
  | firstKey
  | key
  | colon (key : String)
  | after
  | string (isKey : Bool) (text : ByteString)
  | escape (isKey : Bool) (text : ByteString)
  | unicode (isKey : Bool) (text digits : ByteString)
  | number (negative : Bool) (digits : ByteString)
  | literal (rest : ByteString) (v : Json)
  | done (v : Json)
  | failed

structure Reader where
  stack : List Frame
  mode : Mode

def isSpace (c : UInt8) : Bool := c = 32 || c = 9 || c = 10 || c = 13

def isDigit (c : UInt8) : Bool := 48 ≤ c && c ≤ 57

def hexValue (c : UInt8) : Option ℕ :=
  if 48 ≤ c && c ≤ 57 then some (c.toNat - 48)
  else if 97 ≤ c && c ≤ 102 then some (c.toNat - 87)
  else if 65 ≤ c && c ≤ 70 then some (c.toNat - 55)
  else none

/-- The character of a `\u` escape below 128, the only ones that are printed. -/
def unicodeByte (digits : ByteString) : Option UInt8 :=
  match digits.mapM hexValue with
  | some values =>
      let n := values.foldl (fun n d => n * 16 + d) 0
      if n < 128 then some n.toUInt8 else none
  | none => none

/-- The byte that an escape of one letter stands for. -/
def unescape (c : UInt8) : Option UInt8 :=
  if c = quote then some quote
  else if c = backslash then some backslash
  else if c = 47 then some 47
  else if c = 98 then some 8
  else if c = 116 then some 9
  else if c = 110 then some 10
  else if c = 102 then some 12
  else if c = 114 then some 13
  else none

def readNat (digits : ByteString) : ℕ := digits.foldl (fun n c => n * 10 + (c.toNat - 48)) 0

def numberValue (negative : Bool) (digits : ByteString) : Json :=
  .integer (if negative then -(readNat digits : Int) else readNat digits)

def Reader.fail : Reader := ⟨[], .failed⟩

/-- A value is complete. -/
def complete (stack : List Frame) (v : Json) : Reader :=
  match stack with
  | [] => ⟨[], .done v⟩
  | .array items :: stack => ⟨.array (items ++ [v]) :: stack, .after⟩
  | .member members key :: stack => ⟨.object (members.set key v) :: stack, .after⟩
  | .object _ :: _ => .fail

/-- The text of a string is complete. -/
def completeString (isKey : Bool) (stack : List Frame) (text : ByteString) : Reader :=
  if isKey then
    match ByteString.toText? text with
    | some key => ⟨stack, .colon key⟩
    | none => .fail
  else complete stack (.string text)

/-- The first byte of a value. -/
def startValue (stack : List Frame) (c : UInt8) : Reader :=
  if c = quote then ⟨stack, .string false []⟩
  else if c = openBracket then ⟨.array [] :: stack, .firstItem⟩
  else if c = openBrace then ⟨.object [] :: stack, .firstKey⟩
  else if c = minus then ⟨stack, .number true []⟩
  else if isDigit c then ⟨stack, .number false [c]⟩
  else if c = 110 then ⟨stack, .literal "ull" .null⟩
  else if c = 116 then ⟨stack, .literal "rue" (.bool true)⟩
  else if c = 102 then ⟨stack, .literal "alse" (.bool false)⟩
  else .fail

/-- After a value in a container. -/
def stepAfter (stack : List Frame) (c : UInt8) : Reader :=
  if isSpace c then ⟨stack, .after⟩
  else
    match stack with
    | .array items :: rest =>
        if c = comma then ⟨stack, .value⟩
        else if c = closeBracket then complete rest (.array items)
        else .fail
    | .object members :: rest =>
        if c = comma then ⟨stack, .key⟩
        else if c = closeBrace then complete rest (.object members)
        else .fail
    | _ => .fail

/-- A byte that is not part of the value before it. -/
def stepCompleted (r : Reader) (c : UInt8) : Reader :=
  match r.mode with
  | .after => stepAfter r.stack c
  | _ => r

def step (r : Reader) (c : UInt8) : Reader :=
  match r.mode with
  | .value => if isSpace c then r else startValue r.stack c
  | .firstItem =>
      if isSpace c then r
      else if c = closeBracket then
        match r.stack with
        | .array items :: stack => complete stack (.array items)
        | _ => .fail
      else startValue r.stack c
  | .firstKey =>
      if isSpace c then r
      else if c = quote then ⟨r.stack, .string true []⟩
      else if c = closeBrace then
        match r.stack with
        | .object members :: stack => complete stack (.object members)
        | _ => .fail
      else .fail
  | .key =>
      if isSpace c then r
      else if c = quote then ⟨r.stack, .string true []⟩
      else .fail
  | .colon key =>
      if isSpace c then r
      else if c = colon then
        match r.stack with
        | .object members :: stack => ⟨.member members key :: stack, .value⟩
        | _ => .fail
      else .fail
  | .after => stepAfter r.stack c
  | .string isKey text =>
      if c = quote then completeString isKey r.stack text
      else if c = backslash then ⟨r.stack, .escape isKey text⟩
      else if c < 32 then .fail
      else ⟨r.stack, .string isKey (text ++ [c])⟩
  | .escape isKey text =>
      if c = 117 then ⟨r.stack, .unicode isKey text []⟩
      else
        match unescape c with
        | some b => ⟨r.stack, .string isKey (text ++ [b])⟩
        | none => .fail
  | .unicode isKey text digits =>
      if digits.length < 3 then ⟨r.stack, .unicode isKey text (digits ++ [c])⟩
      else
        match unicodeByte (digits ++ [c]) with
        | some b => ⟨r.stack, .string isKey (text ++ [b])⟩
        | none => .fail
  | .number negative digits =>
      if isDigit c then
        if digits = [48] then .fail else ⟨r.stack, .number negative (digits ++ [c])⟩
      else if digits = [] ∨ c = 46 ∨ c = 69 ∨ c = 101 then .fail
      else stepCompleted (complete r.stack (numberValue negative digits)) c
  | .literal rest v =>
      match rest with
      | [] => .fail
      | [x] => if c = x then complete r.stack v else .fail
      | x :: more => if c = x then ⟨r.stack, .literal more v⟩ else .fail
  | .done _ => r
  | .failed => r

def run (r : Reader) (text : ByteString) : Reader := text.foldl step r

/-- The value that has been read when the text ends. -/
def Reader.result (r : Reader) : Option Json :=
  match r.mode with
  | .done v => some v
  | .number negative digits =>
      if r.stack.isEmpty && !digits.isEmpty then some (numberValue negative digits) else none
  | _ => none

def start : Reader := ⟨[], .value⟩

/-- The first value of a text, if it can be printed again. -/
def parse (text : ByteString) : Option Json :=
  (run start text).result.filter fun v => v.isUtf8 && v.isPlain fun _ => false

/-! ### Reading back what was printed -/

theorem run_append (r : Reader) (text more : ByteString) :
    run r (text ++ more) = run (run r text) more :=
  List.foldl_append

theorem run_cons (r : Reader) (c : UInt8) (text : ByteString) :
    run r (c :: text) = run (step r c) text := rfl

/-- The layout only adds space. -/
structure Layout.IsSpacing (layout : Layout) : Prop where
  line : ∀ depth, ∀ c ∈ layout.line depth, isSpace c = true
  afterColon : ∀ c ∈ layout.afterColon, isSpace c = true

theorem isSpacing_indented : indented.IsSpacing where
  line depth c hc := by
    rcases List.mem_cons.mp hc with rfl | hc
    · rfl
    · rw [List.eq_of_mem_replicate hc]
      rfl
  afterColon c hc := by
    rw [List.mem_singleton.mp hc]
    rfl

/-- The reader is between two tokens. -/
def Mode.skips : Mode → Bool
  | .value | .firstItem | .firstKey | .key | .colon _ | .after => true
  | _ => false

theorem step_space {r : Reader} (hr : r.mode.skips = true) {c : UInt8} (hc : isSpace c = true) :
    step r c = r := by
  obtain ⟨stack, mode⟩ := r
  cases mode <;> simp_all [Mode.skips, step, stepAfter]

theorem run_space {r : Reader} (hr : r.mode.skips = true) {text : ByteString}
    (htext : ∀ c ∈ text, isSpace c = true) : run r text = r := by
  induction text with
  | nil => rfl
  | cons c rest ih =>
      rw [List.forall_mem_cons] at htext
      rw [run_cons, step_space hr htext.1, ih htext.2]

theorem run_space_append {r : Reader} (hr : r.mode.skips = true) {text : ByteString}
    (htext : ∀ c ∈ text, isSpace c = true) (more : ByteString) :
    run r (text ++ more) = run r more := by
  rw [run_append, run_space hr htext]

/-- What follows the first value is not looked at. -/
theorem run_done (stack : List Frame) (v : Json) (text : ByteString) :
    run ⟨stack, .done v⟩ text = ⟨stack, .done v⟩ := by
  induction text with
  | nil => rfl
  | cons c rest ih => exact ih

/-! Strings -/

theorem unicodeByte_hexDigits (c : UInt8) (h : c < 32) :
    unicodeByte [48, 48, hexDigit (c / 16), hexDigit (c % 16)] = some c := by
  revert c
  decide +kernel

theorem run_escape (stack : List Frame) (isKey : Bool) (text : ByteString) (c : UInt8) :
    run ⟨stack, .string isKey text⟩ (escape c) = ⟨stack, .string isKey (text ++ [c])⟩ := by
  unfold escape
  split_ifs with h₁ h₂ h₃ h₄ h₅ h₆ h₇ h₈
  · subst h₁; rfl
  · subst h₂; rfl
  · subst h₃; rfl
  · subst h₄; rfl
  · subst h₅; rfl
  · subst h₆; rfl
  · subst h₇; rfl
  · have hunicode := unicodeByte_hexDigits c h₈
    have hrun : run ⟨stack, .string isKey text⟩
        [backslash, 117, 48, 48, hexDigit (c / 16), hexDigit (c % 16)] =
        match unicodeByte [48, 48, hexDigit (c / 16), hexDigit (c % 16)] with
        | some b => ⟨stack, .string isKey (text ++ [b])⟩
        | none => .fail := rfl
    rw [hrun, hunicode]
  · simp [run, step, h₁, h₂, h₈]

theorem run_string (stack : List Frame) (isKey : Bool) (text s : ByteString) :
    run ⟨stack, .string isKey text⟩ (s.flatMap escape) = ⟨stack, .string isKey (text ++ s)⟩ := by
  induction s generalizing text with
  | nil => simp [run]
  | cons c rest ih =>
      rw [List.flatMap_cons, run_append, run_escape, ih, List.append_assoc]
      rfl

theorem run_quoted {r : Reader} {isKey : Bool}
    (hr : step r quote = ⟨r.stack, .string isKey []⟩) (s more : ByteString) :
    run r (quoted s ++ more) = run (completeString isKey r.stack s) more := by
  have hclose : step ⟨r.stack, .string isKey s⟩ quote = completeString isKey r.stack s := rfl
  rw [quoted, List.cons_append, run_cons, hr, List.append_assoc, run_append, run_string,
    List.nil_append, List.singleton_append, run_cons, hclose]

/-! Numbers -/

theorem readNat_map_digit (digits : List ℕ) (h : ∀ d ∈ digits, d < 10) :
    readNat (digits.reverse.map digit) = Nat.ofDigits 10 digits := by
  have hdigit : ∀ d < 10, ((digit d).toNat - 48 : ℕ) = d := by decide
  rw [readNat, List.foldl_map, List.foldl_reverse, Nat.ofDigits_eq_foldr]
  induction digits with
  | nil => rfl
  | cons d rest ih =>
      rw [List.forall_mem_cons] at h
      rw [List.foldr_cons, List.foldr_cons, ih h.2, hdigit d h.1]
      simp [mul_comm, add_comm]

theorem isDigit_digit {d : ℕ} (h : d < 10) : isDigit (digit d) = true := by
  revert d
  decide

/-- The text of a number: digits that read as the number, without leading zeros. -/
theorem printNat_spec (n : ℕ) :
    readNat (printNat n) = n ∧ (∀ c ∈ printNat n, isDigit c = true) ∧ printNat n ≠ [] ∧
      ∀ more, printNat n ≠ 48 :: more ∨ more = [] := by
  unfold printNat
  split
  · next hzero =>
      subst hzero
      refine ⟨rfl, by simp [isDigit], by simp, fun more => ?_⟩
      cases more <;> simp
  · next hn =>
      have hlt : ∀ d ∈ Nat.digits 10 n, d < 10 := fun d hd =>
        Nat.digits_lt_base (by decide) hd
      have hne : Nat.digits 10 n ≠ [] := Nat.digits_ne_nil_iff_ne_zero.mpr hn
      refine ⟨?_, ?_, by simpa using hne, fun more => Or.inl fun heq => ?_⟩
      · rw [readNat_map_digit _ hlt, Nat.ofDigits_digits]
      · intro c hc
        obtain ⟨d, hd, rfl⟩ := List.mem_map.mp hc
        exact isDigit_digit (hlt d (List.mem_reverse.mp hd))
      · -- the first digit is the last of `Nat.digits`, which is not zero
        have hlast := Nat.getLast_digit_ne_zero 10 hn
        have hhead := congrArg List.head? heq
        rw [List.head?_map, List.head?_reverse, List.getLast?_eq_some_getLast hne] at hhead
        have hzero : digit ((Nat.digits 10 n).getLast hne) = 48 := Option.some.inj hhead
        have hinj : ∀ d < 10, digit d = 48 → d = 0 := by decide
        exact hlast (hinj _ (hlt _ (List.getLast_mem hne)) hzero)

/-- The byte ends a number. -/
def EndsNumber (c : UInt8) : Prop := isDigit c = false ∧ c ≠ 46 ∧ c ≠ 69 ∧ c ≠ 101

instance (c : UInt8) : Decidable (EndsNumber c) :=
  inferInstanceAs (Decidable (isDigit c = false ∧ c ≠ 46 ∧ c ≠ 69 ∧ c ≠ 101))

theorem endsNumber_of_isSpace : ∀ c, isSpace c = true → EndsNumber c := by
  decide +kernel

theorem run_digits {stack : List Frame} {negative : Bool} {digits more : ByteString}
    (hdigits : ∀ c ∈ more, isDigit c = true)
    (hzero : ∀ rest, digits ++ more ≠ 48 :: rest ∨ rest = []) :
    run ⟨stack, .number negative digits⟩ more = ⟨stack, .number negative (digits ++ more)⟩ := by
  induction more generalizing digits with
  | nil => simp [run]
  | cons c rest ih =>
      rw [List.forall_mem_cons] at hdigits
      have hstep : step ⟨stack, .number negative digits⟩ c =
          ⟨stack, .number negative (digits ++ [c])⟩ := by
        have hne : digits ≠ [48] := by
          rintro rfl
          rcases hzero (c :: rest) with h | h
          · exact h rfl
          · cases h
        simp [step, hdigits.1, hne]
      rw [run_cons, hstep, ih hdigits.2, List.append_assoc]
      · rfl
      · simpa using hzero

theorem step_number {stack : List Frame} {negative : Bool} {digits : ByteString} {c : UInt8}
    (hdigits : digits ≠ []) (hc : EndsNumber c) :
    step ⟨stack, .number negative digits⟩ c =
      stepCompleted (complete stack (numberValue negative digits)) c := by
  obtain ⟨hdigit, h₁, h₂, h₃⟩ := hc
  simp [step, hdigit, hdigits, h₁, h₂, h₃]

/-- Where a value has been completed, the next byte is read as after any value. -/
theorem stepCompleted_complete (stack : List Frame) (v : Json) (c : UInt8) :
    stepCompleted (complete stack v) c = step (complete stack v) c := by
  unfold complete
  split <;> rfl

theorem startValue_digit (stack : List Frame) {c : UInt8} (hc : isDigit c = true) :
    isSpace c = false ∧ startValue stack c = ⟨stack, .number false [c]⟩ := by
  have hspecial : isSpace c = false ∧ c ≠ quote ∧ c ≠ openBracket ∧ c ≠ openBrace ∧
      c ≠ minus := by
    revert c
    decide +kernel
  obtain ⟨hspace, h₁, h₂, h₃, h₄⟩ := hspecial
  exact ⟨hspace, by simp [startValue, h₁, h₂, h₃, h₄, hc]⟩

theorem run_printNat (stack : List Frame) (n : ℕ) {c : UInt8} (hc : EndsNumber c)
    (more : ByteString) :
    run ⟨stack, .value⟩ (printNat n ++ c :: more) =
      run (complete stack (.integer n)) (c :: more) := by
  obtain ⟨hread, hdigits, hne, hzero⟩ := printNat_spec n
  obtain ⟨d, rest, hcons⟩ := List.exists_cons_of_ne_nil hne
  rw [hcons, List.forall_mem_cons] at hdigits
  obtain ⟨hspace, hstart⟩ := startValue_digit stack hdigits.1
  have hfirst : step ⟨stack, .value⟩ d = ⟨stack, .number false [d]⟩ := by
    simp [step, hspace, hstart]
  have hall : run ⟨stack, .number false [d]⟩ rest = ⟨stack, .number false (d :: rest)⟩ :=
    run_digits hdigits.2 (by simpa [← hcons] using hzero)
  have hvalue : numberValue false (d :: rest) = .integer n := by
    rw [← hcons, numberValue, hread]
    rfl
  rw [hcons, List.cons_append, run_cons, hfirst, run_append, hall, run_cons, run_cons,
    step_number (by simp) hc, stepCompleted_complete, hvalue]

theorem run_printInt (stack : List Frame) (n : Int) {c : UInt8} (hc : EndsNumber c)
    (more : ByteString) :
    run ⟨stack, .value⟩ (printInt n ++ c :: more) =
      run (complete stack (.integer n)) (c :: more) := by
  cases n with
  | ofNat n => exact run_printNat stack n hc more
  | negSucc n =>
      obtain ⟨hread, hdigits, hne, hzero⟩ := printNat_spec (n + 1)
      have hfirst : step ⟨stack, .value⟩ minus = ⟨stack, .number true []⟩ := rfl
      have hall : run ⟨stack, .number true []⟩ (printNat (n + 1)) =
          ⟨stack, .number true (printNat (n + 1))⟩ :=
        run_digits hdigits (by simpa using hzero)
      have hvalue : numberValue true (printNat (n + 1)) = .integer (Int.negSucc n) := by
        rw [numberValue, hread]
        rfl
      rw [printInt, List.cons_append, run_cons, hfirst, run_append, hall, run_cons, run_cons,
        step_number hne hc, stepCompleted_complete, hvalue]

/-! Values -/

/-- Members that come in order are appended. -/
theorem set_eq_append {members : Json.Members} {key : String} {v : Json}
    (h : ∀ e ∈ members, e.1 < key) : members.set key v = members ++ [(key, v)] := by
  induction members with
  | nil => rfl
  | cons e rest ih =>
      obtain ⟨k, w⟩ := e
      rw [List.forall_mem_cons] at h
      rw [Json.Members.set, if_neg (not_lt.mpr h.1.le), if_neg h.1.ne', ih h.2]
      rfl

/-- No value begins with space or with the end of an array. -/
theorem exists_cons_print (layout : Layout) (depth : ℕ) (v : Json) :
    ∃ c rest, print layout depth v = c :: rest ∧ isSpace c = false ∧ c ≠ closeBracket := by
  have hnat : ∀ n, ∃ c rest, printNat n = c :: rest ∧ isSpace c = false ∧ c ≠ closeBracket := by
    intro n
    obtain ⟨-, hdigits, hne, -⟩ := printNat_spec n
    obtain ⟨c, rest, hcons⟩ := List.exists_cons_of_ne_nil hne
    rw [hcons, List.forall_mem_cons] at hdigits
    refine ⟨c, rest, hcons, (startValue_digit [] hdigits.1).1, ?_⟩
    rintro rfl
    cases hdigits.1
  cases v with
  | null => exact ⟨_, _, rfl, rfl, by decide⟩
  | bool b => cases b <;> exact ⟨_, _, rfl, rfl, by decide⟩
  | integer n =>
      cases n with
      | ofNat n => exact hnat n
      | negSucc n => exact ⟨_, _, rfl, rfl, by decide⟩
  | real x => exact ⟨_, _, rfl, rfl, by decide⟩
  | string s => exact ⟨_, _, rfl, rfl, by decide⟩
  | array items => cases items <;> exact ⟨_, _, by rw [print], rfl, by decide⟩
  | object members =>
      cases members with
      | nil => exact ⟨_, _, by rw [print], rfl, by decide⟩
      | cons e rest =>
          obtain ⟨k, v⟩ := e
          exact ⟨_, _, by rw [print], rfl, by decide⟩

theorem run_firstItem (layout : Layout) (depth : ℕ) (stack : List Frame) (v : Json)
    (more : ByteString) :
    run ⟨stack, .firstItem⟩ (print layout depth v ++ more) =
      run ⟨stack, .value⟩ (print layout depth v ++ more) := by
  obtain ⟨c, rest, hcons, hspace, hclose⟩ := exists_cons_print layout depth v
  have hstep : step ⟨stack, .firstItem⟩ c = step ⟨stack, .value⟩ c := by
    simp [step, hspace, hclose]
  rw [hcons, List.cons_append, run_cons, run_cons, hstep]

/-- What comes after an item ends a number. -/
theorem exists_endsNumber {spaces : ByteString} (hspaces : ∀ c ∈ spaces, isSpace c = true)
    {close : UInt8} (hclose : EndsNumber close) (more : ByteString) :
    ∃ c rest, spaces ++ close :: more = c :: rest ∧ EndsNumber c := by
  cases spaces with
  | nil => exact ⟨close, more, rfl, hclose⟩
  | cons c rest =>
      exact ⟨c, _, rfl, endsNumber_of_isSpace c (List.forall_mem_cons.mp hspaces).1⟩

section Print

variable {layout : Layout}

/-- A key with its colon, after which the reader waits for the value. -/
theorem run_key (hlayout : layout.IsSpacing) {members : Json.Members} {stack : List Frame}
    {mode : Mode} (hmode : mode = .firstKey ∨ mode = .key) (key : String) (more : ByteString) :
    run ⟨.object members :: stack, mode⟩ (quoted (ByteString.ofString key) ++
        colon :: (layout.afterColon ++ more)) =
      run ⟨.member members key :: stack, .value⟩ more := by
  have hquote : step ⟨.object members :: stack, mode⟩ quote =
      ⟨.object members :: stack, .string true []⟩ := by
    rcases hmode with rfl | rfl <;> rfl
  have hkey : completeString true (.object members :: stack) (ByteString.ofString key) =
      ⟨.object members :: stack, .colon key⟩ := by
    simp [completeString]
  have hcolon : step ⟨.object members :: stack, .colon key⟩ colon =
      ⟨.member members key :: stack, .value⟩ := rfl
  rw [run_quoted hquote, hkey, run_cons, hcolon, run_space_append rfl hlayout.afterColon]

/-- The byte after an item of an array. -/
theorem endsNumber_printItems (layout : Layout) (depth : ℕ) (items : List Json) {spaces : ByteString}
    (hspaces : ∀ c ∈ spaces, isSpace c = true) (more : ByteString) :
    ∃ c tail, printItems layout depth items ++ (spaces ++ closeBracket :: more) = c :: tail ∧
      EndsNumber c := by
  cases items with
  | nil => exact exists_endsNumber hspaces (by decide) more
  | cons v rest => exact ⟨comma, _, by rw [printItems, List.cons_append], by decide⟩

/-- The byte after a member of an object. -/
theorem endsNumber_printMembers (layout : Layout) (depth : ℕ) (members : Json.Members) {spaces : ByteString}
    (hspaces : ∀ c ∈ spaces, isSpace c = true) (more : ByteString) :
    ∃ c tail, printMembers layout depth members ++ (spaces ++ closeBrace :: more) =
      c :: tail ∧ EndsNumber c := by
  cases members with
  | nil => exact exists_endsNumber hspaces (by decide) more
  | cons e rest =>
      obtain ⟨k, v⟩ := e
      exact ⟨comma, _, by rw [printMembers, List.cons_append], by decide⟩

mutual

/-- Over the text of a value the reader completes the value. -/
theorem run_print (hlayout : layout.IsSpacing) (depth : ℕ) :
    ∀ (v : Json), v.isPlain (fun _ => false) = true → ∀ (stack : List Frame) {c : UInt8},
      EndsNumber c → ∀ more, run ⟨stack, .value⟩ (print layout depth v ++ c :: more) =
        run (complete stack v) (c :: more)
  | .null, _, stack, c, _, more => rfl
  | .bool true, _, stack, c, _, more => rfl
  | .bool false, _, stack, c, _, more => rfl
  | .integer n, _, stack, c, hc, more => run_printInt stack n hc more
  | .real x, h, stack, c, _, more => by cases h
  | .string s, _, stack, c, _, more => by
      rw [print, run_quoted rfl]
      rfl
  | .array [], _, stack, c, _, more => by
      rw [print]
      rfl
  | .array (v :: rest), h, stack, c, _, more => by
      have hitems : Json.itemsArePlain (fun _ => false) (v :: rest) = true := h
      rw [Json.itemsArePlain, Bool.and_eq_true] at hitems
      have hopen : step ⟨stack, .value⟩ openBracket = ⟨.array [] :: stack, .firstItem⟩ := rfl
      obtain ⟨d, tail, htail, hd⟩ := endsNumber_printItems layout (depth + 1) rest
        (hlayout.line depth) (c :: more)
      have hvalue := run_print hlayout (depth + 1) v hitems.1 (.array [] :: stack) hd tail
      rw [← htail] at hvalue
      rw [print, List.cons_append, run_cons, hopen]
      simp only [List.append_assoc, List.singleton_append]
      rw [run_space_append rfl (hlayout.line _), run_firstItem, hvalue]
      exact run_printItems hlayout (depth + 1) rest hitems.2 [v] stack (hlayout.line depth)
        (c :: more)
  | .object [], _, stack, c, _, more => by
      rw [print]
      rfl
  | .object ((k, v) :: rest), h, stack, c, _, more => by
      have hplain : Json.membersArePlain (fun _ => false) ((k, v) :: rest) = true :=
        Json.membersArePlain_iff.mpr (Json.isPlain_object.mp h).2
      rw [Json.membersArePlain, Bool.and_eq_true] at hplain
      have hopen : step ⟨stack, .value⟩ openBrace = ⟨.object [] :: stack, .firstKey⟩ := rfl
      obtain ⟨d, tail, htail, hd⟩ := endsNumber_printMembers layout (depth + 1) rest
        (hlayout.line depth) (c :: more)
      have hvalue := run_print hlayout (depth + 1) v hplain.1 (.member [] k :: stack) hd tail
      rw [← htail] at hvalue
      rw [print, List.cons_append, run_cons, hopen]
      simp only [List.append_assoc, List.cons_append, List.nil_append]
      rw [run_space_append rfl (hlayout.line _), run_key hlayout (Or.inl rfl), hvalue]
      exact run_printMembers hlayout (depth + 1) rest hplain.2 [(k, v)]
        (Json.isPlain_object.mp h).1 stack (hlayout.line depth) (c :: more)

theorem run_printItems (hlayout : layout.IsSpacing) (depth : ℕ) :
    ∀ (items : List Json), Json.itemsArePlain (fun _ => false) items = true →
      ∀ (done : List Json) (stack : List Frame) {spaces : ByteString},
        (∀ c ∈ spaces, isSpace c = true) → ∀ more,
          run ⟨.array done :: stack, .after⟩
              (printItems layout depth items ++ (spaces ++ closeBracket :: more)) =
            run (complete stack (.array (done ++ items))) more
  | [], _, done, stack, spaces, hspaces, more => by
      rw [printItems, List.nil_append, run_space_append rfl hspaces, List.append_nil]
      rfl
  | v :: rest, h, done, stack, spaces, hspaces, more => by
      rw [Json.itemsArePlain, Bool.and_eq_true] at h
      have hcomma : step ⟨.array done :: stack, .after⟩ comma =
          ⟨.array done :: stack, .value⟩ := rfl
      obtain ⟨d, tail, htail, hd⟩ := endsNumber_printItems layout depth rest
        hspaces more
      have hvalue := run_print hlayout depth v h.1 (.array done :: stack) hd tail
      rw [← htail] at hvalue
      have hrest := run_printItems hlayout depth rest h.2 (done ++ [v]) stack hspaces more
      rw [List.append_assoc, List.singleton_append] at hrest
      rw [printItems, List.cons_append, run_cons, hcomma]
      simp only [List.append_assoc]
      rw [run_space_append rfl (hlayout.line _), hvalue]
      exact hrest

theorem run_printMembers (hlayout : layout.IsSpacing) (depth : ℕ) :
    ∀ (members : Json.Members), Json.membersArePlain (fun _ => false) members = true →
      ∀ (done : Json.Members), ((done ++ members).Pairwise fun e e' => e.1 < e'.1) →
        ∀ (stack : List Frame) {spaces : ByteString}, (∀ c ∈ spaces, isSpace c = true) →
          ∀ more, run ⟨.object done :: stack, .after⟩
              (printMembers layout depth members ++ (spaces ++ closeBrace :: more)) =
            run (complete stack (.object (done ++ members))) more
  | [], _, done, _, stack, spaces, hspaces, more => by
      rw [printMembers, List.nil_append, run_space_append rfl hspaces, List.append_nil]
      rfl
  | (k, v) :: rest, h, done, horder, stack, spaces, hspaces, more => by
      rw [Json.membersArePlain, Bool.and_eq_true] at h
      have hcomma : step ⟨.object done :: stack, .after⟩ comma =
          ⟨.object done :: stack, .key⟩ := rfl
      obtain ⟨d, tail, htail, hd⟩ := endsNumber_printMembers layout depth rest
        hspaces more
      have hvalue := run_print hlayout depth v h.1 (.member done k :: stack) hd tail
      rw [← htail] at hvalue
      have hset : done.set k v = done ++ [(k, v)] := by
        apply set_eq_append
        rw [List.pairwise_append] at horder
        exact fun e he => horder.2.2 e he (k, v) List.mem_cons_self
      have hrest := run_printMembers hlayout depth rest h.2 (done ++ [(k, v)])
        (by simpa using horder) stack hspaces more
      rw [List.append_assoc, List.singleton_append] at hrest
      rw [printMembers, List.cons_append, run_cons, hcomma]
      simp only [List.append_assoc, List.cons_append]
      rw [run_space_append rfl (hlayout.line _), run_key hlayout (Or.inr rfl), hvalue]
      rw [← hset] at hrest
      exact hrest

end

end Print

/-! ### The instance -/

/-- Over the text of a value the reader ends with the value. -/
theorem run_start_print {layout : Layout} (hlayout : layout.IsSpacing) {v : Json}
    (hv : v.isPlain (fun _ => false) = true) {c : UInt8} (hc : EndsNumber c)
    (more : ByteString) :
    run start (print layout 0 v ++ c :: more) = ⟨[], .done v⟩ := by
  rw [start, run_print hlayout 0 v hv [] hc more]
  exact run_done [] v _

theorem parse_eq_some_iff {text : ByteString} {v : Json} :
    parse text = some v ↔ (run start text).result = some v ∧ v.isUtf8 = true ∧
      v.isPlain (fun _ => false) = true := by
  rw [parse, Option.filter_eq_some_iff, Bool.and_eq_true]

/-- The reader has not come to the end of a value that is in no container. -/
def Reader.IsInside (r : Reader) : Prop :=
  r.stack = [] → (∃ v, r.mode = .done v) ∨ r.mode = .failed

theorem isInside_complete (stack : List Frame) (v : Json) : (complete stack v).IsInside := by
  unfold complete Reader.IsInside
  split <;> simp [Reader.fail]

theorem isInside_fail : Reader.fail.IsInside := fun _ => Or.inr rfl

theorem isInside_cons (f : Frame) (stack : List Frame) (mode : Mode) :
    Reader.IsInside ⟨f :: stack, mode⟩ := fun h => by cases h

theorem isInside_completeString (isKey : Bool) (f : Frame) (stack : List Frame)
    (text : ByteString) : (completeString isKey (f :: stack) text).IsInside := by
  unfold completeString
  split
  · split
    · exact isInside_cons f stack _
    · exact isInside_fail
  · exact isInside_complete _ _

theorem isInside_startValue (f : Frame) (stack : List Frame) (c : UInt8) :
    (startValue (f :: stack) c).IsInside := by
  unfold startValue
  split_ifs <;> first | exact isInside_cons _ _ _ | exact isInside_fail

theorem isInside_stepAfter (f : Frame) (stack : List Frame) (c : UInt8) :
    (stepAfter (f :: stack) c).IsInside := by
  unfold stepAfter
  split
  · exact isInside_cons f stack _
  · cases f with
    | array items =>
        dsimp only
        split_ifs
        · exact isInside_cons _ _ _
        · exact isInside_complete _ _
        · exact isInside_fail
    | object members =>
        dsimp only
        split_ifs
        · exact isInside_cons _ _ _
        · exact isInside_complete _ _
        · exact isInside_fail
    | member members key => exact isInside_fail

theorem isInside_stepCompleted {r : Reader} (hr : r.IsInside) (c : UInt8) :
    (stepCompleted r c).IsInside := by
  obtain ⟨stack, mode⟩ := r
  cases stack with
  | nil =>
      rcases hr rfl with ⟨v, hv⟩ | hfailed
      · obtain rfl : mode = .done v := hv
        exact hr
      · obtain rfl : mode = .failed := hfailed
        exact hr
  | cons f stack =>
      unfold stepCompleted
      split
      · exact isInside_stepAfter f stack c
      · exact hr

theorem isInside_step {r : Reader} (hr : r.IsInside) (c : UInt8) : (step r c).IsInside := by
  obtain ⟨stack, mode⟩ := r
  cases stack with
  | nil =>
      rcases hr rfl with ⟨v, hv⟩ | hfailed
      · obtain rfl : mode = .done v := hv
        exact hr
      · obtain rfl : mode = .failed := hfailed
        exact hr
  | cons f stack =>
      have hcons := isInside_cons f stack
      unfold step
      cases mode with
      | value =>
          dsimp only
          split
          · exact hr
          · exact isInside_startValue f stack c
      | firstItem =>
          dsimp only
          split_ifs
          · exact hr
          · split
            · exact isInside_complete _ _
            · exact isInside_fail
          · exact isInside_startValue f stack c
      | firstKey =>
          dsimp only
          split_ifs
          · exact hr
          · exact hcons _
          · split
            · exact isInside_complete _ _
            · exact isInside_fail
          · exact isInside_fail
      | key =>
          dsimp only
          split_ifs
          · exact hr
          · exact hcons _
          · exact isInside_fail
      | colon key =>
          dsimp only
          split_ifs
          · exact hr
          · split
            · exact isInside_cons _ _ _
            · exact isInside_fail
          · exact isInside_fail
      | after => exact isInside_stepAfter f stack c
      | string isKey text =>
          dsimp only
          split_ifs
          · exact isInside_completeString isKey f stack text
          · exact hcons _
          · exact isInside_fail
          · exact hcons _
      | escape isKey text =>
          dsimp only
          split
          · exact hcons _
          · split
            · exact hcons _
            · exact isInside_fail
      | unicode isKey text digits =>
          dsimp only
          split
          · exact hcons _
          · split
            · exact hcons _
            · exact isInside_fail
      | number negative digits =>
          dsimp only
          split_ifs
          · exact isInside_fail
          · exact hcons _
          · exact isInside_fail
          · exact isInside_stepCompleted (isInside_complete _ _) c
      | literal rest v =>
          dsimp only
          split
          · exact isInside_fail
          · split
            · exact isInside_complete _ _
            · exact isInside_fail
          · split
            · exact hcons _
            · exact isInside_fail
      | done v => exact hcons _
      | failed => exact hcons _

theorem isInside_run {r : Reader} (hr : r.IsInside) (text : ByteString) :
    (run r text).IsInside := by
  induction text generalizing r with
  | nil => exact hr
  | cons c rest ih => exact ih (isInside_step hr c)

theorem mode_eq_done {r : Reader} (hr : r.IsInside) {v : Json} (h : r.result = some v) :
    r.mode = .done v := by
  obtain ⟨stack, mode⟩ := r
  cases mode with
  | done w => exact congrArg Mode.done (Option.some.inj h)
  | number negative digits =>
      cases stack with
      | nil =>
          rcases hr rfl with ⟨w, hw⟩ | hfailed
          · cases hw
          · cases hfailed
      | cons f stack => cases h
  | _ => cases h

/-- Of an object, the first bytes are no other value. -/
theorem eq_of_result {layout : Layout} (hlayout : layout.IsSpacing) {members : Json.Members}
    (hv : (Json.object members).isPlain (fun _ => false) = true) {text : ByteString} {w : Json}
    (htext : text <+: print layout 0 (.object members) ++ [newline])
    (h : (run start text).result = some w) : w = .object members := by
  obtain ⟨more, hmore⟩ := htext
  have hbrace : ∃ rest, print layout 0 (.object members) = openBrace :: rest := by
    cases members with
    | nil => exact ⟨_, by rw [print]⟩
    | cons e rest => exact ⟨_, by rw [print]⟩
  have hinside : (run start text).IsInside := by
    obtain ⟨rest, hrest⟩ := hbrace
    cases text with
    | nil => cases h
    | cons c text =>
        rw [hrest, List.cons_append, List.cons_append] at hmore
        obtain rfl : c = openBrace := (List.cons.inj hmore).1
        exact isInside_run (isInside_cons (.object []) [] .firstKey) text
  have hwhole := run_start_print hlayout hv (c := newline) (by decide) []
  have hmode := mode_eq_done hinside h
  rw [← hmore, run_append] at hwhole
  rcases hrun : run start text with ⟨stack, mode⟩
  rw [hrun] at hmode hwhole
  obtain rfl : mode = .done w := hmode
  rw [run_done] at hwhole
  cases hwhole
  rfl

instance : JsonText where
  isDouble _ := false
  dump := print compact 0
  dumpIndented := print indented 0
  parse := parse
  isUtf8_of_parse h := (parse_eq_some_iff.mp h).2.1
  isPlain_of_parse h := (parse_eq_some_iff.mp h).2.2
  parse_dumpIndented v hutf8 hplain := by
    refine parse_eq_some_iff.mpr ⟨?_, hutf8, hplain⟩
    rw [run_start_print isSpacing_indented hplain (c := newline) (by decide) []]
    rfl
  parse_prefix v w text _ hplain hobject htext h := by
    cases v with
    | object members =>
        exact eq_of_result isSpacing_indented hplain htext (parse_eq_some_iff.mp h).1
    | _ => cases hobject

end JsonSyntax

end BtClient
