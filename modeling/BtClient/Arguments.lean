import BtClient.JsonSyntax
import BtClient.TimeArithmetic

/-!
# The command line

The loop of `main` over its arguments, with the conversions of `std::stoi` and `std::stoll`,
and the checks after it. A command line that the loop reads to its end is a list of options
with their values; of an option that is given several times the last value counts.
-/

namespace BtClient

/-- The exceptions of the command line. The text of `std::out_of_range` is the name of the
function that throws it. -/
inductive CommandLineError where
  | failure (failure : Failure)
  | outOfRange (function : ByteString)
  deriving DecidableEq

/-! ### Numbers -/

/-- The bytes that `std::isspace` accepts. -/
def isBlank (c : UInt8) : Bool := c = 32 || (9 ≤ c && c ≤ 13)

/-- The number at the start of a text, if there is a digit. -/
def readDigits (text : ByteString) : Option ℕ :=
  let digits := text.takeWhile JsonSyntax.isDigit
  if digits.isEmpty then none else some (JsonSyntax.readNat digits)

/-- What `strtol` and `strtoll` read to base 10: what follows the digits is not looked at. -/
def readInteger (text : ByteString) : Option Int :=
  match text.dropWhile isBlank with
  | [] => none
  | c :: rest =>
      if c = JsonSyntax.minus then (readDigits rest).map fun n => -(n : Int)
      else if c = 43 then (readDigits rest).map fun n => (n : Int)
      else (readDigits (c :: rest)).map fun n => (n : Int)

/-- Of a text that begins with a number, the number is read. -/
theorem readDigits_printNat (n : ℕ) {rest : ByteString}
    (hrest : ∀ c ∈ rest.head?, JsonSyntax.isDigit c = false) :
    readDigits (JsonSyntax.printNat n ++ rest) = some n := by
  obtain ⟨hvalue, hdigits, hne, -⟩ := JsonSyntax.printNat_spec n
  have htake : (JsonSyntax.printNat n ++ rest).takeWhile JsonSyntax.isDigit =
      JsonSyntax.printNat n := by
    rw [List.takeWhile_append_of_pos hdigits]
    cases rest with
    | nil => rw [List.takeWhile_nil, List.append_nil]
    | cons c rest =>
        rw [List.takeWhile_cons_of_neg (by simp [hrest c rfl]), List.append_nil]
  unfold readDigits
  rw [htake, if_neg (by simpa using hne), hvalue]

/-- Space before a number and text after it do not change what is read. -/
theorem readInteger_printInt (n : Int) {blanks rest : ByteString}
    (hblanks : ∀ c ∈ blanks, isBlank c = true)
    (hrest : ∀ c ∈ rest.head?, JsonSyntax.isDigit c = false) :
    readInteger (blanks ++ JsonSyntax.printInt n ++ rest) = some n := by
  have hdigit : ∀ c : UInt8, JsonSyntax.isDigit c = true →
      isBlank c = false ∧ c ≠ JsonSyntax.minus ∧ c ≠ 43 := by decide +kernel
  unfold readInteger
  rw [List.append_assoc, List.dropWhile_append_of_pos hblanks]
  cases n with
  | ofNat n =>
      have hread := readDigits_printNat n hrest
      obtain ⟨-, hdigits, hne, -⟩ := JsonSyntax.printNat_spec n
      obtain ⟨c, digits, htext⟩ := List.exists_cons_of_ne_nil hne
      obtain ⟨hblank, hminus, hplus⟩ := hdigit c (hdigits c (by rw [htext]; simp))
      rw [JsonSyntax.printInt, htext, List.cons_append,
        List.dropWhile_cons_of_neg (by simp [hblank])]
      dsimp only
      rw [if_neg hminus, if_neg hplus, ← List.cons_append, ← htext, hread]
      rfl
  | negSucc n =>
      have hread := readDigits_printNat (n + 1) hrest
      rw [JsonSyntax.printInt, List.cons_append, List.dropWhile_cons_of_neg (by decide)]
      dsimp only
      rw [if_pos rfl, hread]
      rfl

/-- The limits of an integer type, and the name of the function that reads it. -/
structure IntegerReader where
  function : ByteString
  lower : Int
  upper : Int

def IntegerReader.read (reader : IntegerReader) (text : ByteString) :
    Except CommandLineError Int :=
  match readInteger text with
  | none => .error (.failure (.invalidArgument reader.function))
  | some n =>
      if n < reader.lower ∨ reader.upper < n then .error (.outOfRange reader.function) else .ok n

/-- `std::stoi` -/
def stoi : IntegerReader := ⟨"stoi", -2147483648, 2147483647⟩

/-- `std::stoll` -/
def stoll : IntegerReader := ⟨"stoll", -9223372036854775808, 9223372036854775807⟩

/-! ### Options -/

/-- The options that take a value. -/
inductive ValueOption where
  | file | time | port | ip | runId | sessionId | nodeRole | artifactsDir | savePath
  | eventLog | summaryJson | destinationUrl | snapshotIntervalMs | clientLabel | profileId
  deriving DecidableEq

inductive CommandOption where
  | value (option : ValueOption)
  | noConsoleStatus
  | help
  deriving DecidableEq

/-- The tests of the loop in their order. -/
def commandOption (arg : ByteString) : Option CommandOption :=
  if arg = "-f" ∨ arg = "--file" then some (.value .file)
  else if arg = "-t" ∨ arg = "--time" then some (.value .time)
  else if arg = "-p" ∨ arg = "--port" then some (.value .port)
  else if arg = "-i" ∨ arg = "--ip" then some (.value .ip)
  else if arg = "--run-id" then some (.value .runId)
  else if arg = "--session-id" then some (.value .sessionId)
  else if arg = "--node-role" then some (.value .nodeRole)
  else if arg = "--artifacts-dir" then some (.value .artifactsDir)
  else if arg = "--save-path" then some (.value .savePath)
  else if arg = "--event-log" then some (.value .eventLog)
  else if arg = "--summary-json" then some (.value .summaryJson)
  else if arg = "--destination-url" ∨ arg = "--brain-url" then some (.value .destinationUrl)
  else if arg = "--snapshot-interval-ms" then some (.value .snapshotIntervalMs)
  else if arg = "--no-console-status" then some .noConsoleStatus
  else if arg = "--client-label" then some (.value .clientLabel)
  else if arg = "--profile-id" then some (.value .profileId)
  else if arg = "-h" ∨ arg = "--help" then some .help
  else none

/-- The variables that the loop assigns. -/
structure Arguments where
  config : RuntimeConfig := {}
  eventLogOverride : Option Path := none
  summaryJsonOverride : Option Path := none

/-- The number that an option takes, if it takes one. -/
def ValueOption.integerReader : ValueOption → Option IntegerReader
  | .time | .port => some stoi
  | .snapshotIntervalMs => some stoll
  | _ => none

namespace Arguments

/-- The branch of the loop for an option with a value. -/
def assign (a : Arguments) (value : ByteString) :
    ValueOption → Except CommandLineError Arguments
  | .file => pure { a with config := { a.config with torrentSource := value } }
  | .time => do
      let n ← stoi.read value
      pure { a with config := { a.config with runtimeSeconds := n } }
  | .port => do
      let n ← stoi.read value
      pure { a with config := { a.config with listenPort := n } }
  | .ip => pure { a with config := { a.config with announceIp := value } }
  | .runId => pure { a with config := { a.config with runId := value } }
  | .sessionId => pure { a with config := { a.config with sessionId := value } }
  | .nodeRole => pure { a with config := { a.config with nodeRole := value } }
  | .artifactsDir => pure { a with config := { a.config with artifactsDir := ⟨value⟩ } }
  | .savePath => pure { a with config := { a.config with savePath := ⟨value⟩ } }
  | .eventLog => pure { a with eventLogOverride := some ⟨value⟩ }
  | .summaryJson => pure { a with summaryJsonOverride := some ⟨value⟩ }
  | .destinationUrl => pure { a with config := { a.config with destinationUrl := value } }
  | .snapshotIntervalMs => do
      let n ← stoll.read value
      pure { a with config := { a.config with snapshotIntervalMs := n } }
  | .clientLabel => pure { a with config := { a.config with clientLabel := value } }
  | .profileId => pure { a with config := { a.config with profileId := value } }

/-- `--no-console-status` -/
def withoutConsoleStatus (a : Arguments) : Arguments :=
  { a with config := { a.config with consoleStatus := false } }

/-- The checks after the loop. -/
def check (a : Arguments) : Except Failure Unit :=
  checkArguments {
    listenPort := Int32.ofInt a.config.listenPort
    runtimeSeconds := Int32.ofInt a.config.runtimeSeconds
    snapshotIntervalMs := Int64.ofInt a.config.snapshotIntervalMs
    nodeRole := a.config.nodeRole }

end Arguments

/-- How the loop ends, unless it throws. -/
inductive CommandLine where
  | help
  | run (arguments : Arguments)

/-- The loop over the arguments that are left. -/
def parseArguments (a : Arguments) : List ByteString → Except CommandLineError CommandLine
  | [] => .ok (.run a)
  | arg :: rest =>
      match commandOption arg with
      | none => .error (.failure (.invalidArgument ("unknown argument: " ++ arg)))
      | some .help => .ok .help
      | some .noConsoleStatus => parseArguments a.withoutConsoleStatus rest
      | some (.value option) =>
          match rest with
          | [] => .error (.failure (.invalidArgument ("missing value for " ++ arg)))
          | value :: more =>
              match a.assign value option with
              | .error e => .error e
              | .ok b => parseArguments b more

/-! ### What a command line says -/

/-- A part of a command line that the loop reads in one step. -/
inductive Occurrence where
  | value (name : ByteString) (option : ValueOption) (text : ByteString)
      (named : commandOption name = some (.value option))
  | noConsoleStatus

namespace Occurrence

def render : Occurrence → List ByteString
  | value name _ text _ => [name, text]
  | noConsoleStatus => ["--no-console-status"]

/-- A number can be read where one is asked for. -/
def IsReadable : Occurrence → Prop
  | value _ option text _ => ∀ reader ∈ option.integerReader, ∃ n, reader.read text = .ok n
  | noConsoleStatus => True

def isSilencing : Occurrence → Bool
  | value .. => false
  | noConsoleStatus => true

/-- The value that an occurrence gives to an option. -/
def valueOf (option : ValueOption) : Occurrence → Option ByteString
  | value _ option' text _ => if option' = option then some text else none
  | noConsoleStatus => none

end Occurrence

/-- The last value of an option. -/
def lastValue (option : ValueOption) (occurrences : List Occurrence) : Option ByteString :=
  (occurrences.filterMap (Occurrence.valueOf option)).getLast?

/-- The last value of an option that takes a number. -/
def lastNumber (option : ValueOption) (occurrences : List Occurrence) : Option Int :=
  ((occurrences.filterMap (Occurrence.valueOf option)).filterMap readInteger).getLast?

/-- What a list of options says: of each option the last value, and where it is not given
what was there before. -/
def argumentsOf (a : Arguments) (occurrences : List Occurrence) : Arguments :=
  let text option default := (lastValue option occurrences).getD default
  let number option default := (lastNumber option occurrences).getD default
  let path option (default : Path) := ((lastValue option occurrences).map Path.mk).getD default
  { config := { a.config with
      torrentSource := text .file a.config.torrentSource
      runtimeSeconds := number .time a.config.runtimeSeconds
      listenPort := number .port a.config.listenPort
      announceIp := text .ip a.config.announceIp
      runId := text .runId a.config.runId
      sessionId := text .sessionId a.config.sessionId
      nodeRole := text .nodeRole a.config.nodeRole
      artifactsDir := path .artifactsDir a.config.artifactsDir
      savePath := path .savePath a.config.savePath
      destinationUrl := text .destinationUrl a.config.destinationUrl
      snapshotIntervalMs := number .snapshotIntervalMs a.config.snapshotIntervalMs
      clientLabel := text .clientLabel a.config.clientLabel
      profileId := text .profileId a.config.profileId
      consoleStatus := a.config.consoleStatus && !occurrences.any Occurrence.isSilencing }
    eventLogOverride := ((lastValue .eventLog occurrences).map Path.mk).or a.eventLogOverride
    summaryJsonOverride :=
      ((lastValue .summaryJson occurrences).map Path.mk).or a.summaryJsonOverride }

section Occurrences

variable {a b : Arguments} {name text : ByteString} {option : ValueOption}
  {occurrence : Occurrence} {occurrences : List Occurrence}

theorem lastValue_cons (option : ValueOption) (occurrence : Occurrence)
    (occurrences : List Occurrence) :
    lastValue option (occurrence :: occurrences) =
      (lastValue option occurrences).or (occurrence.valueOf option) := by
  unfold lastValue
  cases h : occurrence.valueOf option with
  | none => rw [List.filterMap_cons_none h, Option.or_none]
  | some value => rw [List.filterMap_cons_some h, List.getLast?_cons, Option.or_some]

theorem lastNumber_cons (option : ValueOption) (occurrence : Occurrence)
    (occurrences : List Occurrence) :
    lastNumber option (occurrence :: occurrences) =
      (lastNumber option occurrences).or ((occurrence.valueOf option).bind readInteger) := by
  unfold lastNumber
  cases h : occurrence.valueOf option with
  | none => rw [List.filterMap_cons_none h, Option.bind_none, Option.or_none]
  | some value =>
      rw [List.filterMap_cons_some h, Option.bind_some]
      cases hn : readInteger value with
      | none => rw [List.filterMap_cons_none hn, Option.or_none]
      | some n => rw [List.filterMap_cons_some hn, List.getLast?_cons, Option.or_some]

theorem readInteger_of_read {reader : IntegerReader} {n : Int} (h : reader.read text = .ok n) :
    readInteger text = some n ∧ reader.lower ≤ n ∧ n ≤ reader.upper := by
  unfold IntegerReader.read at h
  split at h
  · cases h
  · next m hm =>
      split at h
      · cases h
      · next hrange =>
          cases h
          rw [not_or, not_lt, not_lt] at hrange
          exact ⟨hm, hrange⟩

theorem IntegerReader.bind_ok {reader : IntegerReader} {f : Int → Except CommandLineError Arguments}
    (h : (reader.read text >>= f) = .ok b) : ∃ n, reader.read text = .ok n ∧ f n = .ok b := by
  cases hread : reader.read text with
  | error e =>
      rw [hread] at h
      cases h
  | ok n =>
      rw [hread] at h
      exact ⟨n, rfl, h⟩

/-- Options without a number take every value, the others every number in their range. -/
theorem exists_assign_iff (a : Arguments) :
    (∃ b, a.assign text option = .ok b) ↔
      ∀ reader ∈ option.integerReader, ∃ n, reader.read text = .ok n := by
  have hnumber : ∀ (reader : IntegerReader) (f : Int → Arguments),
      (∃ b, (do let n ← reader.read text; pure (f n)) = Except.ok b) ↔
        ∀ reader' ∈ some reader, ∃ n, reader'.read text = .ok n := by
    intro reader f
    constructor
    · rintro ⟨b, hb⟩ reader' hreader
      obtain ⟨n, hn, -⟩ := IntegerReader.bind_ok hb
      cases hreader
      exact ⟨n, hn⟩
    · intro h
      obtain ⟨n, hn⟩ := h reader rfl
      exact ⟨f n, by rw [hn]; rfl⟩
  cases option with
  | time | port => exact hnumber stoi _
  | snapshotIntervalMs => exact hnumber stoll _
  | _ => exact ⟨fun _ _ h => (by cases h), fun _ => ⟨_, rfl⟩⟩

/-- Only a number can be refused. -/
theorem exists_read_eq_error {error : CommandLineError} (h : a.assign text option = .error error) :
    ∃ reader, option.integerReader = some reader ∧ reader.read text = .error error := by
  have hnumber : ∀ {reader : IntegerReader} {f : Int → Arguments},
      (do let n ← reader.read text; pure (f n)) = (Except.error error : Except _ Arguments) →
        reader.read text = .error error := by
    intro reader f hbind
    cases hread : reader.read text with
    | error e =>
        rw [hread] at hbind
        cases hbind
        rfl
    | ok n =>
        rw [hread] at hbind
        cases hbind
  cases option with
  | time | port => exact ⟨stoi, rfl, hnumber h⟩
  | snapshotIntervalMs => exact ⟨stoll, rfl, hnumber h⟩
  | _ => cases h

/-- An option that is read first counts where it is not given again. -/
theorem argumentsOf_of_assign {named : commandOption name = some (.value option)}
    (h : a.assign text option = .ok b) (occurrences : List Occurrence) :
    argumentsOf b occurrences = argumentsOf a (.value name option text named :: occurrences) := by
  cases option with
  | time | port | snapshotIntervalMs =>
      obtain ⟨n, hn, hb⟩ := IntegerReader.bind_ok h
      cases hb
      have hread := (readInteger_of_read hn).1
      simp [argumentsOf, lastValue_cons, lastNumber_cons, Occurrence.valueOf,
        Occurrence.isSilencing, hread]
  | _ =>
      cases h
      simp [argumentsOf, lastValue_cons, lastNumber_cons, Occurrence.valueOf,
        Occurrence.isSilencing]

theorem argumentsOf_withoutConsoleStatus (a : Arguments) (occurrences : List Occurrence) :
    argumentsOf a.withoutConsoleStatus occurrences =
      argumentsOf a (.noConsoleStatus :: occurrences) := by
  simp [argumentsOf, lastValue_cons, lastNumber_cons, Occurrence.valueOf,
    Occurrence.isSilencing, Arguments.withoutConsoleStatus]

theorem argumentsOf_nil (a : Arguments) : argumentsOf a [] = a := by
  simp [argumentsOf, lastValue, lastNumber]

end Occurrences

/-! ### What the loop does with a command line -/

/-- The end of the loop, which has come to the arguments `a`: nothing is left, or help is
asked for, or the next argument is unknown, lacks its value or has a value that is no number
in range. -/
inductive Ending (a : Arguments) :
    List ByteString → Except CommandLineError CommandLine → Prop where
  | finished : Ending a [] (.ok (.run a))
  | help {name : ByteString} {rest : List ByteString} (h : commandOption name = some .help) :
      Ending a (name :: rest) (.ok .help)
  | unknown {arg : ByteString} {rest : List ByteString} (h : commandOption arg = none) :
      Ending a (arg :: rest) (.error (.failure (.invalidArgument ("unknown argument: " ++ arg))))
  | missing {name : ByteString} {option : ValueOption}
      (h : commandOption name = some (.value option)) :
      Ending a [name] (.error (.failure (.invalidArgument ("missing value for " ++ name))))
  | unreadable {name text : ByteString} {option : ValueOption} {rest : List ByteString}
      {reader : IntegerReader} {error : CommandLineError}
      (h : commandOption name = some (.value option))
      (hreader : option.integerReader = some reader) (herror : reader.read text = .error error) :
      Ending a (name :: text :: rest) (.error error)

/-- A test that leads to another option has failed. -/
theorem of_ite_eq {c : Prop} [Decidable c] {x y : CommandOption} {otherwise : Option CommandOption}
    (h : (if c then some x else otherwise) = some y) (hne : x ≠ y) : otherwise = some y := by
  split at h
  · exact absurd (Option.some.inj h) hne
  · exact h

theorem eq_of_commandOption {arg : ByteString} (h : commandOption arg = some .noConsoleStatus) :
    arg = "--no-console-status" := by
  by_contra hne
  unfold commandOption at h
  iterate 13 replace h := of_ite_eq h (by decide)
  rw [if_neg hne] at h
  iterate 3 replace h := of_ite_eq h (by decide)
  cases h

/-- The command line of a list of options. -/
def commandLineOf (occurrences : List Occurrence) : List ByteString :=
  occurrences.flatMap Occurrence.render

section Parse

variable {a b : Arguments} {name text : ByteString} {option : ValueOption}
  {occurrences : List Occurrence} {argv rest : List ByteString}
  {result : Except CommandLineError CommandLine}

theorem parseArguments_unreadable {reader : IntegerReader} {error : CommandLineError}
    (h : commandOption name = some (.value option))
    (hreader : option.integerReader = some reader) (herror : reader.read text = .error error) :
    parseArguments a (name :: text :: rest) = .error error := by
  have hassign : a.assign text option = .error error := by
    cases option with
    | time | port | snapshotIntervalMs =>
        cases hreader
        rw [Arguments.assign, herror]
        rfl
    | _ => cases hreader
  rw [parseArguments, h]
  dsimp only
  rw [hassign]

theorem Ending.parseArguments_eq (h : Ending a rest result) :
    parseArguments a rest = result := by
  cases h with
  | finished => rw [parseArguments]
  | help h => rw [parseArguments, h]
  | unknown h => rw [parseArguments, h]
  | missing h => rw [parseArguments, h]
  | unreadable h hreader herror => exact parseArguments_unreadable h hreader herror

/-- Options that can be read leave the loop with what they say. -/
theorem parseArguments_append (a : Arguments) (h : ∀ o ∈ occurrences, o.IsReadable)
    (rest : List ByteString) :
    parseArguments a (commandLineOf occurrences ++ rest) =
      parseArguments (argumentsOf a occurrences) rest := by
  induction occurrences generalizing a with
  | nil => rw [argumentsOf_nil, commandLineOf, List.flatMap_nil, List.nil_append]
  | cons occurrence occurrences ih =>
      rw [List.forall_mem_cons] at h
      have hsplit : commandLineOf (occurrence :: occurrences) ++ rest =
          occurrence.render ++ (commandLineOf occurrences ++ rest) := by
        rw [commandLineOf, List.flatMap_cons, List.append_assoc, commandLineOf]
      rw [hsplit]
      cases occurrence with
      | noConsoleStatus =>
          rw [← argumentsOf_withoutConsoleStatus, ← ih _ h.2]
          rfl
      | value name option text named =>
          obtain ⟨b, hb⟩ := (exists_assign_iff a).mpr h.1
          rw [← argumentsOf_of_assign hb, ← ih _ h.2]
          change parseArguments a (name :: text :: _) = _
          rw [parseArguments, named]
          dsimp only
          rw [hb]
          rfl

/-- The loop reads options as long as it can. -/
theorem exists_ending (a : Arguments) (argv : List ByteString) :
    ∃ occurrences rest, argv = commandLineOf occurrences ++ rest ∧
      (∀ o ∈ occurrences, o.IsReadable) ∧
        Ending (argumentsOf a occurrences) rest (parseArguments a argv) := by
  have hstuck : ∀ {a : Arguments} {argv : List ByteString}
      {result : Except CommandLineError CommandLine}, Ending a argv result →
      ∃ occurrences rest, argv = commandLineOf occurrences ++ rest ∧
        (∀ o ∈ occurrences, o.IsReadable) ∧ Ending (argumentsOf a occurrences) rest result := by
    intro a argv result h
    refine ⟨[], argv, rfl, by simp, ?_⟩
    rwa [argumentsOf_nil]
  fun_induction parseArguments a argv with
  | case1 a => exact hstuck .finished
  | case2 a arg rest h => exact hstuck (.unknown h)
  | case3 a arg rest h => exact hstuck (.help h)
  | case4 a arg rest h ih =>
      obtain ⟨occurrences, more, hrest, hreadable, hending⟩ := ih
      refine ⟨.noConsoleStatus :: occurrences, more, ?_, ?_, ?_⟩
      · rw [eq_of_commandOption h, hrest]
        rfl
      · exact List.forall_mem_cons.mpr ⟨True.intro, hreadable⟩
      · rwa [← argumentsOf_withoutConsoleStatus]
  | case5 a name option h => exact hstuck (.missing h)
  | case6 a name option h text rest error herror =>
      obtain ⟨reader, hreader, hread⟩ := exists_read_eq_error herror
      exact hstuck (.unreadable h hreader hread)
  | case7 a name option h text rest b hb ih =>
      obtain ⟨occurrences, more, hrest, hreadable, hending⟩ := ih
      refine ⟨.value name option text h :: occurrences, more, ?_, ?_, ?_⟩
      · rw [hrest]
        rfl
      · exact List.forall_mem_cons.mpr ⟨(exists_assign_iff a).mp ⟨b, hb⟩, hreadable⟩
      · rwa [← argumentsOf_of_assign hb]

/-- The loop of `main`, for every command line: it reads options with their values, of each
of which the last one counts, and ends at the first argument that it cannot read. -/
theorem parseArguments_eq_iff (a : Arguments) (argv : List ByteString)
    (result : Except CommandLineError CommandLine) :
    parseArguments a argv = result ↔
      ∃ occurrences rest, argv = commandLineOf occurrences ++ rest ∧
        (∀ o ∈ occurrences, o.IsReadable) ∧ Ending (argumentsOf a occurrences) rest result := by
  constructor
  · rintro rfl
    exact exists_ending a argv
  · rintro ⟨occurrences, rest, rfl, hreadable, hending⟩
    rw [parseArguments_append a hreadable, hending.parseArguments_eq]

end Parse

/-! ### The configurations of `main` -/

/-- A text that `argv` can hold: it ends before its first zero byte. -/
def IsCString (text : ByteString) : Prop := 0 ∉ text

instance (text : ByteString) : Decidable (IsCString text) :=
  inferInstanceAs (Decidable (0 ∉ text))

/-- The texts among the variables that the loop assigns. -/
def Arguments.texts (a : Arguments) : List ByteString :=
  [a.config.torrentSource, a.config.announceIp, a.config.runId, a.config.sessionId,
    a.config.nodeRole, a.config.artifactsDir.bytes, a.config.savePath.bytes,
    a.config.destinationUrl, a.config.clientLabel, a.config.profileId] ++
  a.eventLogOverride.toList.map Path.bytes ++ a.summaryJsonOverride.toList.map Path.bytes

/-- What the checks let through: the port and the times are in their ranges, the role is one
of the three, the texts are those of an `argv`, and what no option sets is as it was. -/
structure Arguments.IsAccepted (a : Arguments) : Prop where
  texts : ∀ text ∈ a.texts, IsCString text
  listenPort : 0 ≤ a.config.listenPort ∧ a.config.listenPort ≤ 65535
  runtimeSeconds : 0 ≤ a.config.runtimeSeconds ∧ a.config.runtimeSeconds ≤ 2147483647
  snapshotIntervalMs :
    0 < a.config.snapshotIntervalMs ∧ a.config.snapshotIntervalMs ≤ 9223372036854775807
  nodeRole : isValidNodeRole a.config.nodeRole = true
  torrentSourceType : a.config.torrentSourceType = []
  switches : a.config.enableDht = false ∧ a.config.enableLsd = false ∧
    a.config.enableUpnp = false ∧ a.config.enableNatpmp = false

/-- The options that set everything. -/
def Arguments.occurrences (a : Arguments) : List Occurrence :=
  [.value "--file" .file a.config.torrentSource rfl,
    .value "--time" .time (JsonSyntax.printInt a.config.runtimeSeconds) rfl,
    .value "--port" .port (JsonSyntax.printInt a.config.listenPort) rfl,
    .value "--ip" .ip a.config.announceIp rfl,
    .value "--run-id" .runId a.config.runId rfl,
    .value "--session-id" .sessionId a.config.sessionId rfl,
    .value "--node-role" .nodeRole a.config.nodeRole rfl,
    .value "--artifacts-dir" .artifactsDir a.config.artifactsDir.bytes rfl,
    .value "--save-path" .savePath a.config.savePath.bytes rfl,
    .value "--destination-url" .destinationUrl a.config.destinationUrl rfl,
    .value "--snapshot-interval-ms" .snapshotIntervalMs
      (JsonSyntax.printInt a.config.snapshotIntervalMs) rfl,
    .value "--client-label" .clientLabel a.config.clientLabel rfl,
    .value "--profile-id" .profileId a.config.profileId rfl] ++
  (a.eventLogOverride.toList.map fun path => .value "--event-log" .eventLog path.bytes rfl) ++
  (a.summaryJsonOverride.toList.map fun path =>
    .value "--summary-json" .summaryJson path.bytes rfl) ++
  if a.config.consoleStatus then [] else [.noConsoleStatus]

section Accepted

variable {a : Arguments}

/-- A printed number is read as it is. -/
theorem readInteger_printInt_self (n : Int) : readInteger (JsonSyntax.printInt n) = some n := by
  have h := @readInteger_printInt n [] [] (by simp) (by simp)
  rwa [List.nil_append, List.append_nil] at h

theorem read_printInt {reader : IntegerReader} {n : Int} (hlower : reader.lower ≤ n)
    (hupper : n ≤ reader.upper) : reader.read (JsonSyntax.printInt n) = .ok n := by
  unfold IntegerReader.read
  rw [readInteger_printInt_self]
  dsimp only
  rw [if_neg (by omega)]

theorem check_eq_ok_iff
    (hport : stoi.lower ≤ a.config.listenPort ∧ a.config.listenPort ≤ stoi.upper)
    (hruntime : stoi.lower ≤ a.config.runtimeSeconds ∧ a.config.runtimeSeconds ≤ stoi.upper)
    (hinterval : stoll.lower ≤ a.config.snapshotIntervalMs ∧
      a.config.snapshotIntervalMs ≤ stoll.upper) :
    a.check = .ok () ↔
      (0 ≤ a.config.listenPort ∧ a.config.listenPort ≤ 65535) ∧ 0 ≤ a.config.runtimeSeconds ∧
        0 < a.config.snapshotIntervalMs ∧ isValidNodeRole a.config.nodeRole = true := by
  simp only [stoi, stoll] at hport hruntime hinterval
  have hportInt := Int32.toInt_ofInt_of_le (n := a.config.listenPort) (by omega) (by omega)
  have hruntimeInt := Int32.toInt_ofInt_of_le (n := a.config.runtimeSeconds) (by omega) (by omega)
  have hintervalInt := Int64.toInt_ofInt_of_le (n := a.config.snapshotIntervalMs) (by omega)
    (by omega)
  have hlast : (65535 : Int32).toInt = 65535 := by decide
  have hzero : (0 : Int32).toInt = 0 := by decide
  have hzero' : (0 : Int64).toInt = 0 := by decide
  unfold Arguments.check checkArguments
  simp only [Int32.lt_iff_toInt_lt, Int64.le_iff_toInt_le, hportInt, hruntimeInt, hintervalInt,
    hlast, hzero, hzero']
  by_cases hbadPort : a.config.listenPort < 0 ∨ 65535 < a.config.listenPort
  · rw [if_pos hbadPort]
    refine ⟨fun h => (by cases h), fun h => ?_⟩
    omega
  by_cases hbadRuntime : a.config.runtimeSeconds < 0
  · rw [if_neg hbadPort, if_pos hbadRuntime]
    refine ⟨fun h => (by cases h), fun h => ?_⟩
    omega
  by_cases hbadInterval : a.config.snapshotIntervalMs ≤ 0
  · rw [if_neg hbadPort, if_neg hbadRuntime, if_pos hbadInterval]
    refine ⟨fun h => (by cases h), fun h => ?_⟩
    omega
  rw [if_neg hbadPort, if_neg hbadRuntime, if_neg hbadInterval]
  cases hrole : isValidNodeRole a.config.nodeRole with
  | false => exact ⟨fun h => (by cases h), fun h => (by cases h.2.2.2)⟩
  | true => exact ⟨fun _ => ⟨by omega, by omega, by omega, rfl⟩, fun _ => rfl⟩

/-- Of numbers that can be read, the last one is in its range as well. -/
theorem lastNumber_mem_range {option : ValueOption} {reader : IntegerReader}
    (hreader : option.integerReader = some reader) {occurrences : List Occurrence}
    (h : ∀ o ∈ occurrences, o.IsReadable) {n : Int}
    (hn : lastNumber option occurrences = some n) : reader.lower ≤ n ∧ n ≤ reader.upper := by
  obtain ⟨text, htext, hread⟩ := List.mem_filterMap.mp (List.mem_of_getLast? hn)
  obtain ⟨occurrence, hmem, hvalue⟩ := List.mem_filterMap.mp htext
  cases occurrence with
  | noConsoleStatus => cases hvalue
  | value name option' text' named =>
      rw [Occurrence.valueOf] at hvalue
      split at hvalue
      · next heq =>
          subst heq
          cases hvalue
          obtain ⟨m, hm⟩ := h _ hmem reader hreader
          obtain ⟨hread', hrange⟩ := readInteger_of_read hm
          cases hread.symm.trans hread'
          exact hrange
      · cases hvalue

/-- The number that counts is in the range of its type, if the default is. -/
theorem getD_lastNumber_mem_range (option : ValueOption) {reader : IntegerReader}
    (hreader : option.integerReader = some reader) {occurrences : List Occurrence}
    (h : ∀ o ∈ occurrences, o.IsReadable) {d : Int}
    (hdefault : reader.lower ≤ d ∧ d ≤ reader.upper) :
    reader.lower ≤ (lastNumber option occurrences).getD d ∧
      (lastNumber option occurrences).getD d ≤ reader.upper := by
  cases hn : lastNumber option occurrences with
  | none => exact hdefault
  | some n => exact lastNumber_mem_range hreader h hn

/-- The options that set everything say what was to be set. -/
theorem argumentsOf_occurrences (h : a.IsAccepted) : argumentsOf {} a.occurrences = a := by
  obtain ⟨⟨torrentSource, torrentSourceType, runId, sessionId, nodeRole, announceIp, clientLabel,
    profileId, destinationUrl, artifactsDir, savePath, runtimeSeconds, listenPort,
    snapshotIntervalMs, consoleStatus, enableDht, enableLsd, enableUpnp, enableNatpmp⟩,
    eventLogOverride, summaryJsonOverride⟩ := a
  obtain ⟨-, -, -, -, -, rfl, rfl, rfl, rfl, rfl⟩ := h
  cases consoleStatus <;> cases eventLogOverride <;> cases summaryJsonOverride <;>
    simp [argumentsOf, Arguments.occurrences, lastValue, lastNumber, Occurrence.valueOf,
      Occurrence.isSilencing, readInteger_printInt_self, List.filterMap_cons]

theorem readable_occurrences (h : a.IsAccepted) : ∀ o ∈ a.occurrences, o.IsReadable := by
  have hport := h.listenPort
  have hruntime := h.runtimeSeconds
  have hinterval := h.snapshotIntervalMs
  have htext : ∀ {name text : ByteString} {option : ValueOption}
      {named : commandOption name = some (.value option)}, option.integerReader = none →
        (Occurrence.value name option text named).IsReadable := by
    intro name text option named hnone reader hreader
    rw [hnone] at hreader
    cases hreader
  have hnumber : ∀ {name : ByteString} {option : ValueOption} {reader : IntegerReader} {n : Int}
      {named : commandOption name = some (.value option)}, option.integerReader = some reader →
        reader.lower ≤ n → n ≤ reader.upper →
          (Occurrence.value name option (JsonSyntax.printInt n) named).IsReadable := by
    intro name option reader n named hsome hlower hupper reader' hreader
    rw [hsome] at hreader
    cases hreader
    exact ⟨n, read_printInt hlower hupper⟩
  refine List.forall_mem_append.mpr ⟨List.forall_mem_append.mpr
    ⟨List.forall_mem_append.mpr ⟨?_, ?_⟩, ?_⟩, ?_⟩
  · simp only [List.forall_mem_cons]
    refine ⟨htext rfl, hnumber rfl ?_ hruntime.2, hnumber rfl ?_ ?_, htext rfl, htext rfl,
      htext rfl, htext rfl, htext rfl, htext rfl, htext rfl, hnumber rfl ?_ hinterval.2,
      htext rfl, htext rfl, by simp⟩
    all_goals simp only [stoi, stoll]; omega
  · rw [List.forall_mem_map]
    exact fun _ _ => htext rfl
  · rw [List.forall_mem_map]
    exact fun _ _ => htext rfl
  · split
    · simp
    · simp [Occurrence.IsReadable]

/-- A value replaces a text, or leaves them all. -/
theorem Arguments.texts_assign {b : Arguments} {option : ValueOption} {value text : ByteString}
    (h : a.assign value option = .ok b) (htext : text ∈ b.texts) :
    text ∈ a.texts ∨ text = value := by
  cases option with
  | time | port | snapshotIntervalMs =>
      obtain ⟨n, -, hb⟩ := IntegerReader.bind_ok h
      cases hb
      exact Or.inl htext
  | _ =>
      cases h
      simp only [texts, List.mem_append, List.mem_cons, List.not_mem_nil, or_false,
        Option.toList_some, List.map_cons, List.map_nil] at htext ⊢
      tauto

/-- The loop assigns only texts of the command line. -/
theorem isCString_parseArguments {b : Arguments} {argv : List ByteString}
    (h : parseArguments a argv = .ok (.run b)) (ha : ∀ text ∈ a.texts, IsCString text)
    (hargv : ∀ text ∈ argv, IsCString text) : ∀ text ∈ b.texts, IsCString text := by
  fun_induction parseArguments a argv with
  | case1 a =>
      cases h
      exact ha
  | case2 => cases h
  | case3 => cases h
  | case4 a arg rest hname ih => exact ih h ha (List.forall_mem_cons.mp hargv).2
  | case5 => cases h
  | case6 => cases h
  | case7 a name option hname value rest b' hassign ih =>
      obtain ⟨-, hvalue, hrest⟩ := by simpa only [List.forall_mem_cons] using hargv
      refine ih h (fun text htext => ?_) hrest
      rcases Arguments.texts_assign hassign htext with hold | rfl
      · exact ha text hold
      · exact hvalue

theorem isCString_printInt (n : Int) : IsCString (JsonSyntax.printInt n) := by
  have hdigits : ∀ m : ℕ, 0 ∉ JsonSyntax.printNat m := fun m hmem => by
    have hdigit := (JsonSyntax.printNat_spec m).2.1 0 hmem
    exact absurd hdigit (by decide)
  cases n with
  | ofNat n => exact hdigits n
  | negSucc n =>
      rw [IsCString, JsonSyntax.printInt, List.mem_cons, not_or]
      exact ⟨by decide, hdigits (n + 1)⟩

/-- An override gives the name of its option and its path. -/
theorem isCString_overrides {name : ByteString} {option : ValueOption}
    (named : commandOption name = some (.value option)) (hname : IsCString name)
    {paths : List Path} (h : ∀ path ∈ paths, IsCString path.bytes) :
    ∀ text ∈ (paths.map fun path => Occurrence.value name option path.bytes named).flatMap
      Occurrence.render, IsCString text := by
  intro text htext
  rw [List.flatMap_map, List.mem_flatMap] at htext
  obtain ⟨path, hpath, hrender⟩ := htext
  simp only [Occurrence.render, List.mem_cons, List.not_mem_nil, or_false] at hrender
  rcases hrender with rfl | rfl
  · exact hname
  · exact h path hpath

theorem isCString_commandLineOf (h : ∀ text ∈ a.texts, IsCString text) :
    ∀ text ∈ commandLineOf a.occurrences, IsCString text := by
  have hruntime := isCString_printInt a.config.runtimeSeconds
  have hport := isCString_printInt a.config.listenPort
  have hinterval := isCString_printInt a.config.snapshotIntervalMs
  have hname : ∀ name ∈ (["--file", "--time", "--port", "--ip", "--run-id", "--session-id",
      "--node-role", "--artifacts-dir", "--save-path", "--destination-url",
      "--snapshot-interval-ms", "--client-label", "--profile-id", "--event-log",
      "--summary-json", "--no-console-status"] : List ByteString), IsCString name := by
    decide
  simp only [List.forall_mem_cons] at hname
  simp only [Arguments.texts, List.forall_mem_append, List.forall_mem_cons,
    List.forall_mem_map] at h
  obtain ⟨⟨htexts, heventLog⟩, hsummary⟩ := h
  simp only [commandLineOf, Arguments.occurrences, List.flatMap_append, List.forall_mem_append]
  refine ⟨⟨⟨?_, ?_⟩, ?_⟩, ?_⟩
  · simp only [List.flatMap_cons, List.flatMap_nil, Occurrence.render, List.cons_append,
      List.nil_append, List.append_nil, List.forall_mem_cons]
    tauto
  · exact isCString_overrides rfl (by tauto) heventLog
  · exact isCString_overrides rfl (by tauto) hsummary
  · split
    · simp
    · simp only [List.flatMap_cons, List.flatMap_nil, Occurrence.render, List.append_nil,
        List.forall_mem_cons]
      tauto

/-- The configurations that `main` goes on with, one for each command line, are all that the
checks describe. -/
theorem exists_commandLine_iff (a : Arguments) :
    (∃ argv, (∀ text ∈ argv, IsCString text) ∧ parseArguments {} argv = .ok (.run a) ∧
      a.check = .ok ()) ↔ a.IsAccepted := by
  constructor
  · rintro ⟨argv, hargv, hparse, hcheck⟩
    have htexts := isCString_parseArguments hparse (by decide) hargv
    obtain ⟨occurrences, rest, -, hreadable, hending⟩ := (parseArguments_eq_iff _ _ _).mp hparse
    cases hending
    have hport := getD_lastNumber_mem_range .port rfl hreadable (d := 51413)
      (show stoi.lower ≤ 51413 ∧ 51413 ≤ stoi.upper by decide)
    have hruntime := getD_lastNumber_mem_range .time rfl hreadable (d := 60)
      (show stoi.lower ≤ 60 ∧ 60 ≤ stoi.upper by decide)
    have hinterval := getD_lastNumber_mem_range .snapshotIntervalMs rfl hreadable (d := 1000)
      (show stoll.lower ≤ 1000 ∧ 1000 ≤ stoll.upper by decide)
    obtain ⟨hports, hruntimes, hintervals, hrole⟩ :=
      (check_eq_ok_iff hport hruntime hinterval).mp hcheck
    exact ⟨htexts, hports, ⟨hruntimes, hruntime.2⟩, ⟨hintervals, hinterval.2⟩, hrole, rfl,
      rfl, rfl, rfl, rfl⟩
  · intro h
    refine ⟨commandLineOf a.occurrences, isCString_commandLineOf h.texts, ?_, ?_⟩
    · refine (parseArguments_eq_iff _ _ _).mpr
        ⟨a.occurrences, [], (List.append_nil _).symm, readable_occurrences h, ?_⟩
      rw [argumentsOf_occurrences h]
      exact .finished
    · have hport := h.listenPort
      have hruntime := h.runtimeSeconds
      have hinterval := h.snapshotIntervalMs
      refine (check_eq_ok_iff ?_ ?_ ?_).mpr
        ⟨h.listenPort, hruntime.1, hinterval.1, h.nodeRole⟩
      · simp only [stoi]
        omega
      · simp only [stoi]
        omega
      · simp only [stoll]
        omega

end Accepted

end BtClient
