import BtClient.Arguments
import BtClient.CaptureSession
import BtClient.RetryUploads

/-!
# The program

`main` from its command line to its exit code, with the ids that it generates. What the
session logs, and whether it ends with a summary or with an exception, is arbitrary, as are
the network and the faults of the file system.
-/

namespace BtClient

/-! ### Generated ids -/

/-- A calendar time, as `gmtime_r` yields it. -/
structure UtcTime where
  year : ℕ
  month : ℕ
  day : ℕ
  hour : ℕ
  minute : ℕ
  second : ℕ
  month_le : month ≤ 12
  day_le : day ≤ 31
  hour_lt : hour < 24
  minute_lt : minute < 60
  second_le : second ≤ 60
  deriving DecidableEq

/-- A number below a hundred with two digits. -/
def twoDigits (n : ℕ) : ByteString := [JsonSyntax.digit (n / 10), JsonSyntax.digit (n % 10)]

/-- `compact_utc_stamp` -/
def compactUtcStamp (t : UtcTime) : ByteString :=
  JsonSyntax.printNat t.year ++ (twoDigits t.month ++ (twoDigits t.day ++ ("T" ++
    (twoDigits t.hour ++ (twoDigits t.minute ++ (twoDigits t.second ++ ByteString.ofString "Z"))))))

/-- What `generate_id` asks the system for. -/
structure IdSource where
  utc : UtcTime
  pid : ℕ
  monotonicNs : Int
  deriving DecidableEq

/-- `generate_id` -/
def generateId (kind : ByteString) (source : IdSource) : ByteString :=
  kind ++ "-" ++ compactUtcStamp source.utc ++ "-" ++ JsonSyntax.printNat source.pid ++ "-" ++
    JsonSyntax.printInt (source.monotonicNs.tmod 1000000)

/-- `is_magnet_uri` -/
def isMagnetUri (input : ByteString) : Bool := startsWith input "magnet:?"

/-! ### The program -/

/-- What a session logs, and the summary that it ends with unless it ends with an
exception. -/
structure SessionOutcome where
  events : List Json
  ending : Except Failure Json

/-- What a process of the program is surrounded by. -/
structure Process extends Surroundings where
  runIdSource : IdSource
  sessionIdSource : IdSource
  session : RuntimeConfig → OutputPaths → SessionOutcome

/-- The configuration with its ids and the type of its source. -/
def Process.identified (process : Process) (config : RuntimeConfig) : RuntimeConfig :=
  { config with
    runId := if config.runId.isEmpty then generateId "run" process.runIdSource
      else config.runId
    sessionId := if config.sessionId.isEmpty then generateId "session" process.sessionIdSource
      else config.sessionId
    torrentSourceType := if isMagnetUri config.torrentSource then "magnet" else "torrent_file" }

section Program

variable [JsonText]

/-- The session from its manifest `capturing` to its manifest `ready_to_upload`, if it gets
there. -/
def captureOutcome (config : RuntimeConfig) (outputPaths : OutputPaths)
    (outcome : SessionOutcome) : Action Unit := do
  writeArtifactState config outputPaths .capturing
  let stream ← openEventLog outputPaths
  let stream ← writeEventLines stream outcome.events
  match outcome.ending with
  | .error failure => throwFailure failure
  | .ok summary => do
      closeEventLog outputPaths stream
      writeSessionSummary outputPaths summary
      writeArtifactState config outputPaths .readyToUpload

theorem captureOutcome_of_ok {config : RuntimeConfig} {outputPaths : OutputPaths}
    {outcome : SessionOutcome} {summary : Json} (h : outcome.ending = .ok summary) :
    captureOutcome config outputPaths outcome =
      captureInto config outputPaths outcome.events summary := by
  unfold captureOutcome captureInto
  rw [h]

/-- A session that ends with an exception does not return. -/
theorem triple_captureOutcome_of_error {config : RuntimeConfig} {outputPaths : OutputPaths}
    {outcome : SessionOutcome} {failure : Failure} (h : outcome.ending = .error failure)
    (Q : Unit → World → Prop) :
    Effect.Triple (fun _ => True) (captureOutcome config outputPaths outcome) Q
      (fun _ _ => True) := by
  unfold captureOutcome
  rw [h]
  refine Effect.Triple.bind (S := fun _ _ => True) Effect.Triple.trivial fun _ => ?_
  refine Effect.Triple.bind (S := fun _ _ => True) Effect.Triple.trivial fun _ => ?_
  refine Effect.Triple.bind (S := fun _ _ => True) Effect.Triple.trivial fun _ => ?_
  exact Effect.Triple.throw fun _ _ => True.intro

variable (process : Process)

/-- `main` from the choice of the ids. -/
def runSession (arguments : Arguments) : Action Int := do
  let config := process.identified arguments.config
  let outputPaths ← prepareOutputPaths process.currentDir config arguments.eventLogOverride
    arguments.summaryJsonOverride
  captureOutcome config outputPaths (process.session config outputPaths)
  uploadSession process.toSurroundings config outputPaths

/-- The retries at the start: nothing if one of them has failed. -/
def retryAtStart (config : RuntimeConfig) : Action (Option Bool) :=
  catchFailure
    (do
      let uploaded ← retryPendingArtifactUploads process.toSurroundings config
      pure (some uploaded))
    fun _ => pure none

/-- `main` after the loop over its arguments. -/
def runArguments (arguments : Arguments) : Action Int :=
  match arguments.check with
  | .error failure => throwFailure failure
  | .ok _ => do
      match ← retryAtStart process arguments.config with
      | none => pure 3
      | some uploaded =>
          if !arguments.config.torrentSource.isEmpty then runSession process arguments
          else if uploaded then pure 0
          else throwFailure (.invalidArgument "torrent source (-f/--file) is required")

/-- `main` -/
def runMain (argv : List ByteString) : Action Int :=
  match parseArguments {} argv with
  | .error _ => pure 2
  | .ok .help => pure 0
  | .ok (.run arguments) => catchFailure (runArguments process arguments) fun _ => pure 2

end Program

end BtClient
