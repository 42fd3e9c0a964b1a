import BtClient.Logging
import BtClient.PeerStats

/-!
# Time arithmetic in 64 bits

The numbers of the command line that `main` lets through, and the sums and products it and
`PeerStats` form of them and of the steady clock, which counts nanoseconds in a signed 64-bit
word. A word wraps at 64 bits. Elsewhere the model writes `word` for what a word keeps of the
sums and products that may wrap, and `TimesExact` says that the words give the integers.
-/

namespace BtClient

/-- `is_valid_node_role` -/
def isValidNodeRole (nodeRole : ByteString) : Bool :=
  nodeRole == "victim" || nodeRole == "adversary" || nodeRole == "unknown"

/-- The arguments that `main` checks, as `std::stoi` and `std::stoll` have read them. -/
structure CheckedArguments where
  listenPort : Int32 := 51413
  runtimeSeconds : Int32 := 60
  snapshotIntervalMs : Int64 := 1000
  nodeRole : ByteString := "unknown"

/-- The checks of `main` between its arguments and the pending uploads. -/
def checkArguments (arguments : CheckedArguments) : Except Failure Unit := do
  if arguments.listenPort < 0 ∨ 65535 < arguments.listenPort then
    throw (.invalidArgument "listen port must be between 0 and 65535")
  if arguments.runtimeSeconds < 0 then
    throw (.invalidArgument "runtime seconds must be >= 0")
  if arguments.snapshotIntervalMs ≤ 0 then
    throw (.invalidArgument "snapshot interval must be > 0")
  if !isValidNodeRole arguments.nodeRole then
    throw (.invalidArgument "node role must be victim, adversary, or unknown")

structure AcceptedArguments extends CheckedArguments where
  accepted : checkArguments toCheckedArguments = .ok ()

/-- A hundred years of 365.25 days in nanoseconds. -/
def hundredYearsNs : Int := 36525 * 86400 * 1000000000

/-- A reading of the steady clock within a hundred years of its epoch. -/
structure SteadyReading where
  ns : Int64
  lower : -hundredYearsNs ≤ ns.toInt
  upper : ns.toInt ≤ hundredYearsNs

/-! ### The expressions of the source -/

/-- `now + std::chrono::milliseconds(config.snapshot_interval_ms)` -/
def nextSnapshot (now snapshotIntervalMs : Int64) : Int64 :=
  now + snapshotIntervalMs * 1000000

/-- `process_start + std::chrono::seconds(config.runtime_seconds)` -/
def deadline (processStart : Int64) (runtimeSeconds : Int32) : Int64 :=
  processStart + runtimeSeconds.toInt64 * 1000000000

/-- `snapshot_interval_ms * 2` -/
def recentActivityThreshold (snapshotIntervalMs : Int64) : Int64 := snapshotIntervalMs * 2

/-- `snapshot_interval_ms * 1'000'000` -/
def interactionThreshold (snapshotIntervalMs : Int64) : Int64 := snapshotIntervalMs * 1000000

/-- The last test of `peer_has_recent_activity`. -/
def lastActiveIsRecent (lastActiveMs snapshotIntervalMs : Int64) : Bool :=
  decide (lastActiveMs ≤ recentActivityThreshold snapshotIntervalMs)

/-- The test of `PeerStats::update_from_snapshot` before it notes an interaction. -/
def interactionDue (last : Option Int64) (snapshotIntervalMs monoNs : Int64) : Bool :=
  match last with
  | some lastNs => decide (interactionThreshold snapshotIntervalMs ≤ monoNs - lastNs)
  | none => true

/-! ### Words and integers -/

theorem toInt_milliseconds (ms : Int64) :
    (ms * 1000000).toInt = word (ms.toInt * 1000000) :=
  Int64.toInt_mul ms 1000000

theorem toInt_nextSnapshot (now snapshotIntervalMs : Int64) :
    (nextSnapshot now snapshotIntervalMs).toInt =
      word (now.toInt + snapshotIntervalMs.toInt * 1000000) := by
  rw [nextSnapshot, Int64.toInt_add, toInt_milliseconds, word, word, Int.add_bmod_bmod]

theorem toInt_deadline (processStart : Int64) (runtimeSeconds : Int32) :
    (deadline processStart runtimeSeconds).toInt =
      word (processStart.toInt + runtimeSeconds.toInt * 1000000000) := by
  have hmul : (runtimeSeconds.toInt64 * 1000000000).toInt =
      word (runtimeSeconds.toInt * 1000000000) := by
    rw [← Int32.toInt_toInt64]
    exact Int64.toInt_mul runtimeSeconds.toInt64 1000000000
  rw [deadline, Int64.toInt_add, hmul, word, word, Int.add_bmod_bmod]

theorem toInt_recentActivityThreshold (snapshotIntervalMs : Int64) :
    (recentActivityThreshold snapshotIntervalMs).toInt =
      word (snapshotIntervalMs.toInt * 2) :=
  Int64.toInt_mul snapshotIntervalMs 2

theorem toInt_interactionThreshold (snapshotIntervalMs : Int64) :
    (interactionThreshold snapshotIntervalMs).toInt =
      word (snapshotIntervalMs.toInt * 1000000) :=
  toInt_milliseconds snapshotIntervalMs

namespace SteadyReading

/-- Two readings are less than the range of a word apart. -/
theorem toInt_sub (monoNs last : SteadyReading) :
    (monoNs.ns - last.ns).toInt = monoNs.ns.toInt - last.ns.toInt := by
  have hlower := monoNs.lower
  have hupper := monoNs.upper
  have hlower' := last.lower
  have hupper' := last.upper
  rw [Int64.toInt_sub, ← word, word_eq_self_iff]
  rw [hundredYearsNs] at hlower hupper hlower' hupper'
  omega

end SteadyReading

/-! ### What is accepted -/

namespace AcceptedArguments

variable (arguments : AcceptedArguments)

/-- The checks that come before the interval and the runtime have passed. -/
theorem times_pos :
    0 ≤ arguments.runtimeSeconds.toInt ∧ 0 < arguments.snapshotIntervalMs.toInt := by
  have haccepted := arguments.accepted
  have hruntime : ¬ arguments.runtimeSeconds < 0 := by
    intro h
    simp only [checkArguments, h, if_true] at haccepted
    split at haccepted <;> cases haccepted
  have hinterval : ¬ arguments.snapshotIntervalMs ≤ 0 := by
    intro h
    simp only [checkArguments, hruntime, h, if_true] at haccepted
    split at haccepted <;> cases haccepted
  rw [Int32.lt_iff_toInt_lt] at hruntime
  rw [Int64.le_iff_toInt_le] at hinterval
  exact ⟨not_lt.mp hruntime, not_le.mp hinterval⟩

end AcceptedArguments

/-- The same test with integers. -/
def interactionDueExactly (last : Option Int) (snapshotIntervalMs monoNs : Int) : Bool :=
  match last with
  | some lastNs => decide (snapshotIntervalMs * 1000000 ≤ monoNs - lastNs)
  | none => true

/-- What is said about the times of a configuration: each is the integer it stands for, the
next snapshot lies after the present, and a snapshot sooner than one interval after the last
interaction is none. -/
structure TimesExact (arguments : AcceptedArguments) (processStart now : SteadyReading) :
    Prop where
  nextSnapshot_eq : (nextSnapshot now.ns arguments.snapshotIntervalMs).toInt =
    now.ns.toInt + arguments.snapshotIntervalMs.toInt * 1000000
  deadline_eq : (deadline processStart.ns arguments.runtimeSeconds).toInt =
    processStart.ns.toInt + arguments.runtimeSeconds.toInt * 1000000000
  recentActivity_eq : (recentActivityThreshold arguments.snapshotIntervalMs).toInt =
    arguments.snapshotIntervalMs.toInt * 2
  interaction_eq : (interactionThreshold arguments.snapshotIntervalMs).toInt =
    arguments.snapshotIntervalMs.toInt * 1000000
  later : now.ns < nextSnapshot now.ns arguments.snapshotIntervalMs
  lastActiveIsRecent_eq : ∀ lastActiveMs : Int64,
    lastActiveIsRecent lastActiveMs arguments.snapshotIntervalMs =
      decide (lastActiveMs.toInt ≤ arguments.snapshotIntervalMs.toInt * 2)
  interactionDue_eq : ∀ (last : Option SteadyReading) (monoNs : SteadyReading),
    interactionDue (last.map SteadyReading.ns) arguments.snapshotIntervalMs monoNs.ns =
      interactionDueExactly (last.map fun reading => reading.ns.toInt)
        arguments.snapshotIntervalMs.toInt monoNs.ns.toInt
  not_early : ∀ last monoNs : SteadyReading,
    monoNs.ns.toInt - last.ns.toInt < arguments.snapshotIntervalMs.toInt * 1000000 →
      interactionDue (some last.ns) arguments.snapshotIntervalMs monoNs.ns = false

section Exact

variable {arguments : AcceptedArguments} {processStart now : SteadyReading}

theorem deadline_exact : (deadline processStart.ns arguments.runtimeSeconds).toInt =
    processStart.ns.toInt + arguments.runtimeSeconds.toInt * 1000000000 := by
  have hlower := processStart.lower
  have hupper := processStart.upper
  have hpos := arguments.times_pos.1
  have hlt := arguments.runtimeSeconds.toInt_lt
  rw [toInt_deadline, word_eq_self_iff]
  rw [hundredYearsNs] at hlower hupper
  omega

/-- The test of `PeerStats` is that of the words. -/
theorem interactionDue_eq_snapshotInteractionDue (snapshotIntervalMs : Int64)
    (last : Option SteadyReading) (monoNs : SteadyReading) :
    interactionDue (last.map SteadyReading.ns) snapshotIntervalMs monoNs.ns =
      PeerStats.snapshotInteractionDue (last.map fun reading => reading.ns.toInt)
        snapshotIntervalMs.toInt monoNs.ns.toInt := by
  cases last with
  | none => rfl
  | some reading =>
      have hle : interactionThreshold snapshotIntervalMs ≤ monoNs.ns - reading.ns ↔
          word (snapshotIntervalMs.toInt * 1000000) ≤ monoNs.ns.toInt - reading.ns.toInt := by
        rw [Int64.le_iff_toInt_le, toInt_interactionThreshold, monoNs.toInt_sub]
      exact decide_eq_decide.mpr hle

/-- With an exact threshold the test is that of the integers. -/
theorem interactionDue_of_exact {snapshotIntervalMs : Int64}
    (h : (interactionThreshold snapshotIntervalMs).toInt = snapshotIntervalMs.toInt * 1000000)
    (last : Option SteadyReading) (monoNs : SteadyReading) :
    interactionDue (last.map SteadyReading.ns) snapshotIntervalMs monoNs.ns =
      interactionDueExactly (last.map fun reading => reading.ns.toInt)
        snapshotIntervalMs.toInt monoNs.ns.toInt := by
  rw [interactionDue_eq_snapshotInteractionDue]
  cases last with
  | none => rfl
  | some reading =>
      rw [toInt_interactionThreshold] at h
      rw [Option.map_some, PeerStats.snapshotInteractionDue, interactionDueExactly, h]

/-- An interval whose nanoseconds fit, as those of the next snapshot do, has exact times. -/
theorem timesExact_of_fits
    (hinterval : arguments.snapshotIntervalMs.toInt * 1000000 ≤ 9223372036854775807)
    (hnow : now.ns.toInt + arguments.snapshotIntervalMs.toInt * 1000000 ≤ 9223372036854775807) :
    TimesExact arguments processStart now := by
  have hpos := arguments.times_pos.2
  have hlower := now.lower
  rw [hundredYearsNs] at hlower
  have hnext : (nextSnapshot now.ns arguments.snapshotIntervalMs).toInt =
      now.ns.toInt + arguments.snapshotIntervalMs.toInt * 1000000 := by
    rw [toInt_nextSnapshot, word_eq_self_iff]
    omega
  have hrecent : (recentActivityThreshold arguments.snapshotIntervalMs).toInt =
      arguments.snapshotIntervalMs.toInt * 2 := by
    rw [toInt_recentActivityThreshold, word_eq_self_iff]
    omega
  have hthreshold : (interactionThreshold arguments.snapshotIntervalMs).toInt =
      arguments.snapshotIntervalMs.toInt * 1000000 := by
    rw [toInt_interactionThreshold, word_eq_self_iff]
    omega
  refine ⟨hnext, deadline_exact, hrecent, hthreshold, ?_, ?_,
    interactionDue_of_exact hthreshold, ?_⟩
  · rw [Int64.lt_iff_toInt_lt, hnext]
    omega
  · intro lastActiveMs
    have hle : lastActiveMs ≤ recentActivityThreshold arguments.snapshotIntervalMs ↔
        lastActiveMs.toInt ≤ arguments.snapshotIntervalMs.toInt * 2 := by
      rw [Int64.le_iff_toInt_le, hrecent]
    exact decide_eq_decide.mpr hle
  · intro last monoNs hearly
    have hdue := interactionDue_of_exact hthreshold (some last) monoNs
    rw [Option.map_some, Option.map_some] at hdue
    rw [hdue]
    exact decide_eq_false (not_le.mpr hearly)

/-- The next snapshot is exact only when its nanoseconds fit. -/
theorem fits_of_nextSnapshot (h : (nextSnapshot now.ns arguments.snapshotIntervalMs).toInt =
    now.ns.toInt + arguments.snapshotIntervalMs.toInt * 1000000) :
    now.ns.toInt + arguments.snapshotIntervalMs.toInt * 1000000 ≤ 9223372036854775807 := by
  rw [toInt_nextSnapshot, word_eq_self_iff] at h
  exact h.2

/-- The times are exact just when the interval in nanoseconds, and the snapshot it leads to
from the present reading, fit into a signed 64-bit word. -/
theorem timesExact_iff (arguments : AcceptedArguments) (processStart now : SteadyReading) :
    TimesExact arguments processStart now ↔
      arguments.snapshotIntervalMs.toInt * 1000000 ≤ Int64.maxValue.toInt ∧
        now.ns.toInt + arguments.snapshotIntervalMs.toInt * 1000000 ≤ Int64.maxValue.toInt := by
  have hmax : Int64.maxValue.toInt = 9223372036854775807 := by decide
  rw [hmax]
  constructor
  · intro h
    have hinterval := h.interaction_eq
    rw [toInt_interactionThreshold, word_eq_self_iff] at hinterval
    exact ⟨hinterval.2, fits_of_nextSnapshot h.nextSnapshot_eq⟩
  · rintro ⟨hinterval, hnow⟩
    exact timesExact_of_fits hinterval hnow

/-- The latest reading that is considered. -/
def latestReading : SteadyReading := ⟨3155760000000000000, by decide, by decide⟩

/-- An interval is safe for a hundred years of readings when its nanoseconds, after those
years, fit into a signed 64-bit word: up to 6067612036854 milliseconds. -/
theorem forall_timesExact_iff (arguments : AcceptedArguments) :
    (∀ processStart now, TimesExact arguments processStart now) ↔
      arguments.snapshotIntervalMs.toInt ≤ 6067612036854 := by
  constructor
  · intro h
    have hlatest := fits_of_nextSnapshot (h latestReading latestReading).nextSnapshot_eq
    have hns : latestReading.ns.toInt = 3155760000000000000 := by decide
    rw [hns] at hlatest
    omega
  · intro h processStart now
    have hupper := now.upper
    rw [hundredYearsNs] at hupper
    exact timesExact_of_fits (by omega) (by omega)

/-- The longest interval that is accepted. -/
def longestInterval : AcceptedArguments where
  snapshotIntervalMs := Int64.maxValue
  accepted := by decide

/-- The epoch of the steady clock. -/
def steadyEpoch : SteadyReading := ⟨0, by decide, by decide⟩

/-- The longest interval takes the next snapshot into the past. -/
theorem not_timesExact_longestInterval :
    ¬ TimesExact longestInterval steadyEpoch steadyEpoch := by
  intro h
  exact absurd h.later (by decide)

end Exact

end BtClient
