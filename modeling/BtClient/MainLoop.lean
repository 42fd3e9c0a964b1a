import BtClient.Library.Spacing
import BtClient.LogSteps
import BtClient.TimeArithmetic

/-!
# The main loop

The loop of `main` drains the alerts, takes a snapshot when one is due, and sleeps until
the next snapshot or the deadline, though for at most the poll interval. It ends when a
signal has come in, or at the deadline if there is one, and then drains and captures once
more. What a round reads is arbitrary; how long the process takes and how late it is woken up
is bounded by `Delays`. The steady clock is read in nanoseconds; the sums and differences of
its readings are words, and exact in the loops that `Fits` describes.
-/

namespace BtClient

/-- The variables of `main` that its loop does not change. -/
structure MainLoop where
  processStart : Int
  runtimeSeconds : Int
  snapshotIntervalMs : Int
  runtime_nonneg : 0 ≤ runtimeSeconds
  runtime_le : runtimeSeconds ≤ 2147483647
  interval_pos : 0 < snapshotIntervalMs

/-- What a round reads: the stop flag, the alerts, the clock, what a snapshot would see,
and the clock again before the process goes to sleep. It begins at `begins`, a time that
nothing reads. -/
structure LoopRound (A : Type) where
  begins : Int
  stopRequested : Bool := false
  alerts : List (TimedAlert A) := []
  now : Int
  snapshot : SnapshotInput A
  beforeSleep : Int

/-- What a round does; it sleeps unless it breaks the loop. -/
structure RoundResult (A : Type) where
  now : Int
  snapshotTaken : Bool
  calls : List (RunStep A)
  nextSnapshot : Int
  sleepMs : Option Int

inductive LoopEnd where
  | signal
  | deadline
  deriving DecidableEq

/-- The rounds that the loop has run, and how it has ended if it has. -/
structure LoopResult (A : Type) where
  rounds : List (RoundResult A)
  ending : Option LoopEnd

namespace LoopResult

variable {A : Type}

def calls (result : LoopResult A) : List (RunStep A) :=
  result.rounds.flatMap RoundResult.calls

/-- The times of the snapshots that were taken in the loop. -/
def snapshotTimes (result : LoopResult A) : List Int :=
  (result.rounds.filter RoundResult.snapshotTaken).map RoundResult.now

/-- The clock as each round has read it. -/
def readings (result : LoopResult A) : List Int := result.rounds.map RoundResult.now

/-- How long each round has slept, in milliseconds. -/
def sleeps (result : LoopResult A) : List Int := result.rounds.filterMap RoundResult.sleepMs

/-- A round before the others. -/
def cons (round : RoundResult A) (result : LoopResult A) : LoopResult A :=
  { result with rounds := round :: result.rounds }

theorem snapshotTimes_cons (round : RoundResult A) (result : LoopResult A) :
    (result.cons round).snapshotTimes =
      (if round.snapshotTaken then [round.now] else []) ++ result.snapshotTimes := by
  cases h : round.snapshotTaken <;> simp [snapshotTimes, cons, h]

theorem readings_cons (round : RoundResult A) (result : LoopResult A) :
    (result.cons round).readings = round.now :: result.readings := rfl

theorem calls_cons (round : RoundResult A) (result : LoopResult A) :
    (result.cons round).calls = round.calls ++ result.calls := rfl

end LoopResult

namespace MainLoop

/-- `config.runtime_seconds == 0` -/
def runForever (l : MainLoop) : Bool := l.runtimeSeconds == 0

def deadline (l : MainLoop) : Int := word (l.processStart + l.runtimeSeconds * 1000000000)

/-- `std::min(100, config.snapshot_interval_ms)` -/
def pollIntervalMs (l : MainLoop) : Int := min 100 l.snapshotIntervalMs

def intervalNs (l : MainLoop) : Int := l.snapshotIntervalMs * 1000000

/-- `sleep_until`, when the next snapshot is due at `nextSnapshot`. -/
def sleepUntil (l : MainLoop) (nextSnapshot : Int) : Int :=
  if !l.runForever && decide (l.deadline < nextSnapshot) then l.deadline else nextSnapshot

/-- The milliseconds that the process sleeps: `duration_cast` rounds toward zero. -/
def sleepForMs (l : MainLoop) (sleepUntil now : Int) : Int :=
  let remaining := (word (sleepUntil - now)).tdiv 1000000
  let sleepFor := if l.pollIntervalMs < remaining then l.pollIntervalMs else remaining
  if 0 < sleepFor then sleepFor else 0

section Loop

variable {A : Type} (l : MainLoop)

/-- The body of the loop. -/
def round (nextSnapshot : Int) (r : LoopRound A) : RoundResult A :=
  let snapshotTaken := decide (nextSnapshot ≤ r.now)
  let nextSnapshot := if snapshotTaken then word (r.now + l.intervalNs) else nextSnapshot
  { now := r.now
    snapshotTaken := snapshotTaken
    calls := .drainAlerts r.alerts ::
      if snapshotTaken then [.captureSnapshots r.snapshot] else []
    nextSnapshot := nextSnapshot
    sleepMs :=
      if !l.runForever && decide (l.deadline ≤ r.now) then none
      else some (l.sleepForMs (l.sleepUntil nextSnapshot) r.beforeSleep) }

/-- The loop, as far as the rounds go. -/
def loop (nextSnapshot : Int) : List (LoopRound A) → LoopResult A
  | [] => ⟨[], none⟩
  | r :: rest =>
      if r.stopRequested then ⟨[], some .signal⟩
      else
        let result := l.round nextSnapshot r
        match result.sleepMs with
        | none => ⟨[result], some .deadline⟩
        | some _ => (loop result.nextSnapshot rest).cons result

/-- The loop from its start, where a snapshot is due at once. -/
def run (rounds : List (LoopRound A)) : LoopResult A := l.loop l.processStart rounds

/-- The calls of `main` in and after its loop. -/
def captureCalls (rounds : List (LoopRound A)) (alerts : List (TimedAlert A))
    (snapshot : SnapshotInput A) : List (RunStep A) :=
  (l.run rounds).calls ++ [.drainAlerts alerts, .captureSnapshots snapshot]

/-- `exit_reason`, for the stop flag as it is after the loop. -/
def exitReason (stopRequested : Bool) : String :=
  if stopRequested then "signal" else if l.runForever then "stopped" else "runtime_elapsed"

theorem intervalNs_pos : 0 < l.intervalNs := by
  have hpos := l.interval_pos
  unfold intervalNs
  omega

theorem sleepForMs_nonneg (sleepUntil now : Int) : 0 ≤ l.sleepForMs sleepUntil now := by
  simp only [sleepForMs]
  split_ifs <;> omega

/-- No sleep is longer than the poll interval. -/
theorem sleepForMs_le_pollIntervalMs (sleepUntil now : Int) :
    l.sleepForMs sleepUntil now ≤ l.pollIntervalMs := by
  have hpos : 0 < l.pollIntervalMs := lt_min (by decide) l.interval_pos
  simp only [sleepForMs]
  split_ifs <;> omega

/-- Between two words that are not negative, the sleep ends by the time it is meant for,
unless that time has passed already. -/
theorem sleepForMs_le {sleepUntil now : Int} (hnow : 0 ≤ now) (huntil : 0 ≤ sleepUntil)
    (hnow' : now ≤ 9223372036854775807) (huntil' : sleepUntil ≤ 9223372036854775807) :
    now + l.sleepForMs sleepUntil now * 1000000 ≤ max now sleepUntil := by
  have hword : word (sleepUntil - now) = sleepUntil - now := by
    rw [word_eq_self_iff]
    omega
  have hdiv : sleepUntil - now < 0 ∨
      (sleepUntil - now).tdiv 1000000 * 1000000 ≤ sleepUntil - now := by
    by_cases hneg : sleepUntil - now < 0
    · exact Or.inl hneg
    · rw [Int.tdiv_eq_ediv_of_nonneg (by omega)]
      omega
  have hnonpos : sleepUntil - now < 0 → (sleepUntil - now).tdiv 1000000 ≤ 0 := by
    intro hneg
    have hopposite : 0 ≤ (-(sleepUntil - now)).tdiv 1000000 :=
      Int.tdiv_nonneg (by omega) (by decide)
    rw [Int.neg_tdiv] at hopposite
    omega
  simp only [sleepForMs, hword]
  split_ifs <;> omega

theorem sleepMs_round {nextSnapshot ms : Int} {r : LoopRound A}
    (h : (l.round nextSnapshot r).sleepMs = some ms) :
    (l.runForever = false → r.now < l.deadline) ∧
      ms = l.sleepForMs (l.sleepUntil (l.round nextSnapshot r).nextSnapshot) r.beforeSleep := by
  change (if (!l.runForever && decide (l.deadline ≤ r.now)) = true then none else some _) =
    some ms at h
  split at h
  · cases h
  · next hgoes =>
      refine ⟨fun hforever => ?_, (Option.some.inj h).symm⟩
      simpa [hforever] using hgoes

theorem sleepMs_round_eq_none {nextSnapshot : Int} {r : LoopRound A} :
    (l.round nextSnapshot r).sleepMs = none ↔ l.runForever = false ∧ l.deadline ≤ r.now := by
  change (if (!l.runForever && decide (l.deadline ≤ r.now)) = true then none else some _) =
    none ↔ _
  split
  · next hbreaks => simpa using hbreaks
  · next hgoes => simpa using hgoes

theorem nextSnapshot_round_of_due {nextSnapshot : Int} {r : LoopRound A}
    (h : nextSnapshot ≤ r.now) :
    (l.round nextSnapshot r).nextSnapshot = word (r.now + l.intervalNs) := by
  simp [round, h]

theorem nextSnapshot_round_of_not_due {nextSnapshot : Int} {r : LoopRound A}
    (h : ¬ nextSnapshot ≤ r.now) : (l.round nextSnapshot r).nextSnapshot = nextSnapshot := by
  simp [round, h]

/-- A round before the rest of the loop: the loop is stopped, or it breaks, or it goes on
after a sleep. -/
theorem loop_cons_cases (nextSnapshot : Int) (r : LoopRound A) (rest : List (LoopRound A)) :
    (r.stopRequested = true ∧ l.loop nextSnapshot (r :: rest) = ⟨[], some .signal⟩) ∨
    (r.stopRequested = false ∧ (l.round nextSnapshot r).sleepMs = none ∧
      l.loop nextSnapshot (r :: rest) =
        LoopResult.cons (l.round nextSnapshot r) ⟨[], some .deadline⟩) ∨
    ∃ ms, r.stopRequested = false ∧ (l.round nextSnapshot r).sleepMs = some ms ∧
      l.loop nextSnapshot (r :: rest) =
        (l.loop (l.round nextSnapshot r).nextSnapshot rest).cons (l.round nextSnapshot r) := by
  cases hstop : r.stopRequested with
  | true => exact Or.inl ⟨rfl, by rw [loop, if_pos hstop]⟩
  | false =>
      refine Or.inr ?_
      have hloop : l.loop nextSnapshot (r :: rest) =
          match (l.round nextSnapshot r).sleepMs with
          | none => ⟨[l.round nextSnapshot r], some .deadline⟩
          | some _ =>
              (l.loop (l.round nextSnapshot r).nextSnapshot rest).cons
                (l.round nextSnapshot r) := by
        rw [loop, hstop, if_neg Bool.false_ne_true]
      cases hsleep : (l.round nextSnapshot r).sleepMs with
      | none => exact Or.inl ⟨rfl, rfl, by rw [hloop, hsleep]; rfl⟩
      | some ms => exact Or.inr ⟨ms, rfl, rfl, by rw [hloop, hsleep]⟩

/-- No sleep of the loop is longer than the poll interval. -/
theorem sleeps_loop {nextSnapshot ms : Int} {rounds : List (LoopRound A)}
    (h : ms ∈ (l.loop nextSnapshot rounds).sleeps) : 0 ≤ ms ∧ ms ≤ l.pollIntervalMs := by
  induction rounds generalizing nextSnapshot with
  | nil => cases h
  | cons r rest ih =>
      obtain ⟨-, hloop⟩ | ⟨-, hsleep, hloop⟩ | ⟨ms', -, hsleep, hloop⟩ :=
        l.loop_cons_cases nextSnapshot r rest
      · rw [hloop] at h
        cases h
      · rw [hloop] at h
        simp [LoopResult.sleeps, LoopResult.cons, hsleep] at h
      · rw [hloop, LoopResult.sleeps, LoopResult.cons, List.filterMap_cons_some hsleep,
          List.mem_cons] at h
        rcases h with rfl | hrest
        · rw [(l.sleepMs_round hsleep).2]
          exact ⟨l.sleepForMs_nonneg _ _, l.sleepForMs_le_pollIntervalMs _ _⟩
        · exact ih hrest

/-- The snapshots come in relation to the times at which they are due. -/
structure Cadence (R : Int → Int → Prop) (nextSnapshot : Int) (times : List Int) : Prop where
  first : ∀ t ∈ times.head?, R nextSnapshot t
  next : times.IsChain fun a b => R (a + l.intervalNs) b

theorem cadence_nil (R : Int → Int → Prop) (nextSnapshot : Int) :
    l.Cadence R nextSnapshot [] := ⟨by simp, List.isChain_nil⟩

end Loop

/-! ### Times that fit into a word -/

/-- A reading of the steady clock, which counts from the start of the machine, within a
hundred years. -/
def IsReading (ns : Int) : Prop := 0 ≤ ns ∧ ns ≤ hundredYearsNs

/-- The loop starts at a reading of the clock, and its interval is so short that no time of
the loop leaves its word. -/
structure Fits (l : MainLoop) : Prop where
  start : IsReading l.processStart
  interval : l.snapshotIntervalMs ≤ 6067612036854

/-- A time that a word holds and that is not negative. -/
def IsTime (ns : Int) : Prop := 0 ≤ ns ∧ ns ≤ 9223372036854775807

theorem IsReading.isTime {ns : Int} (h : IsReading ns) : IsTime ns := by
  rw [IsReading, hundredYearsNs] at h
  rw [IsTime]
  omega

section Fits

variable {A : Type} {l : MainLoop} (hfits : l.Fits)
include hfits

theorem Fits.deadline_eq : l.deadline = l.processStart + l.runtimeSeconds * 1000000000 := by
  obtain ⟨hlower, hupper⟩ := hfits.start
  have hnonneg := l.runtime_nonneg
  have hle := l.runtime_le
  rw [hundredYearsNs] at hupper
  rw [deadline, word_eq_self_iff]
  omega

theorem Fits.isTime_deadline : IsTime l.deadline := by
  obtain ⟨hlower, hupper⟩ := hfits.start
  have hnonneg := l.runtime_nonneg
  have hle := l.runtime_le
  rw [hundredYearsNs] at hupper
  rw [hfits.deadline_eq, IsTime]
  omega

theorem Fits.isTime_due {now : Int} (hnow : IsReading now) : IsTime (now + l.intervalNs) := by
  have hle := hfits.interval
  have hpos := l.intervalNs_pos
  rw [IsReading, hundredYearsNs] at hnow
  rw [IsTime]
  rw [intervalNs] at hpos ⊢
  omega

theorem Fits.nextSnapshot_round {nextSnapshot : Int} {r : LoopRound A}
    (hnow : IsReading r.now) (hdue : nextSnapshot ≤ r.now) :
    (l.round nextSnapshot r).nextSnapshot = r.now + l.intervalNs := by
  have htime := hfits.isTime_due hnow
  rw [IsTime] at htime
  rw [l.nextSnapshot_round_of_due hdue, word_eq_self_iff]
  omega

/-- The next snapshot stays a time, and no round is later than the next snapshot after it. -/
theorem Fits.round {nextSnapshot : Int} {r : LoopRound A} (hnow : IsReading r.now)
    (hnext : IsTime nextSnapshot) :
    IsTime (l.round nextSnapshot r).nextSnapshot ∧
      r.now ≤ (l.round nextSnapshot r).nextSnapshot := by
  have hpos := l.intervalNs_pos
  by_cases hdue : nextSnapshot ≤ r.now
  · rw [hfits.nextSnapshot_round hnow hdue]
    exact ⟨hfits.isTime_due hnow, by omega⟩
  · rw [l.nextSnapshot_round_of_not_due hdue]
    exact ⟨hnext, by omega⟩

theorem Cadence.round {R : Int → Int → Prop} {nextSnapshot : Int} {r : LoopRound A}
    {result : LoopResult A} (hnow : IsReading r.now)
    (hdue : nextSnapshot ≤ r.now → R nextSnapshot r.now)
    (h : l.Cadence R (l.round nextSnapshot r).nextSnapshot result.snapshotTimes) :
    l.Cadence R nextSnapshot (result.cons (l.round nextSnapshot r)).snapshotTimes := by
  rw [LoopResult.snapshotTimes_cons]
  by_cases hle : nextSnapshot ≤ r.now
  · have htaken : (l.round nextSnapshot r).snapshotTaken = true := decide_eq_true hle
    rw [hfits.nextSnapshot_round hnow hle] at h
    rw [if_pos htaken]
    refine ⟨fun t ht => ?_, List.isChain_cons.mpr ⟨h.first, h.next⟩⟩
    have hfirst : r.now = t := by simpa [MainLoop.round] using ht
    rw [← hfirst]
    exact hdue hle
  · have htaken : (l.round nextSnapshot r).snapshotTaken = false := decide_eq_false hle
    rw [l.nextSnapshot_round_of_not_due hle] at h
    rw [htaken]
    exact h

end Fits

section Arguments

variable (arguments : AcceptedArguments) (processStart : SteadyReading)

/-- The loop that `main` enters with accepted arguments. -/
def ofArguments : MainLoop where
  processStart := processStart.ns.toInt
  runtimeSeconds := arguments.runtimeSeconds.toInt
  snapshotIntervalMs := arguments.snapshotIntervalMs.toInt
  runtime_nonneg := arguments.times_pos.1
  runtime_le := Int.lt_add_one_iff.mp arguments.runtimeSeconds.toInt_lt
  interval_pos := arguments.times_pos.2

/-- Its deadline is the one that the words of the source give. -/
theorem deadline_ofArguments : (ofArguments arguments processStart).deadline =
    (BtClient.deadline processStart.ns arguments.runtimeSeconds).toInt :=
  (toInt_deadline processStart.ns arguments.runtimeSeconds).symm

/-- So is the next snapshot of a round that takes one. -/
theorem nextSnapshot_round_ofArguments {A : Type} {nextSnapshot : Int} {r : LoopRound A}
    {now : Int64} (hnow : r.now = now.toInt) (hdue : nextSnapshot ≤ r.now) :
    ((ofArguments arguments processStart).round nextSnapshot r).nextSnapshot =
      (BtClient.nextSnapshot now arguments.snapshotIntervalMs).toInt := by
  rw [nextSnapshot_round_of_due _ hdue, toInt_nextSnapshot, hnow]
  rfl

/-- The loop fits from the epoch of the clock on just when every time of its configuration
is exact. -/
theorem fits_ofArguments_iff (hstart : 0 ≤ processStart.ns.toInt) :
    (ofArguments arguments processStart).Fits ↔
      ∀ processStart now, TimesExact arguments processStart now := by
  rw [forall_timesExact_iff]
  exact ⟨Fits.interval, fun h => ⟨⟨hstart, processStart.upper⟩, h⟩⟩

end Arguments

/-! ### How late the process may be -/

/-- A round drains the alerts in at most `drain` nanoseconds, then takes at most `busy` until
it sleeps, and the process wakes up at most `late` nanoseconds after the end of its sleep. -/
structure Delays where
  drain : Int
  busy : Int
  late : Int
  drain_nonneg : 0 ≤ drain
  busy_nonneg : 0 ≤ busy
  late_nonneg : 0 ≤ late

/-- One whole round and one oversleeping. -/
def Delays.sum (d : Delays) : Int := d.drain + d.busy + d.late

theorem Delays.sum_nonneg (d : Delays) : 0 ≤ d.sum := by
  have hdrain := d.drain_nonneg
  have hbusy := d.busy_nonneg
  have hlate := d.late_nonneg
  unfold sum
  omega

/-- The times of a round when the process is to wake up at `wake`. -/
structure InTime {A : Type} (d : Delays) (wake : Int) (r : LoopRound A) : Prop where
  awake : wake ≤ r.begins ∧ r.begins ≤ wake + d.late
  drained : r.begins ≤ r.now ∧ r.now ≤ r.begins + d.drain
  finished : r.now ≤ r.beforeSleep ∧ r.beforeSleep ≤ r.now + d.busy
  now : IsReading r.now
  beforeSleep : IsReading r.beforeSleep

section Timing

variable {A : Type} (l : MainLoop) (d : Delays)

/-- The times of the rounds when the process is to wake up at `wake`: the clock is steady,
and a sleep is not cut short. -/
def Timely (wake nextSnapshot : Int) : List (LoopRound A) → Prop
  | [] => True
  | r :: rest => r.stopRequested = false →
      InTime d wake r ∧
      ∀ ms ∈ (l.round nextSnapshot r).sleepMs,
        Timely (r.beforeSleep + ms * 1000000) (l.round nextSnapshot r).nextSnapshot rest

/-- The process wakes up soon after the next snapshot is due, and soon after the deadline
if there is one. -/
structure WakesBy (wake nextSnapshot : Int) : Prop where
  isTime : IsTime nextSnapshot
  snapshot : wake ≤ nextSnapshot + d.busy
  deadline : l.runForever = false → wake ≤ l.deadline + d.busy

variable {l d}

theorem InTime.now_le {wake : Int} {r : LoopRound A} (h : InTime d wake r) :
    r.now ≤ wake + d.late + d.drain := by
  have hawake := h.awake.2
  have hdrained := h.drained.2
  omega

theorem InTime.le_now {wake : Int} {r : LoopRound A} (h : InTime d wake r) : wake ≤ r.now :=
  h.awake.1.trans h.drained.1

/-- The clock does not run backwards from round to round. -/
theorem isChain_readings {wake nextSnapshot : Int} {rounds : List (LoopRound A)}
    (h : l.Timely d wake nextSnapshot rounds) :
    (wake :: (l.loop nextSnapshot rounds).readings).IsChain (· ≤ ·) := by
  induction rounds generalizing wake nextSnapshot with
  | nil => exact List.isChain_singleton wake
  | cons r rest ih =>
      obtain ⟨-, hloop⟩ | ⟨hstop, -, hloop⟩ | ⟨ms, hstop, hsleep, hloop⟩ :=
        l.loop_cons_cases nextSnapshot r rest
      · rw [hloop]
        exact List.isChain_singleton wake
      · rw [hloop]
        exact List.isChain_pair.mpr (h hstop).1.le_now
      · obtain ⟨hround, hrest⟩ := h hstop
        have hbefore := hround.finished.1
        have hms : 0 ≤ ms := by
          rw [(l.sleepMs_round hsleep).2]
          exact l.sleepForMs_nonneg _ _
        rw [hloop]
        refine List.isChain_cons_cons.mpr ⟨hround.le_now, (ih (hrest ms hsleep)).imp_head ?_⟩
        intro t ht
        change r.now ≤ t
        omega

/-- A loop with a deadline that goes on has not used up its time. -/
theorem lt_deadline_of_running {wake nextSnapshot step : Int} {rounds : List (LoopRound A)}
    (h : l.Timely d wake nextSnapshot rounds) (hforever : l.runForever = false)
    (hstep : ∀ r ∈ rounds, r.begins + step ≤ r.beforeSleep)
    (hend : (l.loop nextSnapshot rounds).ending = none) (hne : rounds ≠ []) :
    wake + ((rounds.length : Int) - 1) * step < l.deadline := by
  induction rounds generalizing wake nextSnapshot with
  | nil => exact absurd rfl hne
  | cons r rest ih =>
      obtain ⟨-, hloop⟩ | ⟨-, -, hloop⟩ | ⟨ms, hstop, hsleep, hloop⟩ :=
        l.loop_cons_cases nextSnapshot r rest
      · rw [hloop] at hend
        cases hend
      · rw [hloop] at hend
        cases hend
      · obtain ⟨hround, hrest⟩ := h hstop
        obtain ⟨hgoes, hms⟩ := l.sleepMs_round hsleep
        have hnow := hgoes hforever
        have hwake := hround.le_now
        have hawake := hround.awake.1
        rw [List.forall_mem_cons] at hstep
        rw [hloop] at hend
        cases rest with
        | nil =>
            rw [List.length_singleton]
            push_cast
            omega
        | cons r' rest =>
            have hlater := ih (hrest ms hsleep) hstep.2 hend (List.cons_ne_nil _ _)
            have hnonneg := l.sleepForMs_nonneg
              (l.sleepUntil (l.round nextSnapshot r).nextSnapshot) r.beforeSleep
            rw [← hms] at hnonneg
            have hbefore := hstep.1
            simp only [List.length_cons] at hlater ⊢
            push_cast at hlater ⊢
            linarith

/-- Only the last round can find the deadline reached. -/
theorem lt_deadline_of_mem_dropLast {nextSnapshot t : Int} {rounds : List (LoopRound A)}
    (hforever : l.runForever = false)
    (ht : t ∈ (l.loop nextSnapshot rounds).readings.dropLast) : t < l.deadline := by
  induction rounds generalizing nextSnapshot with
  | nil => cases ht
  | cons r rest ih =>
      obtain ⟨-, hloop⟩ | ⟨-, -, hloop⟩ | ⟨ms, -, hsleep, hloop⟩ :=
        l.loop_cons_cases nextSnapshot r rest
      · rw [hloop] at ht
        cases ht
      · rw [hloop] at ht
        cases ht
      · rw [hloop, LoopResult.readings_cons] at ht
        cases hlater : (l.loop (l.round nextSnapshot r).nextSnapshot rest).readings with
        | nil =>
            rw [hlater] at ht
            cases ht
        | cons t' later =>
            rw [hlater, List.dropLast_cons_cons, List.mem_cons] at ht
            rcases ht with rfl | ht
            · exact (l.sleepMs_round hsleep).1 hforever
            · exact ih (by rw [hlater]; exact ht)

/-- A signal ends the loop only when a round has found the stop flag. -/
theorem stopRequested_of_signal {nextSnapshot : Int} {rounds : List (LoopRound A)}
    (h : (l.loop nextSnapshot rounds).ending = some .signal) :
    ∃ r ∈ rounds, r.stopRequested = true := by
  induction rounds generalizing nextSnapshot with
  | nil => cases h
  | cons r rest ih =>
      obtain ⟨hstop, -⟩ | ⟨-, -, hloop⟩ | ⟨ms, -, -, hloop⟩ :=
        l.loop_cons_cases nextSnapshot r rest
      · exact ⟨r, List.mem_cons_self, hstop⟩
      · rw [hloop] at h
        cases h
      · rw [hloop] at h
        obtain ⟨r', hr', hstop⟩ := ih h
        exact ⟨r', List.mem_cons_of_mem r hr', hstop⟩

/-- Every snapshot time is the reading of some round. -/
theorem mem_readings_of_mem_snapshotTimes {result : LoopResult A} {t : Int}
    (h : t ∈ result.snapshotTimes) : t ∈ result.readings := by
  obtain ⟨round, hround, rfl⟩ := List.mem_map.mp h
  exact List.mem_map_of_mem (List.mem_filter.mp hround).1

variable (hfits : l.Fits)
include hfits

theorem wakesBy_start : l.WakesBy d l.processStart l.processStart where
  isTime := hfits.start.isTime
  snapshot := by
    have hbusy := d.busy_nonneg
    omega
  deadline _ := by
    have hbusy := d.busy_nonneg
    have hruntime := l.runtime_nonneg
    rw [hfits.deadline_eq]
    omega

/-- The process sleeps neither beyond the next snapshot nor beyond the deadline. -/
theorem wakesBy_round {wake nextSnapshot ms : Int} {r : LoopRound A} (hround : InTime d wake r)
    (hnext : IsTime nextSnapshot) (hsleep : (l.round nextSnapshot r).sleepMs = some ms) :
    l.WakesBy d (r.beforeSleep + ms * 1000000) (l.round nextSnapshot r).nextSnapshot := by
  obtain ⟨hgoes, hms⟩ := l.sleepMs_round hsleep
  obtain ⟨htime, hnow⟩ := hfits.round hround.now hnext
  have hdeadline := hfits.isTime_deadline
  have hbusy := hround.finished.2
  have hnonneg := d.busy_nonneg
  have huntil : IsTime (l.sleepUntil (l.round nextSnapshot r).nextSnapshot) := by
    simp only [sleepUntil]
    split_ifs
    · exact hdeadline
    · exact htime
  obtain ⟨hreading, hreading'⟩ := hround.beforeSleep.isTime
  have hwake := l.sleepForMs_le hreading huntil.1 hreading' huntil.2
  rw [← hms] at hwake
  have hsnapshot : l.sleepUntil (l.round nextSnapshot r).nextSnapshot ≤
      (l.round nextSnapshot r).nextSnapshot := by
    simp only [sleepUntil]
    split_ifs with hbefore
    · simp only [Bool.and_eq_true, decide_eq_true_eq] at hbefore
      exact hbefore.2.le
    · exact le_rfl
  refine ⟨htime, by omega, fun hforever => ?_⟩
  have hdeadline : l.sleepUntil (l.round nextSnapshot r).nextSnapshot ≤ l.deadline := by
    simp only [sleepUntil, hforever]
    split_ifs with hbefore <;> simp_all
  have hlt := hgoes hforever
  omega

/-- Snapshots are at least the interval apart, and late by no more than the delays. -/
theorem cadence_loop {wake nextSnapshot : Int} {rounds : List (LoopRound A)}
    (h : l.Timely d wake nextSnapshot rounds) (hwake : l.WakesBy d wake nextSnapshot) :
    l.Cadence (fun due t => due ≤ t ∧ t ≤ due + d.sum) nextSnapshot
      (l.loop nextSnapshot rounds).snapshotTimes := by
  induction rounds generalizing wake nextSnapshot with
  | nil => exact l.cadence_nil _ _
  | cons r rest ih =>
      have hsnapshot := hwake.snapshot
      have hsum : d.sum = d.drain + d.busy + d.late := rfl
      obtain ⟨-, hloop⟩ | ⟨hstop, -, hloop⟩ | ⟨ms, hstop, hsleep, hloop⟩ :=
        l.loop_cons_cases nextSnapshot r rest
      · rw [hloop]
        exact l.cadence_nil _ _
      · obtain ⟨hround, -⟩ := h hstop
        have hnow := hround.now_le
        rw [hloop]
        exact Cadence.round hfits hround.now (fun hdue => ⟨hdue, by omega⟩) (l.cadence_nil _ _)
      · obtain ⟨hround, hrest⟩ := h hstop
        have hnow := hround.now_le
        rw [hloop]
        exact Cadence.round hfits hround.now (fun hdue => ⟨hdue, by omega⟩)
          (ih (hrest ms hsleep) (wakesBy_round hfits hround hwake.isTime hsleep))

/-- The loop ends at the deadline only at a reading of the clock that has reached it, and
then soon. -/
theorem lastReading_of_deadline {wake nextSnapshot : Int} {rounds : List (LoopRound A)}
    (h : l.Timely d wake nextSnapshot rounds) (hwake : l.WakesBy d wake nextSnapshot)
    (hend : (l.loop nextSnapshot rounds).ending = some .deadline) :
    l.runForever = false ∧ ∃ t, (l.loop nextSnapshot rounds).readings.getLast? = some t ∧
      l.deadline ≤ t ∧ t ≤ l.deadline + d.sum := by
  induction rounds generalizing wake nextSnapshot with
  | nil => cases hend
  | cons r rest ih =>
      obtain ⟨-, hloop⟩ | ⟨hstop, hsleep, hloop⟩ | ⟨ms, hstop, hsleep, hloop⟩ :=
        l.loop_cons_cases nextSnapshot r rest
      · rw [hloop] at hend
        cases hend
      · obtain ⟨hforever, hreached⟩ := l.sleepMs_round_eq_none.mp hsleep
        have hnow := (h hstop).1.now_le
        have hdeadline := hwake.deadline hforever
        have hsum : d.sum = d.drain + d.busy + d.late := rfl
        rw [hloop]
        exact ⟨hforever, r.now, rfl, hreached, by omega⟩
      · obtain ⟨hround, hrest⟩ := h hstop
        rw [hloop] at hend ⊢
        obtain ⟨hforever, t, ht, hbounds⟩ :=
          ih (hrest ms hsleep) (wakesBy_round hfits hround hwake.isTime hsleep) hend
        refine ⟨hforever, t, ?_, hbounds⟩
        rw [LoopResult.readings_cons, List.getLast?_cons, ht]
        rfl

/-- A round moves the next snapshot on by at most the interval and the delays for each
snapshot that it takes. -/
theorem nextSnapshot_round_le {wake nextSnapshot : Int} {r : LoopRound A}
    (hround : InTime d wake r) (hwake : l.WakesBy d wake nextSnapshot)
    (result : LoopResult A) :
    (l.round nextSnapshot r).nextSnapshot +
        result.snapshotTimes.length * (l.intervalNs + d.sum) ≤
      nextSnapshot + (result.cons (l.round nextSnapshot r)).snapshotTimes.length *
        (l.intervalNs + d.sum) := by
  have hsnapshot := hwake.snapshot
  have hnow := hround.now_le
  have hsum : d.sum = d.drain + d.busy + d.late := rfl
  rw [LoopResult.snapshotTimes_cons, List.length_append]
  by_cases hdue : nextSnapshot ≤ r.now
  · have htaken : (l.round nextSnapshot r).snapshotTaken = true := decide_eq_true hdue
    rw [if_pos htaken, hfits.nextSnapshot_round hround.now hdue, List.length_singleton]
    push_cast
    rw [add_mul, one_mul]
    omega
  · have htaken : (l.round nextSnapshot r).snapshotTaken = false := decide_eq_false hdue
    rw [htaken, l.nextSnapshot_round_of_not_due hdue]
    simp

/-- The snapshots account for the time that the loop has run. -/
theorem lastReading_le {wake nextSnapshot t : Int} {rounds : List (LoopRound A)}
    (h : l.Timely d wake nextSnapshot rounds) (hwake : l.WakesBy d wake nextSnapshot)
    (ht : (l.loop nextSnapshot rounds).readings.getLast? = some t) :
    t ≤ nextSnapshot + d.sum +
      (l.loop nextSnapshot rounds).snapshotTimes.length * (l.intervalNs + d.sum) := by
  have hinterval := l.intervalNs_pos
  have hnonneg := d.sum_nonneg
  have hsum : d.sum = d.drain + d.busy + d.late := rfl
  induction rounds generalizing wake nextSnapshot with
  | nil => cases ht
  | cons r rest ih =>
      have hsnapshot := hwake.snapshot
      have hfirst : ∀ result : LoopResult A, InTime d wake r →
          r.now ≤ nextSnapshot + d.sum +
            (result.cons (l.round nextSnapshot r)).snapshotTimes.length *
              (l.intervalNs + d.sum) := by
        intro result hround
        have hnow := hround.now_le
        have hcount : 0 ≤ ((result.cons (l.round nextSnapshot r)).snapshotTimes.length : Int) *
            (l.intervalNs + d.sum) := by positivity
        omega
      obtain ⟨-, hloop⟩ | ⟨hstop, -, hloop⟩ | ⟨ms, hstop, hsleep, hloop⟩ :=
        l.loop_cons_cases nextSnapshot r rest
      · rw [hloop] at ht
        cases ht
      · rw [hloop] at ht ⊢
        cases ht
        exact hfirst _ (h hstop).1
      · obtain ⟨hround, hrest⟩ := h hstop
        have hmoves := nextSnapshot_round_le hfits hround hwake
          (l.loop (l.round nextSnapshot r).nextSnapshot rest)
        rw [hloop, LoopResult.readings_cons, List.getLast?_cons] at ht
        rw [hloop]
        cases hlast : (l.loop (l.round nextSnapshot r).nextSnapshot rest).readings.getLast? with
        | none =>
            rw [hlast] at ht
            cases ht
            exact hfirst _ hround
        | some t' =>
            rw [hlast] at ht
            cases ht
            have hlater := ih (hrest ms hsleep)
              (wakesBy_round hfits hround hwake.isTime hsleep) hlast
            omega

end Timing

/-! ### A run of one second -/

def sampleLoop : MainLoop where
  processStart := 0
  runtimeSeconds := 1
  snapshotIntervalMs := 1000
  runtime_nonneg := by decide
  runtime_le := by decide
  interval_pos := by decide

def sampleDelays : Delays where
  drain := 500000000
  busy := 500000000
  late := 0
  drain_nonneg := by decide
  busy_nonneg := by decide
  late_nonneg := by decide

def idleSnapshot : SnapshotInput AddressV4 where
  ts := {}
  status := {}
  isListening := true
  listenPort := 51413
  sessionWriteTs := {}
  torrentWriteTs := {}
  peers := []

/-- Two rounds that take a second each, half of it for the alerts. -/
def sampleRounds : List (LoopRound AddressV4) :=
  [{ begins := 0, now := 500000000, snapshot := idleSnapshot, beforeSleep := 1000000000 },
    { begins := 1000000000, now := 1500000000, snapshot := idleSnapshot,
      beforeSleep := 2000000000 }]

theorem fits_sampleLoop : sampleLoop.Fits := ⟨⟨by decide, by decide⟩, by decide⟩

theorem timely_sampleRounds : sampleLoop.Timely sampleDelays 0 0 sampleRounds := by
  refine fun _ => ⟨⟨by decide, by decide, by decide, ⟨by decide, by decide⟩,
    ⟨by decide, by decide⟩⟩, fun ms hms => ?_⟩
  obtain rfl : 0 = ms := Option.some.inj hms
  refine fun _ => ⟨⟨by decide, by decide, by decide, ⟨by decide, by decide⟩,
    ⟨by decide, by decide⟩⟩, fun ms hms => ?_⟩
  cases hms

/-! ### Whole runs of the loop -/

section Run

variable {A : Type} (l : MainLoop) (d : Delays)

/-- A snapshot is taken at once, and then one after each interval, late by no more than the
delays, and no sleep is longer than the poll interval. -/
theorem cadence_run (hfits : l.Fits) (rounds : List (LoopRound A))
    (h : l.Timely d l.processStart l.processStart rounds) :
    l.Cadence (fun due t => due ≤ t ∧ t ≤ due + d.sum) l.processStart
        (l.run rounds).snapshotTimes ∧
      ∀ ms ∈ (l.run rounds).sleeps, 0 ≤ ms ∧ ms ≤ l.pollIntervalMs :=
  ⟨cadence_loop hfits h (wakesBy_start hfits), fun _ hms => l.sleeps_loop hms⟩

theorem cadence_run_sampleRounds :
    sampleLoop.Cadence (fun due t => due ≤ t ∧ t ≤ due + 1000000000) 0
        (sampleLoop.run sampleRounds).snapshotTimes ∧
      ∀ ms ∈ (sampleLoop.run sampleRounds).sleeps, 0 ≤ ms ∧ ms ≤ 100 :=
  sampleLoop.cadence_run sampleDelays fits_sampleLoop sampleRounds timely_sampleRounds

/-- The loop has ended at its deadline: at the first reading that has reached it, and
soon. -/
structure EndsInTime (result : LoopResult A) : Prop where
  ending : result.ending = some .deadline
  before : ∀ t ∈ result.readings.dropLast, t < l.deadline
  reading : ∃ t, result.readings.getLast? = some t ∧ l.deadline ≤ t ∧ t ≤ l.deadline + d.sum

/-- When the runtime is limited and every round takes at least `step` nanoseconds, the
rounds that fit into the runtime are all: by then the loop has found the stop flag, or it
has ended at its deadline. The flag is never reset, so the exit reason says which. -/
theorem run_ends (hfits : l.Fits) {rounds : List (LoopRound A)} {step : Int}
    {stopRequested : Bool} (h : l.Timely d l.processStart l.processStart rounds)
    (htimed : l.runtimeSeconds ≠ 0) (hpos : 0 < step)
    (hstep : ∀ r ∈ rounds, r.begins + step ≤ r.beforeSleep)
    (hlong : l.runtimeSeconds * 1000000000 ≤ ((rounds.length : Int) - 1) * step)
    (hflag : ∀ r ∈ rounds, r.stopRequested = true → stopRequested = true) :
    ((l.run rounds).ending = some .signal ∧ l.exitReason stopRequested = "signal") ∨
      (l.EndsInTime d (l.run rounds) ∧
        l.exitReason stopRequested = if stopRequested then "signal" else "runtime_elapsed") := by
  have hforever : l.runForever = false := by simpa [runForever] using htimed
  cases hend : (l.run rounds).ending with
  | none =>
      have hne : rounds ≠ [] := by
        rintro rfl
        have hruntime := l.runtime_nonneg
        rw [List.length_nil] at hlong
        omega
      have hrunning := lt_deadline_of_running h hforever hstep hend hne
      rw [hfits.deadline_eq] at hrunning
      omega
  | some ending =>
      cases ending with
      | signal =>
          obtain ⟨r, hr, hstop⟩ := stopRequested_of_signal hend
          exact Or.inl ⟨rfl, by rw [exitReason, hflag r hr hstop, if_pos rfl]⟩
      | deadline =>
          obtain ⟨-, hreading⟩ := lastReading_of_deadline hfits h (wakesBy_start hfits) hend
          refine Or.inr ⟨⟨hend, fun t ht => lt_deadline_of_mem_dropLast hforever ht, hreading⟩, ?_⟩
          rw [exitReason, hforever, if_neg Bool.false_ne_true]

theorem run_ends_sampleRounds :
    ((sampleLoop.run sampleRounds).ending = some .signal ∧
        sampleLoop.exitReason false = "signal") ∨
      (sampleLoop.EndsInTime sampleDelays (sampleLoop.run sampleRounds) ∧
        sampleLoop.exitReason false = "runtime_elapsed") :=
  sampleLoop.run_ends sampleDelays fits_sampleLoop timely_sampleRounds (by decide)
    (by decide : (0 : Int) < 1000000000) (by simp [sampleRounds]) (by decide)
    (by simp [sampleRounds])

/-- The snapshots of a run that ends at its deadline: between them they make up for its
runtime, and no more of them fit into it. -/
theorem length_snapshotTimes (hfits : l.Fits) {rounds : List (LoopRound A)}
    (h : l.Timely d l.processStart l.processStart rounds)
    (hend : (l.run rounds).ending = some .deadline) :
    (((l.run rounds).snapshotTimes.length : Int) - 1) * l.intervalNs ≤
        l.runtimeSeconds * 1000000000 + d.sum ∧
      l.runtimeSeconds * 1000000000 ≤
        d.sum + (l.run rounds).snapshotTimes.length * (l.intervalNs + d.sum) := by
  obtain ⟨-, t, ht, hlower, hupper⟩ :=
    lastReading_of_deadline hfits h (wakesBy_start hfits) hend
  have hreading := lastReading_le hfits h (wakesBy_start hfits) ht
  obtain ⟨init, hinit⟩ := List.getLast?_eq_some_iff.mp ht
  have hsorted := (isChain_readings h).pairwise
  rw [hinit, List.pairwise_cons] at hsorted
  have hstart : l.processStart ≤ t := hsorted.1 t (by simp)
  have hlast : ∀ s ∈ (l.run rounds).snapshotTimes, s ≤ t := by
    intro s hs
    have hmem := mem_readings_of_mem_snapshotTimes hs
    rw [run, hinit] at hmem
    rcases List.mem_append.mp hmem with hbefore | hself
    · exact (List.pairwise_append.mp hsorted.2).2.2 s hbefore t (by simp)
    · exact (List.mem_singleton.mp hself).le
  have hcadence := cadence_loop hfits h (wakesBy_start hfits)
  have hspan := MaximalRuns.nsmul_le_of_isChain (hcadence.next.imp fun _ _ hab => hab.1)
    (fun s hs => (hcadence.first s hs).1) (fun s hs => hlast s (List.mem_of_getLast? hs)) hstart
  rw [nsmul_eq_mul] at hspan
  have hcount : (((l.run rounds).snapshotTimes.length : Int) - 1) * l.intervalNs ≤
      (((l.run rounds).snapshotTimes.length - 1 : ℕ) : Int) * l.intervalNs :=
    mul_le_mul_of_nonneg_right (by omega) l.intervalNs_pos.le
  rw [hfits.deadline_eq] at hlower hupper
  refine ⟨hcount.trans (hspan.trans (by omega)), ?_⟩
  change _ ≤ _ + ((l.loop l.processStart rounds).snapshotTimes.length : Int) * _
  omega

end Run

/-! ### The snapshots in the log -/

section Log

variable {A : Type} (l : MainLoop)

theorem count_eventTypes_drainAlerts (batch : List (TimedAlert A)) :
    (RunStep.drainAlerts batch).eventTypes.count "session_snapshot" = 0 := by
  rw [List.count_eq_zero, RunStep.eventTypes, List.mem_flatMap]
  rintro ⟨timed, -, htype⟩
  exact timed.alert.body.eventType_ne_snapshot.1 (Option.mem_toList.mp htype)

theorem count_eventTypes_captureSnapshots (input : SnapshotInput A) :
    (RunStep.captureSnapshots input).eventTypes.count "session_snapshot" = 1 := by
  simp [RunStep.eventTypes, SnapshotInput.eventTypes, List.count_eq_zero]

theorem count_eventTypes_round (nextSnapshot : Int) (r : LoopRound A) :
    ((l.round nextSnapshot r).calls.flatMap RunStep.eventTypes).count "session_snapshot" =
      if (l.round nextSnapshot r).snapshotTaken then 1 else 0 := by
  have hcalls : (l.round nextSnapshot r).calls = .drainAlerts r.alerts ::
      if (l.round nextSnapshot r).snapshotTaken then [.captureSnapshots r.snapshot] else [] := rfl
  rw [hcalls, List.flatMap_cons, List.count_append, count_eventTypes_drainAlerts]
  split
  · rw [List.flatMap_singleton, count_eventTypes_captureSnapshots]
  · rfl

/-- One line for each snapshot that the loop takes. -/
theorem count_eventTypes_loop (nextSnapshot : Int) (rounds : List (LoopRound A)) :
    ((l.loop nextSnapshot rounds).calls.flatMap RunStep.eventTypes).count "session_snapshot" =
      (l.loop nextSnapshot rounds).snapshotTimes.length := by
  have hcons : ∀ (nextSnapshot : Int) (r : LoopRound A) (result : LoopResult A),
      (result.calls.flatMap RunStep.eventTypes).count "session_snapshot" =
        result.snapshotTimes.length →
      ((result.cons (l.round nextSnapshot r)).calls.flatMap RunStep.eventTypes).count
          "session_snapshot" = (result.cons (l.round nextSnapshot r)).snapshotTimes.length := by
    intro nextSnapshot r result hresult
    rw [LoopResult.calls_cons, List.flatMap_append, List.count_append, count_eventTypes_round,
      hresult, LoopResult.snapshotTimes_cons, List.length_append]
    split <;> rfl
  induction rounds generalizing nextSnapshot with
  | nil => rfl
  | cons r rest ih =>
      obtain ⟨-, hloop⟩ | ⟨-, -, hloop⟩ | ⟨ms, -, -, hloop⟩ :=
        l.loop_cons_cases nextSnapshot r rest
      · rw [hloop]
        rfl
      · rw [hloop]
        exact hcons _ _ _ rfl
      · rw [hloop]
        exact hcons _ _ _ (ih _)

variable [Address A]

/-- The log has one line for each snapshot of the loop and one for the snapshot after it. -/
theorem length_snapshotLines {rounds : List (LoopRound A)} {alerts : List (TimedAlert A)}
    {snapshot : SnapshotInput A} {r r' : Recording}
    (hr : r.run (l.captureCalls rounds alerts snapshot) = .ok r') :
    (linesOfType "session_snapshot" r'.writer.lines).length =
      (linesOfType "session_snapshot" r.writer.lines).length +
        ((l.run rounds).snapshotTimes.length + 1) := by
  have htypes := loggedTypes_run hr
  have hinjective : Function.Injective (some : String → Option String) :=
    Option.some_injective String
  rw [length_linesOfType, length_linesOfType]
  change r'.loggedTypes.count _ = r.loggedTypes.count _ + _
  rw [htypes, List.count_append, List.count_map_of_injective _ _ hinjective, captureCalls,
    List.flatMap_append, List.count_append, run, count_eventTypes_loop, List.flatMap_cons,
    List.flatMap_singleton, List.count_append, count_eventTypes_drainAlerts,
    count_eventTypes_captureSnapshots, Nat.zero_add]

/-- A capture of limited runtime logs about one snapshot for each interval. -/
theorem length_snapshotLines_bounds (d : Delays) (hfits : l.Fits) {rounds : List (LoopRound A)}
    {alerts : List (TimedAlert A)} {snapshot : SnapshotInput A}
    {runId sessionId infoHash : ByteString} {start : TimestampPair} {config : RuntimeConfig}
    {r : Recording} (h : l.Timely d l.processStart l.processStart rounds)
    (hend : (l.run rounds).ending = some .deadline)
    (hr : (Recording.start runId sessionId start config infoHash).run
      (l.captureCalls rounds alerts snapshot) = .ok r) :
    (((linesOfType "session_snapshot" r.writer.lines).length : Int) - 2) * l.intervalNs ≤
        l.runtimeSeconds * 1000000000 + d.sum ∧
      l.runtimeSeconds * 1000000000 ≤ d.sum +
        (((linesOfType "session_snapshot" r.writer.lines).length : Int) - 1) *
          (l.intervalNs + d.sum) := by
  have hlines := l.length_snapshotLines hr
  have hnone : (linesOfType "session_snapshot"
      (Recording.start runId sessionId start config infoHash).writer.lines).length = 0 := rfl
  rw [hnone, Nat.zero_add] at hlines
  obtain ⟨hupper, hlower⟩ := l.length_snapshotTimes d hfits h hend
  rw [hlines]
  push_cast
  rw [add_sub_cancel_right]
  refine ⟨le_trans (le_of_eq ?_) hupper, hlower⟩
  ring

theorem length_snapshotLines_sampleRounds :
    ∃ r, (Recording.start "run" "session" ⟨"2024-01-01T00:00:00Z", 1⟩ {} []).run
        (sampleLoop.captureCalls sampleRounds [] idleSnapshot) = .ok r ∧
      (((linesOfType "session_snapshot" r.writer.lines).length : Int) - 2) * 1000000000 ≤
          1 * 1000000000 + 1000000000 ∧
        1 * 1000000000 ≤ 1000000000 +
          (((linesOfType "session_snapshot" r.writer.lines).length : Int) - 1) *
            (1000000000 + 1000000000) := by
  obtain ⟨r, hr⟩ := exists_of_isOk
    (x := (Recording.start "run" "session" ⟨"2024-01-01T00:00:00Z", 1⟩ {} []).run
      (sampleLoop.captureCalls sampleRounds [] idleSnapshot)) (by decide +kernel)
  exact ⟨r, hr, sampleLoop.length_snapshotLines_bounds sampleDelays fits_sampleLoop
    timely_sampleRounds rfl hr⟩

end Log

end MainLoop

end BtClient
