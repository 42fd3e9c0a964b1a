import BtClient.RecordTrace
import BtClient.Library.MaximalRuns

/-!
# Bursts of incoming requests

A record notices a burst while it goes on and measures it when it is over: when a later
request comes too late to belong to it, when the connection ends or when the session is
finalized. The measurements are those of the maximal runs of all request times of the
connection in which neighbours are at most a burst gap apart.
-/

namespace BtClient

open MaximalRuns

/-- The second of two successive requests goes on with the burst of the first. -/
def SameBurst (t t' : Int) : Prop := nsToMs (t' - t) ≤ incomingRequestBurstGapMs

/-- The time from the first to the last request of a burst. -/
def burstDurationMs (run : List Int) : ℚ := nsToMs (run.getLastD 0 - run.headD 0)

/-- The time from the last request of a burst to the first of the next. -/
def burstIdleGapMs (run next : List Int) : ℚ := nsToMs (next.headD 0 - run.getLastD 0)

theorem nsToMs_sub (a b : Int) : nsToMs (a - b) = nsToMs a - nsToMs b := by
  simp only [nsToMs, Int.cast_sub, sub_div]

theorem burstDurationMs_eq_extent : burstDurationMs = extent nsToMs 0 := by
  funext run
  rw [burstDurationMs, nsToMs_sub, extent]

theorem burstIdleGapMs_eq_gap : burstIdleGapMs = gap nsToMs 0 := by
  funext run next
  rw [burstIdleGapMs, nsToMs_sub, gap]

/-- A request at the end of a burst leaves the gap before the burst as it is. -/
theorem burstIdleGapMs_concat (run : List Int) {next : List Int} (hnext : next ≠ []) (t : Int) :
    burstIdleGapMs run (next ++ [t]) = burstIdleGapMs run next := by
  obtain ⟨a, next, rfl⟩ := List.exists_cons_of_ne_nil hnext
  rfl

theorem adjacent_burstIdleGapMs_extend (done : List (List Int)) {run : List Int}
    (hrun : run ≠ []) (t : Int) :
    adjacent burstIdleGapMs (done ++ [run ++ [t]]) =
      adjacent burstIdleGapMs (done ++ [run]) := by
  simp only [adjacent_concat, burstIdleGapMs_concat _ hrun]

/-! ### The bursts of one record -/

namespace BurstState

/-- The samples are those of the bursts `runs`. -/
structure Records (runs : List (List Int)) (b : BurstState) : Prop where
  inactive : b.active = false
  sizes : b.sizeSamples = runs.map fun run => (run.length : ℚ)
  durations : b.durationMsSamples = runs.map burstDurationMs
  idleGaps : b.idleGapMsSamples = adjacent burstIdleGapMs runs

/-- The bursts `done` are over and the burst `run` is open. -/
structure Building (done : List (List Int)) (run : List Int) (b : BurstState) : Prop where
  active : b.active = true
  sizes : b.sizeSamples = done.map fun run => (run.length : ℚ)
  durations : b.durationMsSamples = done.map burstDurationMs
  idleGaps : b.idleGapMsSamples = adjacent burstIdleGapMs (done ++ [run])
  size : b.size = run.length
  start : run.head? = some b.startMonoNs
  last : run.getLast? = some b.lastMonoNs

/-- What is known about the bursts while requests at the given times have come in. -/
inductive Tracks (times : List Int) (b : BurstState) : Prop where
  | idle (htimes : times = []) (h : b.Records [])
  | building (done : List (List Int)) (run : List Int)
      (hruns : IsMaximalRuns SameBurst times (done ++ [run])) (h : b.Building done run)

theorem Building.ne_nil {done : List (List Int)} {run : List Int} {b : BurstState}
    (h : b.Building done run) : run ≠ [] := by
  rintro rfl
  cases h.start

/-- The end of a burst measures it. -/
theorem Building.flush {done : List (List Int)} {run : List Int} {b : BurstState}
    (h : b.Building done run) : b.flush.Records (done ++ [run]) := by
  have hduration : nsToMs (b.lastMonoNs - b.startMonoNs) = burstDurationMs run := by
    rw [burstDurationMs, List.getLastD_eq_getLast?, List.headD_eq_head?_getD, h.last, h.start]
    rfl
  rw [BurstState.flush, if_pos h.active]
  exact {
    inactive := rfl
    sizes := by simp [h.sizes, h.size]
    durations := by simp [h.durations, hduration]
    idleGaps := h.idleGaps }

theorem Records.flush_eq {runs : List (List Int)} {b : BurstState} (h : b.Records runs) :
    b.flush = b := by
  rw [BurstState.flush, h.inactive]
  rfl

theorem Records.start {runs : List (List Int)} {b : BurstState} (h : b.Records runs)
    {gaps : List ℚ} (t : Int) (hgaps : gaps = adjacent burstIdleGapMs (runs ++ [[t]])) :
    ({ b with idleGapMsSamples := gaps }.start t).Building runs [t] where
  active := rfl
  sizes := h.sizes
  durations := h.durations
  idleGaps := hgaps
  size := rfl
  start := rfl
  last := rfl

theorem Building.extend {done : List (List Int)} {run : List Int} {b : BurstState}
    (h : b.Building done run) (t : Int) :
    ({ b with size := b.size + 1, lastMonoNs := t } : BurstState).Building done (run ++ [t]) where
  active := h.active
  sizes := h.sizes
  durations := h.durations
  idleGaps := by rw [adjacent_burstIdleGapMs_extend done h.ne_nil, h.idleGaps]
  size := by simp [h.size]
  start := by rw [List.head?_append_of_ne_nil _ h.ne_nil, h.start]
  last := by simp

/-- One more request. -/
theorem Tracks.note {times : List Int} {b : BurstState} (h : b.Tracks times) (t : Int) :
    (b.note t).Tracks (times ++ [t]) := by
  cases h with
  | idle htimes h =>
      subst htimes
      rw [BurstState.note, h.inactive]
      exact .building [] [t] (IsMaximalRuns.nil.start (by simp))
        (h.start t h.idleGaps)
  | building done run hruns h =>
      have hlast : ∀ b' ∈ run.getLast?, b' = b.lastMonoNs := by simp [h.last]
      rw [BurstState.note, h.active]
      simp only [Bool.not_true, Bool.false_eq_true, if_false]
      split
      · next hgap =>
          have hextend := h.extend t
          rw [h.active] at hextend
          refine .building done (run ++ [t]) (hruns.extend ?_) hextend
          intro b' hb'
          rw [hlast b' hb']
          exact hgap
      · next hgap =>
          refine .building (done ++ [run]) [t] (hruns.start ?_) (h.flush.start t ?_)
          · intro run' hrun' b' hb'
            obtain rfl : run = run' := by simpa using hrun'
            rw [hlast b' hb']
            exact hgap
          · have hnext : burstIdleGapMs run [t] = nsToMs (t - b.lastMonoNs) := by
              rw [burstIdleGapMs, List.getLastD_eq_getLast?, h.last]
              rfl
            rw [h.flush.idleGaps, adjacent_concat burstIdleGapMs (done ++ [run]),
              List.getLast?_concat, Option.map_some, hnext]
            rfl

/-- The samples after the end of the last burst. -/
theorem Tracks.flush {times : List Int} {b : BurstState} (h : b.Tracks times) :
    ∃ runs, IsMaximalRuns SameBurst times runs ∧ b.flush.Records runs := by
  cases h with
  | idle htimes h =>
      subst htimes
      refine ⟨[], IsMaximalRuns.nil, ?_⟩
      rw [h.flush_eq]
      exact h
  | building done run hruns h => exact ⟨done ++ [run], hruns, h.flush⟩

end BurstState

/-! ### The bursts of a trace -/

namespace RecordOp

variable {A : Type}

/-- The time of an incoming request. -/
def requestTime? : RecordOp A → Option Int
  | .call ts (.incomingRequest _) => some ts.monoNs
  | _ => none

/-- The operation ends the open burst. -/
def flushes : RecordOp A → Bool
  | .disconnect _ | .finalize _ => true
  | _ => false

theorem burst_flow_of_flushes {op : RecordOp A} (h : op.flushes = true) (f : RecordFlow) :
    (op.flow f).burst = f.burst.flush := by
  cases op with
  | disconnect ts => rfl
  | finalize sessionEnd =>
      have htwice : f.burst.flush.flush = f.burst.flush := by
        unfold BurstState.flush
        split <;> simp_all
      simp only [flow, RecordFlow.finalize]
      split
      · exact htwice
      · rfl
  | _ => cases h

theorem burst_flow_of_not_flushes {op : RecordOp A} (h : op.flushes = false) (f : RecordFlow) :
    (op.flow f).burst = op.requestTime?.elim f.burst fun t => f.burst.note t := by
  cases op with
  | call ts c => cases c <;> rfl
  | disconnect ts => cases h
  | finalize sessionEnd => cases h
  | _ => rfl

theorem pacing_flow (op : RecordOp A) (f : RecordFlow) :
    (op.flow f).pacing = op.requestTime?.elim f.pacing fun t => f.pacing.note t := by
  cases op with
  | call ts c => cases c <;> rfl
  | finalize sessionEnd =>
      simp only [flow, RecordFlow.finalize]
      split <;> rfl
  | _ => rfl

theorem kind?_eq_incomingRequest_iff (op : RecordOp A) :
    op.kind? = some .incomingRequest ↔ op.requestTime?.isSome := by
  cases op with
  | call ts c => cases c <;> simp [kind?, PeerCall.kind, requestTime?]
  | _ => simp [kind?, requestTime?]

end RecordOp

namespace PeerStats

variable {A : Type} {p : PeerStats} {times : List Int}

theorem gapSample_eq (last : Option Int) (monoNs : Int) :
    gapSample last monoNs = (last.map fun lastNs => nsToMs (monoNs - lastNs)).toList := by
  cases last <;> rfl

theorem tracks_run (h : p.flow.burst.Tracks times) {ops : List (RecordOp A)}
    (hops : ∀ op ∈ ops, op.flushes = false) :
    (p.run ops).flow.burst.Tracks (times ++ ops.filterMap RecordOp.requestTime?) := by
  induction ops generalizing p times with
  | nil =>
      rw [List.filterMap_nil, List.append_nil]
      exact h
  | cons op ops ih =>
      rw [List.forall_mem_cons] at hops
      have hstep := RecordOp.burst_flow_of_not_flushes hops.1 p.flow
      rw [← RecordOp.flow_apply] at hstep
      have hrun : p.run (op :: ops) = (op.apply p).run ops := rfl
      rw [hrun]
      cases htime : op.requestTime? with
      | none =>
          rw [htime] at hstep
          rw [List.filterMap_cons_none htime]
          apply ih _ hops.2
          rw [hstep]
          exact h
      | some t =>
          rw [htime] at hstep
          rw [List.filterMap_cons_some htime, List.append_cons]
          apply ih _ hops.2
          rw [hstep]
          exact h.note t

/-- The requests at the given times have been counted, and the gaps between them are
sampled. -/
structure Paced (times : List Int) (p : PeerStats) : Prop where
  received : p.incomingRequestsReceived = times.length
  gaps : p.incomingRequestGapMsSamples = adjacent (fun t t' => nsToMs (t' - t)) times
  last : p.lastIncomingRequestMonoNs = times.getLast?

theorem paced_run (h : p.Paced times) (ops : List (RecordOp A)) :
    (p.run ops).Paced (times ++ ops.filterMap RecordOp.requestTime?) := by
  induction ops generalizing p times with
  | nil =>
      rw [List.filterMap_nil, List.append_nil]
      exact h
  | cons op ops ih =>
      have hpacing := congrArg RecordFlow.pacing (op.flow_apply p)
      rw [op.pacing_flow] at hpacing
      have hgaps := congrArg PacingState.gapMsSamples hpacing
      have hlast := congrArg PacingState.lastMonoNs hpacing
      have hreceived := op.counter_apply p .incomingRequest
      simp only [op.kind?_eq_incomingRequest_iff] at hreceived
      have hrun : p.run (op :: ops) = (op.apply p).run ops := rfl
      rw [hrun]
      cases htime : op.requestTime? with
      | none =>
          rw [htime] at hgaps hlast hreceived
          rw [List.filterMap_cons_none htime]
          exact ih ⟨hreceived.trans h.received, hgaps.trans h.gaps, hlast.trans h.last⟩
      | some t =>
          rw [htime] at hgaps hlast hreceived
          rw [List.filterMap_cons_some htime, List.append_cons]
          refine ih ⟨?_, hgaps.trans ?_, hlast.trans ?_⟩
          · rw [List.length_append, ← h.received]
            exact hreceived
          · rw [adjacent_concat, ← h.gaps, ← h.last, ← gapSample_eq]
            rfl
          · simp [PacingState.note]

end PeerStats

namespace RecordTrace

variable {A : Type}

/-- The times of the incoming requests of the connection. -/
def requestTimes (t : RecordTrace A) : List Int := t.ops.filterMap RecordOp.requestTime?

theorem requestTimes_extend (ops : List (RecordOp A)) (t : RecordTrace A) :
    (t.extend ops).requestTimes = t.requestTimes ++ ops.filterMap RecordOp.requestTime? :=
  List.filterMap_append

/-- All bursts of the trace are measured. -/
def Segmented (t : RecordTrace A) : Prop :=
  ∃ runs, IsMaximalRuns SameBurst t.requestTimes runs ∧ t.replay.flow.burst.Records runs

theorem Segmented.extend {t : RecordTrace A} (h : t.Segmented) {op : RecordOp A}
    (hop : op.requestTime? = none) : (t.extend [op]).Segmented := by
  obtain ⟨runs, hruns, hrecords⟩ := h
  have htimes : (t.extend [op]).requestTimes = t.requestTimes := by
    simp [requestTimes_extend, hop]
  have hburst : (t.extend [op]).replay.flow.burst = t.replay.flow.burst := by
    have hreplay : (t.extend [op]).replay = op.apply t.replay := t.replay_extend [op]
    rw [hreplay, op.flow_apply]
    cases hflushes : op.flushes with
    | true => rw [op.burst_flow_of_flushes hflushes, hrecords.flush_eq]
    | false =>
        rw [op.burst_flow_of_not_flushes hflushes, hop]
        rfl
  refine ⟨runs, ?_, ?_⟩
  · rw [htimes]
    exact hruns
  · rw [hburst]
    exact hrecords

/-- The end of the connection measures the last burst. -/
theorem segmented_of_tracks {t : RecordTrace A}
    (h : t.replay.flow.burst.Tracks t.requestTimes) {op : RecordOp A}
    (hop : op.flushes = true) : (t.extend [op]).Segmented := by
  obtain ⟨runs, hruns, hrecords⟩ := h.flush
  have htime : op.requestTime? = none := by
    cases op with
    | call ts c => cases hop
    | _ => rfl
  have hreplay : (t.extend [op]).replay = op.apply t.replay := t.replay_extend [op]
  refine ⟨runs, ?_, ?_⟩
  · simpa [requestTimes_extend, htime] using hruns
  · rw [hreplay, op.flow_apply, op.burst_flow_of_flushes hop]
    exact hrecords

end RecordTrace

section Session

variable {A : Type} [Address A]

omit [Address A] in
theorem PeerOp.flushes_recordOps {op : PeerOp A} (h : op.closes = false) :
    ∀ o ∈ op.recordOps, o.flushes = false := by
  cases op with
  | event endpoint pid ts call => cases call <;> simp [recordOps, RecordOp.flushes]
  | disconnect endpoint pid ts => cases h
  | _ => simp [recordOps, RecordOp.flushes]

/-- The bursts of closed connections are measured, those of open ones are being built. -/
theorem segmented_tracesOf (e : String) (ops : List (SessionOp A)) :
    (tracesOf e ops).Splits RecordTrace.Segmented
      fun t => t.replay.flow.burst.Tracks t.requestTimes := by
  have hextend : ∀ (t : RecordTrace A) (rops : List (RecordOp A)),
      t.replay.flow.burst.Tracks t.requestTimes → (∀ o ∈ rops, o.flushes = false) →
      (t.extend rops).replay.flow.burst.Tracks (t.extend rops).requestTimes := by
    intro t rops ht hops
    rw [t.replay_extend, t.requestTimes_extend]
    exact PeerStats.tracks_run ht hops
  apply splits_tracesOf
  · intro op n
    exact .idle rfl (by cases op <;> exact ⟨rfl, rfl, rfl, rfl⟩)
  · intro op t ht hop
    exact hextend t op.recordOps ht (op.flushes_recordOps hop)
  · intro op t ht hop
    cases op with
    | disconnect endpoint pid ts =>
        have hseen := hextend t [.seen ts, .peerId pid] ht (by simp [RecordOp.flushes])
        have hclose : ((t.extend [.seen ts, .peerId pid]).extend [.disconnect ts]).Segmented :=
          RecordTrace.segmented_of_tracks hseen rfl
        simpa [RecordTrace.extend, PeerOp.recordOps] using hclose
    | connect endpoint pid ts direction transport => cases hop
    | event endpoint pid ts call => cases hop
    | snapshot peer ts snapshotIntervalMs => cases hop
  · intro t ht
    exact hextend t [.reset] ht (by simp [RecordOp.flushes])
  · intro t ht
    exact ht.extend rfl

theorem paced_tracesOf (e : String) (ops : List (SessionOp A)) :
    (tracesOf e ops).Splits (fun t => t.replay.Paced t.requestTimes)
      fun t => t.replay.Paced t.requestTimes := by
  have hextend : ∀ (t : RecordTrace A) (rops : List (RecordOp A)),
      t.replay.Paced t.requestTimes →
      (t.extend rops).replay.Paced (t.extend rops).requestTimes := by
    intro t rops ht
    rw [t.replay_extend, t.requestTimes_extend]
    exact PeerStats.paced_run ht rops
  apply splits_tracesOf
  · intro op n
    cases op <;> exact ⟨rfl, rfl, rfl⟩
  · intro op t ht hop
    exact hextend t _ ht
  · intro op t ht hop
    exact hextend t _ ht
  · intro t ht
    exact hextend t _ ht
  · intro t ht
    exact hextend t _ ht

end Session

/-- The burst samples of the record are those of the maximal runs of the request times. -/
structure BurstsRecorded (times : List Int) (runs : List (List Int)) (p : PeerStats) : Prop where
  maximal : IsMaximalRuns SameBurst times runs
  sizes : p.incomingRequestBurstSizeSamples = runs.map fun run => (run.length : ℚ)
  durations : p.incomingRequestBurstDurationMsSamples = runs.map burstDurationMs
  idleGaps : p.incomingRequestBurstIdleGapMsSamples = adjacent burstIdleGapMs runs
  received : p.incomingRequestBurstSizeSamples.sum = p.incomingRequestsReceived
  none : times = [] → p.incomingRequestBurstSizeSamples = [] ∧
    p.incomingRequestBurstIdleGapMsSamples = []
  oneFewer : times ≠ [] → p.incomingRequestBurstIdleGapMsSamples.length + 1 =
    p.incomingRequestBurstSizeSamples.length
  total : p.incomingRequestBurstDurationMsSamples.sum +
      p.incomingRequestBurstIdleGapMsSamples.sum =
    nsToMs (times.getLastD 0 - times.headD 0)
  gaps : p.incomingRequestGapMsSamples.sum = nsToMs (times.getLastD 0 - times.headD 0)

theorem burstsRecorded_of_records {times : List Int} {runs : List (List Int)} {p : PeerStats}
    (hruns : IsMaximalRuns SameBurst times runs) (hrecords : p.flow.burst.Records runs)
    (hpaced : p.Paced times) : BurstsRecorded times runs p := by
  have hsizes : p.incomingRequestBurstSizeSamples = runs.map fun run => (run.length : ℚ) :=
    hrecords.sizes
  have hdurations : p.incomingRequestBurstDurationMsSamples = runs.map burstDurationMs :=
    hrecords.durations
  have hidle : p.incomingRequestBurstIdleGapMsSamples = adjacent burstIdleGapMs runs :=
    hrecords.idleGaps
  refine ⟨hruns, hsizes, hdurations, hidle, ?_, ?_, ?_, ?_, ?_⟩
  · have hcast : (runs.map fun run => (run.length : ℚ)) =
        (runs.map List.length).map Nat.cast := by
      rw [List.map_map]
      rfl
    rw [hsizes, hcast, hpaced.received, ← hruns.sum_length, Nat.cast_list_sum]
  · intro htimes
    rw [hsizes, hidle, hruns.eq_nil_iff.mpr htimes]
    exact ⟨rfl, rfl⟩
  · intro htimes
    have hpos := List.length_pos_iff.mpr (mt hruns.eq_nil_iff.mp htimes)
    rw [hsizes, hidle, length_adjacent, List.length_map]
    omega
  · rw [hdurations, hidle, burstDurationMs_eq_extent, burstIdleGapMs_eq_gap,
      sum_extent_add_sum_gap nsToMs 0 hruns.nonempty, hruns.flatten, nsToMs_sub, extent]
  · rw [hpaced.gaps, nsToMs_sub, ← extent, ← sum_adjacent_sub]
    simp only [nsToMs_sub]

theorem RecordTrace.Segmented.burstsRecorded {A : Type} {t : RecordTrace A} (h : t.Segmented)
    (hpaced : t.replay.Paced t.requestTimes) {p : PeerStats}
    (hreplay : p.setPiecesFinished 0 = t.replay) :
    ∃ runs, BurstsRecorded t.requestTimes runs p := by
  obtain ⟨runs, hruns, hrecords⟩ := h
  rw [← hreplay] at hrecords hpaced
  exact ⟨runs, burstsRecorded_of_records hruns hrecords
    ⟨hpaced.received, hpaced.gaps, hpaced.last⟩⟩

/-- The burst samples of every record whose connection has ended, and of every record of
a finalized session, are those of the maximal runs of its request times. -/
theorem burstSegmentation_run {A : Type} [Address A] (runId sessionId : ByteString)
    (start finish : TimestampPair) (ops : List (SessionOp A)) (key : String) (p : PeerStats)
    (hp : (((SessionStats.new runId sessionId start).run ops).peersByKey[key]? = some p ∧
        p.activeConnection = false) ∨
      (((SessionStats.new runId sessionId start).run ops).finalize finish).peersByKey[key]? =
        some p) :
    ∃ t runs, IsTraceOf ops key t ∧ BurstsRecorded t.requestTimes runs p := by
  have hpaced : ∀ e n t, (tracesOf e ops).get? n = some t → t.replay.Paced t.requestTimes := by
    intro e n t hget
    rcases List.mem_append.mp (Generations.mem_records_of_get? hget) with hclosed | hcurrent
    · exact (paced_tracesOf e ops).closed t hclosed
    · exact (paced_tracesOf e ops).current t (Option.mem_toList.mp hcurrent)
  rcases hp with ⟨hp, hinactive⟩ | hp
  · obtain ⟨n, t, rfl, hget, hreplay⟩ :=
      (represents_traces runId sessionId start ops).exists_trace hp
    have hclosed : t ∈ (tracesOf p.endpointKey ops).closed := by
      apply mem_closed_of_inactive hget
      rw [← hreplay]
      exact hinactive
    obtain ⟨runs, hruns⟩ := ((segmented_tracesOf _ ops).closed t hclosed).burstsRecorded
      (hpaced _ n t hget) hreplay
    exact ⟨t, runs, ⟨_, n, rfl, hget⟩, hruns⟩
  · obtain ⟨n, t', rfl, hget, hreplay⟩ :=
      (represents_finalize runId sessionId start finish ops).exists_trace hp
    rw [Generations.get?_map, Option.map_eq_some_iff] at hget
    obtain ⟨t, hget, rfl⟩ := hget
    have hsegmented : (t.extend [.finalize finish]).Segmented := by
      rcases List.mem_append.mp (Generations.mem_records_of_get? hget) with hclosed | hcurrent
      · exact ((segmented_tracesOf _ ops).closed t hclosed).extend rfl
      · exact RecordTrace.segmented_of_tracks
          ((segmented_tracesOf _ ops).current t (Option.mem_toList.mp hcurrent)) rfl
    have htimes : (t.extend [.finalize finish]).requestTimes = t.requestTimes := by
      simp [RecordTrace.requestTimes_extend, RecordOp.requestTime?]
    obtain ⟨runs, hruns⟩ := hsegmented.burstsRecorded (by
      rw [t.replay_extend, t.requestTimes_extend]
      exact PeerStats.paced_run (hpaced _ n t hget) _) hreplay
    rw [htimes] at hruns
    exact ⟨t, runs, ⟨_, n, rfl, hget⟩, hruns⟩

/-- Three requests in two bursts; the alert loss in the second burst does not split it. -/
theorem burstSegmentation_run_two_bursts :
    let endpoint : Endpoint AddressV4 := ⟨⟨10, 0, 0, 1⟩, 6881⟩
    let pid : PeerId := Vector.replicate 20 7
    let request : Int → SessionOp AddressV4 := fun ns =>
      .peer (.event endpoint pid ⟨"", ns⟩ (some (.incomingRequest ⟨0, 0, 16384⟩)))
    let ops := [request 1000000, request 200000000, .alertLoss 1, request 300000000]
    let key := "10.0.0.1:6881#1"
    let s := ((SessionStats.new "run" "session" ⟨"", 1⟩).run ops).finalize ⟨"", 400000000⟩
    ∃ p t runs, s.peersByKey[key]? = some p ∧ IsTraceOf ops key t ∧
      BurstsRecorded t.requestTimes runs p := by
  intro endpoint pid request ops key s
  have hsome : (s.peersByKey[key]?).isSome = true := by decide +kernel
  obtain ⟨p, hp⟩ := Option.isSome_iff_exists.mp hsome
  obtain ⟨t, runs, htrace, hruns⟩ := burstSegmentation_run "run" "session" ⟨"", 1⟩
    ⟨"", 400000000⟩ ops key p (Or.inr hp)
  exact ⟨p, t, runs, hp, htrace, hruns⟩

end BtClient
