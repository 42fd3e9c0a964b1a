import BtClient.RecordTrace
import BtClient.Library.Signal

/-!
# Active and idle time

Between its connect and its disconnect a connection is at any instant active or idle, as
the latest snapshot says, and active before the first one. The two clocks of a record
count these instants until `finalize`. A record that is still open is closed there, but
the clock of a record that was closed before is advanced once more, past its disconnect.
-/

namespace BtClient

open Signal

namespace RecordOp

variable {A : Type}

/-- The activity that a snapshot shows, and when. -/
def activityChange? : RecordOp A → Option (Int × Bool)
  | .snapshot peer ts snapshotIntervalMs =>
      some (ts.monoNs, PeerStats.snapshotActive peer snapshotIntervalMs)
  | _ => none

end RecordOp

/-- The activity of the connection over time: the snapshots and what they show. -/
def RecordTrace.activityChanges {A : Type} (t : RecordTrace A) : List (Int × Bool) :=
  t.ops.filterMap RecordOp.activityChange?

/-- The two clocks count the instants of the connection at which it was active and at
which it was idle, and together they make up its duration. -/
structure ActivityPartition (changes : List (Int × Bool)) (p : PeerStats) : Prop where
  active : p.activeTimeNs = timeAt true changes true p.connectedMonoNs p.disconnectedMonoNs
  idle : p.idleTimeNs = timeAt true changes false p.connectedMonoNs p.disconnectedMonoNs
  total : p.activeTimeNs + p.idleTimeNs = p.connectedDurationNs

namespace ActivityState

/-- The clocks are right up to the instant `w`, where the window ends. -/
structure Counts (changes : List (Int × Bool)) (w : Int) (a : ActivityState) : Prop where
  connected : 0 < a.connectedMonoNs
  started : a.connectedMonoNs ≤ w
  window : a.windowMonoNs = some w
  past : ∀ change ∈ changes, change.1 ≤ w
  active : a.activeTimeNs = timeAt true changes true a.connectedMonoNs w
  idle : a.idleTimeNs = timeAt true changes false a.connectedMonoNs w

variable {changes : List (Int × Bool)} {w : Int} {a : ActivityState}

theorem Counts.seen (h : a.Counts changes w) (monoNs : Int) :
    (a.seen monoNs).Counts changes w :=
  ⟨h.connected, h.started, h.window, h.past, h.active, h.idle⟩

theorem Counts.connect (h : a.Counts changes w) (monoNs : Int) :
    (a.connect monoNs).Counts changes w := by
  have hconnected : (a.connect monoNs).connectedMonoNs = a.connectedMonoNs :=
    if_neg h.connected.ne'
  have hwindow : (a.connect monoNs).windowMonoNs = some w := by
    rw [ActivityState.connect, h.window]
    rfl
  refine ⟨?_, ?_, hwindow, h.past, ?_, ?_⟩
  · rw [hconnected]
    exact h.connected
  · rw [hconnected]
    exact h.started
  · rw [hconnected]
    exact h.active
  · rw [hconnected]
    exact h.idle

/-- Time that passes without a change is added to the clock of the current activity. -/
theorem Counts.advance (h : a.Counts changes w) (hactive : a.windowActive = current true changes)
    {monoNs : Int} (hw : w ≤ monoNs) (activeNow : Bool) :
    (a.advance monoNs activeNow).Counts changes monoNs := by
  have hdelta : PeerStats.unaccountedNs a.windowMonoNs monoNs = ((monoNs - w).toNat : Int) := by
    rw [h.window, PeerStats.unaccountedNs]
    split <;> omega
  have hsplit : ∀ v, (timeAt true changes v a.connectedMonoNs monoNs : Int) =
      timeAt true changes v a.connectedMonoNs w +
        if current true changes = v then ((monoNs - w).toNat : Int) else 0 := by
    intro v
    rw [← timeAt_add true changes v h.started hw, timeAt_of_le true v h.past]
    push_cast
    rfl
  refine ⟨h.connected, h.started.trans hw, rfl, fun c hc => (h.past c hc).trans hw, ?_, ?_⟩
  · refine Eq.trans ?_ (hsplit true).symm
    rw [← h.active, ← hactive, ← hdelta]
    rfl
  · refine Eq.trans ?_ (hsplit false).symm
    rw [← h.idle, ← hactive, ← hdelta, ActivityState.advance]
    cases a.windowActive <;> rfl

/-- A snapshot at the end of the window. -/
theorem Counts.change (h : a.Counts changes w) (activeNow : Bool) :
    a.Counts (changes ++ [(w, activeNow)]) w where
  connected := h.connected
  started := h.started
  window := h.window
  past := by
    intro change hchange
    rcases List.mem_append.mp hchange with hmem | hmem
    · exact h.past change hmem
    · rw [List.mem_singleton.mp hmem]
  active := by
    rw [timeAt_concat true changes true le_rfl]
    exact h.active
  idle := by
    rw [timeAt_concat true changes false le_rfl]
    exact h.idle

end ActivityState

/-! ### The clocks of a trace -/

namespace RecordTrace

variable {A : Type}

/-- The clocks of an open connection are right up to some instant before `b`. -/
def Clocked (b : Int) (t : RecordTrace A) : Prop :=
  ∃ w ≤ b, t.replay.flow.activity.Counts t.activityChanges w ∧
    t.replay.flow.activity.windowActive = current true t.activityChanges

/-- The clocks of a closed connection are right up to its disconnect. -/
def Stopped (b : Int) (t : RecordTrace A) : Prop :=
  ∃ w ≤ b, t.replay.flow.activity.Counts t.activityChanges w ∧
    t.replay.flow.activity.windowActive = false ∧
    t.replay.flow.activity.disconnectedMonoNs = w ∧ t.replay.flow.active = false

theorem replay_extend_singleton (op : RecordOp A) (t : RecordTrace A) :
    (t.extend [op]).replay.flow = op.flow t.replay.flow := by
  rw [t.replay_extend]
  exact op.flow_apply t.replay

theorem activityChanges_extend_singleton (op : RecordOp A) (t : RecordTrace A) :
    (t.extend [op]).activityChanges = t.activityChanges ++ op.activityChange?.toList := by
  simp [activityChanges, extend, List.filterMap_append, List.filterMap_cons]
  cases op.activityChange? <;> rfl

/-- An operation that shows no activity and leaves the clocks alone. -/
theorem Clocked.of_quiet {b : Int} {t : RecordTrace A} (h : t.Clocked b) {op : RecordOp A}
    (hchange : op.activityChange? = none)
    (hcounts : ∀ changes w, t.replay.flow.activity.Counts changes w →
      (op.flow t.replay.flow).activity.Counts changes w)
    (hactive : (op.flow t.replay.flow).activity.windowActive =
      t.replay.flow.activity.windowActive) : (t.extend [op]).Clocked b := by
  obtain ⟨w, hw, hc, ha⟩ := h
  refine ⟨w, hw, ?_⟩
  rw [replay_extend_singleton, activityChanges_extend_singleton, hchange, Option.toList_none,
    List.append_nil]
  exact ⟨hcounts _ _ hc, hactive.trans ha⟩

/-- An operation that leaves the connection open keeps its clocks right. -/
theorem Clocked.extend {b : Int} {t : RecordTrace A} (h : t.Clocked b) {op : RecordOp A}
    (hop : ∀ τ, op.time? = some τ → τ = b)
    (hopen : ∀ ts, op ≠ .disconnect ts ∧ op ≠ .finalize ts) : (t.extend [op]).Clocked b := by
  cases op with
  | seen ts => exact h.of_quiet rfl (fun _ _ hc => hc.seen _) rfl
  | connect ts direction transport fromConnectAlert =>
      exact h.of_quiet rfl (fun _ _ hc => (hc.seen _).connect _) rfl
  | disconnect ts => exact absurd rfl (hopen ts).1
  | peerId pid => exact h.of_quiet rfl (fun _ _ hc => hc) rfl
  | call ts c =>
      refine h.of_quiet rfl (fun _ _ hc => ?_) ?_
      · cases c <;> exact hc.seen _
      · cases c <;> rfl
  | snapshot peer ts snapshotIntervalMs =>
      obtain rfl : ts.monoNs = b := hop _ rfl
      obtain ⟨w, hw, hcounts, hactive⟩ := h
      have hadvance := (hcounts.seen ts.monoNs).advance hactive hw
        (PeerStats.snapshotActive peer snapshotIntervalMs)
      refine ⟨ts.monoNs, le_rfl, ?_⟩
      rw [replay_extend_singleton, activityChanges_extend_singleton]
      exact ⟨hadvance.change _, (current_concat true t.activityChanges
        (ts.monoNs, PeerStats.snapshotActive peer snapshotIntervalMs)).symm⟩
  | reset => exact h.of_quiet rfl (fun _ _ hc => hc) rfl
  | finalize sessionEnd => exact absurd rfl (hopen sessionEnd).2

theorem extend_cons (op : RecordOp A) (ops : List (RecordOp A)) (t : RecordTrace A) :
    t.extend (op :: ops) = (t.extend [op]).extend ops := by
  simp [RecordTrace.extend]

theorem Clocked.extend_all {b : Int} {t : RecordTrace A} (h : t.Clocked b)
    {ops : List (RecordOp A)} (hops : ∀ op ∈ ops, ∀ τ, op.time? = some τ → τ = b)
    (hopen : ∀ op ∈ ops, ∀ ts, op ≠ .disconnect ts ∧ op ≠ .finalize ts) :
    (t.extend ops).Clocked b := by
  induction ops generalizing t with
  | nil =>
      have hnil : t.extend [] = t := by simp [RecordTrace.extend]
      rw [hnil]
      exact h
  | cons op ops ih =>
      rw [List.forall_mem_cons] at hops hopen
      rw [extend_cons]
      exact ih (h.extend hops.1 hopen.1) hops.2 hopen.2

/-- The disconnect of an open connection stops its clocks, also when `finalize` is what
disconnects it. -/
theorem Clocked.stop {b : Int} {t : RecordTrace A} (h : t.Clocked b) {op : RecordOp A}
    (hchange : op.activityChange? = none)
    (hflow : (op.flow t.replay.flow).activity = t.replay.flow.activity.disconnect b)
    (hactive : (op.flow t.replay.flow).active = false) : (t.extend [op]).Stopped b := by
  obtain ⟨w, hw, hcounts, hcurrent⟩ := h
  have hadvance := (hcounts.seen b).advance hcurrent hw false
  refine ⟨b, le_rfl, ?_⟩
  rw [replay_extend_singleton, activityChanges_extend_singleton, hchange, Option.toList_none,
    List.append_nil, hflow]
  exact ⟨⟨hadvance.connected, hadvance.started, hadvance.window, hadvance.past,
    hadvance.active, hadvance.idle⟩, rfl, rfl, hactive⟩

theorem Stopped.reset {b : Int} {t : RecordTrace A} (h : t.Stopped b) :
    (t.extend [.reset]).Stopped b := by
  obtain ⟨w, hw, hstopped⟩ := h
  refine ⟨w, hw, ?_⟩
  have hchanges : (t.extend [.reset]).activityChanges = t.activityChanges := by
    rw [activityChanges_extend_singleton]
    exact List.append_nil _
  rw [hchanges, replay_extend_singleton]
  exact hstopped

/-- The clocks of a stopped connection partition its duration. -/
theorem Stopped.partition {b : Int} {t : RecordTrace A} (h : t.Stopped b) {p : PeerStats}
    (hp : p.setPiecesFinished 0 = t.replay) : ActivityPartition t.activityChanges p := by
  obtain ⟨w, -, hcounts, -, hdisconnected, -⟩ := h
  rw [← hp] at hcounts hdisconnected
  obtain ⟨hconnected, hstarted, -, -, hactive, hidle⟩ := hcounts
  have hd : p.disconnectedMonoNs = w := hdisconnected
  have hc : 0 < p.connectedMonoNs := hconnected
  have hcw : p.connectedMonoNs ≤ w := hstarted
  have ha : p.activeTimeNs = timeAt true t.activityChanges true p.connectedMonoNs w := hactive
  have hi : p.idleTimeNs = timeAt true t.activityChanges false p.connectedMonoNs w := hidle
  have hduration : p.connectedDurationNs = ((w - p.connectedMonoNs).toNat : Int) := by
    rw [PeerStats.connectedDurationNs, hd, if_pos hc.ne', if_pos (hc.trans_le hcw).ne']
    split <;> omega
  refine ⟨by rw [hd, ha], by rw [hd, hi], ?_⟩
  rw [ha, hi, hduration, ← timeAt_true_add_timeAt_false true t.activityChanges]
  push_cast
  rfl

end RecordTrace

/-! ### The clocks of a session -/

section Session

variable {A : Type}

theorem PeerOp.opens_recordOps (op : PeerOp A) (h : op.closes = false) :
    ∀ o ∈ op.recordOps, ∀ ts, o ≠ .disconnect ts ∧ o ≠ .finalize ts := by
  cases op with
  | event endpoint pid ts call => cases call <;> simp [recordOps]
  | disconnect endpoint pid ts => cases h
  | _ => simp [recordOps]

variable [Address A]

/-- The clocks of open connections run, those of closed ones have stopped. -/
theorem clocked_tracesOf (e : String) {ops : List (SessionOp A)} {b : Int}
    (h : SessionOp.InOrder ops b) :
    (tracesOf e ops).Splits (RecordTrace.Stopped b) (RecordTrace.Clocked b) := by
  apply splits_tracesOf_inOrder e _ _ _ _ _ _ _ h
  · rintro b b' t hb ⟨w, hw, hstopped⟩
    exact ⟨w, hw.trans hb, hstopped⟩
  · rintro b b' t hb ⟨w, hw, hclocked⟩
    exact ⟨w, hw.trans hb, hclocked⟩
  · intro op n hpos
    refine ⟨op.monoNs, le_rfl, ?_⟩
    cases op <;> exact ⟨⟨hpos, le_rfl, rfl, by simp [RecordTrace.activityChanges],
      (timeAt_self true [] true _).symm ▸ rfl, (timeAt_self true [] false _).symm ▸ rfl⟩, rfl⟩
  · intro op t ht hop
    exact ht.extend_all op.time?_recordOps (op.opens_recordOps hop)
  · intro op t ht hop
    cases op with
    | disconnect endpoint pid ts =>
        have hseen : (t.extend [.seen ts, .peerId pid]).Clocked _ :=
          ht.extend_all (by simp [RecordOp.time?, PeerOp.monoNs]) (by simp)
        have hstop : ((t.extend [.seen ts, .peerId pid]).extend [.disconnect ts]).Stopped _ :=
          hseen.stop rfl rfl rfl
        simpa [RecordTrace.extend, PeerOp.recordOps] using hstop
    | connect endpoint pid ts direction transport => cases hop
    | event endpoint pid ts call => cases hop
    | snapshot peer ts snapshotIntervalMs => cases hop
  · intro b t ht
    exact ht.extend (by simp [RecordOp.time?]) (by simp)
  · intro b t ht
    exact ht.reset

omit [Address A] in
/-- A record that is open at the end is closed by `finalize`. -/
theorem RecordTrace.Clocked.finalize {b : Int} {t : RecordTrace A} (h : t.Clocked b)
    (hactive : t.replay.flow.active = true) {finish : TimestampPair} (hfinish : finish.monoNs = b) :
    (t.extend [.finalize finish]).Stopped b := by
  apply h.stop rfl
  · simp only [RecordOp.flow, RecordFlow.finalize, hactive, if_true, ← hfinish]
    rfl
  · simp only [RecordOp.flow, RecordFlow.finalize, hactive, if_true]
    rfl

omit [Address A] in
/-- The clocks of a record that was closed before partition its duration after `finalize`
exactly if it was closed at the end of the session. -/
theorem RecordTrace.Stopped.finalize_iff {b : Int} {t : RecordTrace A} (h : t.Stopped b)
    {p : PeerStats} (hp : p.setPiecesFinished 0 = t.replay) {finish : TimestampPair}
    (hfinish : finish.monoNs = b) :
    ActivityPartition t.activityChanges (p.finalize finish) ↔
      p.disconnectedMonoNs = finish.monoNs := by
  have hpartition := h.partition hp
  obtain ⟨w, hw, hcounts, hwindow, hdisconnected, hactive⟩ := h
  rw [← hp] at hcounts hwindow hdisconnected hactive
  have hsome : p.flow.activity.windowMonoNs = some w := hcounts.window
  have hd : p.disconnectedMonoNs = w := hdisconnected
  have hfalse : p.flow.activity.windowActive = false := hwindow
  have hinactive : p.flow.active = false := hactive
  have hflow : (p.finalize finish).flow.activity =
      { p.flow.activity with
        idleTimeNs := p.flow.activity.idleTimeNs + (finish.monoNs - w)
        windowMonoNs := some finish.monoNs
        windowActive := false } := by
    have hdelta : PeerStats.unaccountedNs (some w) finish.monoNs = finish.monoNs - w := by
      rw [PeerStats.unaccountedNs]
      split <;> omega
    rw [PeerStats.flow_finalize]
    simp [RecordFlow.finalize, hinactive, hsome, ActivityState.advance, hfalse, hdelta]
  have hconnected' : (p.finalize finish).connectedMonoNs = p.connectedMonoNs :=
    congrArg ActivityState.connectedMonoNs hflow
  have hdisconnected' : (p.finalize finish).disconnectedMonoNs = p.disconnectedMonoNs :=
    congrArg ActivityState.disconnectedMonoNs hflow
  have hactive' : (p.finalize finish).activeTimeNs = p.activeTimeNs :=
    congrArg ActivityState.activeTimeNs hflow
  have hidle' : (p.finalize finish).idleTimeNs = p.idleTimeNs + (finish.monoNs - w) :=
    congrArg ActivityState.idleTimeNs hflow
  have hfirst' : (p.finalize finish).firstSeenMonoNs = p.firstSeenMonoNs :=
    congrArg ActivityState.firstSeenMonoNs hflow
  have hlast' : (p.finalize finish).lastSeenMonoNs = p.lastSeenMonoNs :=
    congrArg ActivityState.lastSeenMonoNs hflow
  have hduration' : (p.finalize finish).connectedDurationNs = p.connectedDurationNs := by
    simp only [PeerStats.connectedDurationNs, hconnected', hdisconnected', hfirst', hlast']
  constructor
  · intro hpartition'
    have htotal := hpartition.total
    have htotal' := hpartition'.total
    rw [hactive', hidle', hduration'] at htotal'
    omega
  · intro hend
    have hzero : finish.monoNs - w = 0 := by omega
    rw [hzero, add_zero] at hidle'
    exact {
      active := by rw [hactive', hconnected', hdisconnected', hpartition.active]
      idle := by rw [hidle', hconnected', hdisconnected', hpartition.idle]
      total := by rw [hactive', hidle', hduration', hpartition.total] }

end Session

/-- After `finalize` the two clocks of a record partition its connection exactly if the
record was open until then or was closed at the very end of the session. -/
theorem activityPartition_iff {A : Type} [Address A] (runId sessionId : ByteString)
    (start finish : TimestampPair) (ops : List (SessionOp A))
    (horder : SessionOp.InOrder ops finish.monoNs) (key : String) (p p' : PeerStats)
    (hp : ((SessionStats.new runId sessionId start).run ops).peersByKey[key]? = some p)
    (hp' : (((SessionStats.new runId sessionId start).run ops).finalize
      finish).peersByKey[key]? = some p') :
    (∃ t, IsTraceOf ops key t ∧ ActivityPartition t.activityChanges p') ↔
      p.activeConnection = true ∨ p.disconnectedMonoNs = finish.monoNs := by
  obtain rfl : p.finalize finish = p' := by
    have hget : (((SessionStats.new runId sessionId start).run ops).finalize
        finish).peersByKey[key]? = some (p.finalize finish) := by
      simp only [SessionStats.finalize, SessionStats.mapPeers, Std.ExtTreeMap.getElem?_map, hp,
        Option.map_some]
    exact Option.some.inj (hget.symm.trans hp')
  obtain ⟨n, t, rfl, hget, hreplay⟩ :=
    (represents_traces runId sessionId start ops).exists_trace hp
  have htrace : IsTraceOf ops (numberedPeerKey p.endpointKey n) t := ⟨_, n, rfl, hget⟩
  have hiff : (∃ t', IsTraceOf ops (numberedPeerKey p.endpointKey n) t' ∧
      ActivityPartition t'.activityChanges (p.finalize finish)) ↔
      ActivityPartition t.activityChanges (p.finalize finish) := by
    constructor
    · rintro ⟨t', ht', hpartition⟩
      rw [htrace.unique ht']
      exact hpartition
    · exact fun hpartition => ⟨t, htrace, hpartition⟩
  rw [hiff]
  have hclocks := clocked_tracesOf p.endpointKey horder
  have hactive : t.replay.activeConnection = p.activeConnection := by
    rw [← hreplay]
    rfl
  cases hopen : p.activeConnection with
  | true =>
      refine iff_of_true ?_ (Or.inl rfl)
      have hcurrent : t.Clocked finish.monoNs := by
        rcases List.mem_append.mp (Generations.mem_records_of_get? hget) with hclosed | hcurrent
        · obtain ⟨w, -, -, -, -, hinactive⟩ := hclocks.closed t hclosed
          cases hinactive.symm.trans (hactive.trans hopen)
        · exact hclocks.current t (Option.mem_toList.mp hcurrent)
      have hreplay' : (p.finalize finish).setPiecesFinished 0 =
          (t.extend [.finalize finish]).replay := by
        rw [t.replay_extend, ← PeerStats.finalize_setPiecesFinished, hreplay]
        rfl
      have hpartition := (hcurrent.finalize (hactive.trans hopen) rfl).partition hreplay'
      rw [RecordTrace.activityChanges_extend_singleton] at hpartition
      simpa [RecordOp.activityChange?] using hpartition
  | false =>
      have hclosed : t ∈ (tracesOf p.endpointKey ops).closed :=
        mem_closed_of_inactive hget (hactive.trans hopen)
      rw [(hclocks.closed t hclosed).finalize_iff hreplay rfl]
      simp

theorem inOrder_sampleVisit (finish : Int) (h : 2000 ≤ finish) :
    SessionOp.InOrder sampleVisit finish where
  positive := by decide
  ordered := by
    have htimes : sampleVisit.filterMap SessionOp.time? = [1000, 2000] := by decide
    rw [htimes]
    simp
    omega

theorem activityPartition_iff_sampleVisit :
    let s := (SessionStats.new "run" "session" ⟨"", 1⟩).run sampleVisit
    ∃ p p', s.peersByKey["10.0.0.1:6881#1"]? = some p ∧
      (s.finalize ⟨"", 2000⟩).peersByKey["10.0.0.1:6881#1"]? = some p' ∧
      ((∃ t, IsTraceOf sampleVisit "10.0.0.1:6881#1" t ∧
          ActivityPartition t.activityChanges p') ↔
        p.activeConnection = true ∨ p.disconnectedMonoNs = 2000) := by
  intro s
  have hsome : (s.peersByKey["10.0.0.1:6881#1"]?).isSome = true := by decide +kernel
  have hsome' : ((s.finalize ⟨"", 2000⟩).peersByKey["10.0.0.1:6881#1"]?).isSome = true := by
    decide +kernel
  obtain ⟨p, hp⟩ := Option.isSome_iff_exists.mp hsome
  obtain ⟨p', hp'⟩ := Option.isSome_iff_exists.mp hsome'
  exact ⟨p, p', hp, hp', activityPartition_iff "run" "session" ⟨"", 1⟩ ⟨"", 2000⟩ sampleVisit
    (inOrder_sampleVisit 2000 le_rfl) "10.0.0.1:6881#1" p p' hp hp'⟩

/-- The idle clock of the closed connection goes on until the end of the session. -/
theorem not_activityPartition_sampleVisit :
    let s := ((SessionStats.new "run" "session" ⟨"", 1⟩).run sampleVisit).finalize ⟨"", 5000⟩
    SessionOp.InOrder sampleVisit 5000 ∧
      ∃ p, s.peersByKey["10.0.0.1:6881#1"]? = some p ∧
        ∀ changes, ¬ ActivityPartition changes p := by
  intro s
  refine ⟨inOrder_sampleVisit 5000 (by decide), ?_⟩
  have hclocks : (s.peersByKey["10.0.0.1:6881#1"]?).map
      (fun p => (p.activeTimeNs, p.idleTimeNs, p.connectedDurationNs)) =
      some (1000, 3000, 1000) := by decide +kernel
  obtain ⟨p, hp, htimes⟩ := Option.map_eq_some_iff.mp hclocks
  refine ⟨p, hp, fun changes hpartition => ?_⟩
  have htotal := hpartition.total
  simp only [Prod.mk.injEq] at htimes
  omega

end BtClient
