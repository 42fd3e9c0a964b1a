import BtClient.EventLog
import BtClient.RecordTrace

/-!
# The operations behind a run

A run drains batches of alerts and captures snapshots. On the statistics it is the
sequence `opsOf` of the session operations that the alerts and snapshots stand for; in
between only counters of the session are advanced. So what every session operation keeps
holds after the run, and the records that a run leaves are the replays of their traces.
-/

namespace BtClient

section Ops

variable {A : Type}

/-- The operation that a drained alert makes on the session. -/
def TimedAlert.ops (timed : TimedAlert A) : List (SessionOp A) :=
  (timed.alert.body.op? timed.ts).toList

/-- The operations that one call of `capture_snapshots` makes on the session. -/
def SnapshotInput.ops (snapshotIntervalMs : Int) (input : SnapshotInput A) :
    List (SessionOp A) :=
  .sessionSnapshot input.status ::
    input.peers.map fun entry => .peer (.snapshot entry.2 input.ts snapshotIntervalMs)

def RunStep.ops (snapshotIntervalMs : Int) : RunStep A → List (SessionOp A)
  | .drainAlerts batch => batch.flatMap TimedAlert.ops
  | .captureSnapshots input => input.ops snapshotIntervalMs

/-- The operations of a run on the session, in their order. -/
def opsOf (snapshotIntervalMs : Int) (steps : List (RunStep A)) : List (SessionOp A) :=
  steps.flatMap (RunStep.ops snapshotIntervalMs)

end Ops

/-- The keys that the lines of the log name, in their order. -/
def loggedKeys (lines : List Json) : List String :=
  lines.filterMap Json.loggedKey

theorem loggedKeys_writeEvent {writer writer' : EventWriter} {ts : TimestampPair}
    {eventType : String} {payload : Json} {peerContext : Option EventPeerContext}
    (h : writer.writeEvent ts eventType payload peerContext = .ok writer') :
    loggedKeys writer'.lines = loggedKeys writer.lines ++
      (peerContext.map EventPeerContext.peerKey).toList ∧
      writer'.config = writer.config := by
  rw [writeEvent_ok h]
  refine ⟨?_, rfl⟩
  rw [loggedKeys, List.filterMap_append, loggedKeys, List.filterMap_cons, loggedKey_event]
  cases peerContext <;> rfl

/-- A relation between the session, the operations so far and the keys logged so far. Every
operation of the session extends it, and it does not look at the session-wide counters. -/
structure FollowsOps {A : Type} [Address A]
    (P : SessionStats → List (SessionOp A) → List String → Prop) : Prop where
  count : ∀ {s ops keys} (body : AlertBody A), P s ops keys → P (s.countAlert body) ops keys
  apply : ∀ {s ops keys} (op : SessionOp A), P s ops keys →
    P (op.apply s) (ops ++ [op]) (keys ++ (SessionOp.loggedKey s (some op)).toList)

namespace FollowsOps

variable {A : Type} [Address A] {P : SessionStats → List (SessionOp A) → List String → Prop}
variable {r r' : Recording} {ops : List (SessionOp A)}

theorem recordAlert (hP : FollowsOps P) {timed : TimedAlert A}
    (h : P r.stats ops (loggedKeys r.writer.lines)) (hr : r.recordAlert timed = .ok r') :
    P r'.stats (ops ++ timed.ops) (loggedKeys r'.writer.lines) ∧
      r'.writer.config = r.writer.config := by
  have hstats := handleAlert_stats r.stats timed.ts timed.alert
  have hrequest := handleAlert_request r.stats timed.ts timed.alert
  have hcount := hP.count timed.alert.body h
  unfold Recording.recordAlert at hr
  split at hr
  · next stats heq =>
      cases hr
      rw [heq] at hstats hrequest
      have hnone : timed.alert.body.op? timed.ts = none := by
        cases hbody : timed.alert.body <;> rw [hbody] at hrequest <;> cases hrequest
        rfl
      rw [hnone] at hstats
      change stats = r.stats.countAlert timed.alert.body at hstats
      refine ⟨?_, rfl⟩
      rw [TimedAlert.ops, hnone, Option.toList_none, List.append_nil, hstats]
      exact hcount
  · next stats request heq =>
      rw [heq] at hstats hrequest
      split at hr
      · next writer hwrite =>
          cases hr
          obtain ⟨hkeys, hconfig⟩ := loggedKeys_writeEvent hwrite
          have hkey : request.peerContext.map EventPeerContext.peerKey =
              SessionOp.loggedKey (r.stats.countAlert timed.alert.body)
                (timed.alert.body.op? timed.ts) := by
            rw [Option.map_some, eq_comm, Option.map_eq_some_iff] at hrequest
            obtain ⟨eventType, -, hpair⟩ := hrequest
            exact (Prod.mk.inj hpair).2.symm
          refine ⟨?_, hconfig⟩
          change stats = _ at hstats
          rw [hkeys, hkey, hstats, TimedAlert.ops]
          cases timed.alert.body.op? timed.ts with
          | none =>
              rw [SessionOp.loggedKey, Option.toList_none, Option.toList_none,
                List.append_nil, List.append_nil]
              · exact hcount
              · exact fun op hop => by cases hop
          | some op => exact hP.apply op hcount
      · cases hr

theorem drainAlerts (hP : FollowsOps P) {batch : List (TimedAlert A)}
    (h : P r.stats ops (loggedKeys r.writer.lines)) (hr : r.drainAlerts batch = .ok r') :
    P r'.stats (ops ++ batch.flatMap TimedAlert.ops) (loggedKeys r'.writer.lines) ∧
      r'.writer.config = r.writer.config := by
  induction batch generalizing r ops with
  | nil =>
      cases hr
      simpa using h
  | cons timed rest ih =>
      unfold Recording.drainAlerts at hr
      split at hr
      · next r₁ hr₁ =>
          obtain ⟨hstep, hconfig⟩ := hP.recordAlert h hr₁
          obtain ⟨hrest, hconfig'⟩ := ih hstep hr
          rw [List.append_assoc] at hrest
          exact ⟨hrest, hconfig'.trans hconfig⟩
      · cases hr

theorem recordPeerSnapshots (hP : FollowsOps P) {ts : TimestampPair}
    {peers : List (TimestampPair × PeerInfo A)}
    (h : P r.stats ops (loggedKeys r.writer.lines))
    (hr : r.recordPeerSnapshots ts peers = .ok r') :
    P r'.stats (ops ++ peers.map fun entry =>
        .peer (.snapshot entry.2 ts r.writer.config.snapshotIntervalMs))
        (loggedKeys r'.writer.lines) ∧
      r'.writer.config = r.writer.config := by
  induction peers generalizing r ops with
  | nil =>
      cases hr
      simpa using h
  | cons entry rest ih =>
      obtain ⟨writeTs, peer⟩ := entry
      unfold Recording.recordPeerSnapshots at hr
      split at hr
      · next r₁ hr₁ =>
          unfold Recording.recordPeerSnapshot at hr₁
          simp only at hr₁
          split at hr₁
          · next writer hwrite =>
              cases hr₁
              obtain ⟨hkeys, hconfig⟩ := loggedKeys_writeEvent hwrite
              have hstep := hP.apply
                (.peer (.snapshot peer ts r.writer.config.snapshotIntervalMs)) h
              obtain ⟨hrest, hconfig'⟩ := ih (by rw [hkeys]; exact hstep) hr
              rw [hconfig, List.append_assoc] at hrest
              exact ⟨hrest, hconfig'.trans hconfig⟩
          · cases hr₁
      · cases hr

theorem captureSnapshots (hP : FollowsOps P) {input : SnapshotInput A}
    (h : P r.stats ops (loggedKeys r.writer.lines))
    (hr : r.captureSnapshots input = .ok r') :
    P r'.stats (ops ++ input.ops r.writer.config.snapshotIntervalMs)
        (loggedKeys r'.writer.lines) ∧
      r'.writer.config = r.writer.config := by
  unfold Recording.captureSnapshots at hr
  split at hr
  · cases hr
  · next writer hwrite =>
      split at hr
      · cases hr
      · next writer' hwrite' =>
          obtain ⟨hkeys, hconfig⟩ := loggedKeys_writeEvent hwrite
          obtain ⟨hkeys', hconfig'⟩ := loggedKeys_writeEvent hwrite'
          rw [hkeys, Option.map_none, Option.toList_none, List.append_nil, List.append_nil]
            at hkeys'
          have hsnapshot := hP.apply (.sessionSnapshot input.status) h
          rw [SessionOp.loggedKey, Option.toList_none, List.append_nil, ← hkeys'] at hsnapshot
          · have hpeers := hP.recordPeerSnapshots
              (r := ⟨r.stats.recordSessionSnapshot input.status, writer'⟩) hsnapshot hr
            rw [hconfig', hconfig, List.append_assoc] at hpeers
            exact hpeers
          · exact fun op hop => by cases hop

theorem run (hP : FollowsOps P) {steps : List (RunStep A)}
    (h : P r.stats ops (loggedKeys r.writer.lines)) (hr : r.run steps = .ok r') :
    P r'.stats (ops ++ opsOf r.writer.config.snapshotIntervalMs steps)
      (loggedKeys r'.writer.lines) := by
  induction steps generalizing r ops with
  | nil =>
      cases hr
      simpa [opsOf] using h
  | cons step rest ih =>
      unfold Recording.run at hr
      split at hr
      · next r₁ hr₁ =>
          have hstep : P r₁.stats (ops ++ step.ops r.writer.config.snapshotIntervalMs)
              (loggedKeys r₁.writer.lines) ∧ r₁.writer.config = r.writer.config := by
            cases step with
            | drainAlerts batch => exact hP.drainAlerts h hr₁
            | captureSnapshots input => exact hP.captureSnapshots h hr₁
          have hrest := ih hstep.1 hr
          rw [hstep.2, List.append_assoc] at hrest
          exact hrest
      · cases hr

end FollowsOps

section Runs

variable {A : Type} [Address A]

/-- One more operation is one more step of the traces. -/
theorem SessionOp.represents_append {s : SessionStats} {ops : List (SessionOp A)}
    (op : SessionOp A) (h : Represents s fun e => (tracesOf e ops).map RecordTrace.replay) :
    Represents (op.apply s) fun e => (tracesOf e (ops ++ [op])).map RecordTrace.replay := by
  have happly := op.represents_apply h
  simpa only [tracesOf_append_singleton, SessionOp.map_replay_traces] using happly

/-- The records of the session are the replays of the traces. -/
theorem followsOps_represents : FollowsOps fun s (ops : List (SessionOp A)) _ =>
    Represents s fun e => (tracesOf e ops).map RecordTrace.replay where
  count body h := h.countAlert body
  apply op h := op.represents_append h

/-- A recording that starts with an empty session and an empty log. -/
def Recording.start (runId sessionId : ByteString) (start : TimestampPair)
    (config : RuntimeConfig) (infoHash : ByteString) : Recording where
  stats := SessionStats.new runId sessionId start
  writer := { config := config, infoHash := infoHash }

theorem represents_recording {runId sessionId infoHash : ByteString} {start : TimestampPair}
    {config : RuntimeConfig} {steps : List (RunStep A)} {r : Recording}
    (hrun : (Recording.start runId sessionId start config infoHash).run steps = .ok r) :
    Represents r.stats fun e =>
      (tracesOf e (opsOf config.snapshotIntervalMs steps)).map RecordTrace.replay := by
  have hnew : Represents (Recording.start runId sessionId start config infoHash).stats
      fun e => (tracesOf e ([] : List (SessionOp A))).map RecordTrace.replay :=
    represents_new runId sessionId start
  exact followsOps_represents.run hnew hrun

/-- Every record after a run is the replay of a trace. -/
theorem exists_trace_of_run {runId sessionId infoHash : ByteString} {start : TimestampPair}
    {config : RuntimeConfig} {steps : List (RunStep A)} {r : Recording}
    (hrun : (Recording.start runId sessionId start config infoHash).run steps = .ok r)
    {key : String} {p : PeerStats} (hp : r.stats.peersByKey[key]? = some p) :
    ∃ t, IsTraceOf (opsOf config.snapshotIntervalMs steps) key t ∧
      p.setPiecesFinished 0 = t.replay := by
  obtain ⟨n, t, hkey, ht, hreplay⟩ := (represents_recording hrun).exists_trace hp
  exact ⟨t, ⟨_, n, hkey, ht⟩, hreplay⟩

end Runs

end BtClient
