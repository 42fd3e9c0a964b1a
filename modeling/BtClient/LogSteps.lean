import BtClient.RunOps

/-!
# The steps of a run

A drained alert and a snapshot are made up of few kinds of steps on the statistics and the
log: counters of the session advance, an operation on the session is made, a line is
written, or an operation on a record is made and its line written. What each of these steps
keeps, a run keeps. The event types of the lines follow from the calls of the run alone.
-/

namespace BtClient

section Steps

variable {A : Type}

/-- The arguments of the line that is written for an operation on a record. -/
structure PeerOp.Describes (op : PeerOp A) (eventType : String) (payload : Json) : Prop where
  logsAs : op.LogsAs eventType
  snapshot : ∀ peer ts snapshotIntervalMs, op = .snapshot peer ts snapshotIntervalMs →
    eventType = "peer_snapshot" ∧ payload = peerSnapshotPayload peer
  other : (∀ peer ts snapshotIntervalMs, op ≠ .snapshot peer ts snapshotIntervalMs) →
    eventType ≠ "peer_snapshot"

/-- No alert is logged as a snapshot. -/
theorem AlertBody.eventType_ne_snapshot (body : AlertBody A) :
    body.eventType? ≠ some "session_snapshot" ∧ body.eventType? ≠ some "peer_snapshot" := by
  cases body <;> exact ⟨by simp [eventType?], by simp [eventType?]⟩

variable [Address A]

/-- The operation on a record that an alert stands for, with its line. -/
theorem handleAlert_of_peer (s : SessionStats) (ts : TimestampPair) {alert : Alert A}
    {op : PeerOp A} (hop : alert.body.op? ts = some (.peer op)) :
    ∃ eventType payload, op.Describes eventType payload ∧
      handleAlert s ts alert = ((op.apply (s.countAlert alert.body)).stats,
        some ⟨eventType, payload,
          some (op.apply (s.countAlert alert.body)).peer.eventContext⟩) := by
  have hhandle : ∃ eventType payload, alert.body.eventType? = some eventType ∧
      handleAlert s ts alert = ((op.apply (s.countAlert alert.body)).stats,
        some ⟨eventType, payload,
          some (op.apply (s.countAlert alert.body)).peer.eventContext⟩) := by
    obtain ⟨what, message, body⟩ := alert
    cases body <;> cases hop <;> exact ⟨_, _, rfl, rfl⟩
  have hsnapshot : ∀ peer ts' snapshotIntervalMs,
      op ≠ .snapshot peer ts' snapshotIntervalMs := by
    rintro peer ts' snapshotIntervalMs rfl
    cases hbody : alert.body <;> rw [hbody] at hop <;> cases hop
  obtain ⟨eventType, payload, htype, hhandle⟩ := hhandle
  refine ⟨eventType, payload, ⟨AlertBody.logsAs hop htype, ?_, fun _ => ?_⟩, hhandle⟩
  · exact fun peer ts' snapshotIntervalMs heq => absurd heq (hsnapshot peer ts' snapshotIntervalMs)
  · rintro rfl
    exact alert.body.eventType_ne_snapshot.2 htype

/-- An alert that is not about a record: its line names no record. -/
theorem handleAlert_of_not_peer (s : SessionStats) (ts : TimestampPair) {alert : Alert A}
    (hop : ∀ op, alert.body.op? ts ≠ some (.peer op)) :
    ∀ request ∈ (handleAlert s ts alert).2, request.peerContext = none := by
  obtain ⟨what, message, body⟩ := alert
  cases body <;>
    first
      | exact absurd rfl (hop _)
      | (intro request hrequest; cases hrequest <;> rfl)

/-- A step of a run, on the statistics and the lines of the log. -/
inductive LogStep (A : Type) [Address A] :
    SessionStats × List Json → SessionStats × List Json → Prop where
  | count (s : SessionStats) (lines : List Json) (body : AlertBody A) :
      LogStep A (s, lines) (s.countAlert body, lines)
  | session (s : SessionStats) (lines : List Json) (op : SessionOp A)
      (hop : ∀ o, op ≠ .peer o) : LogStep A (s, lines) (op.apply s, lines)
  | line (s : SessionStats) (lines : List Json) (line : Json) (hkey : line.loggedKey = none) :
      LogStep A (s, lines) (s, lines ++ [line])
  | peer (s : SessionStats) (lines : List Json) (op : PeerOp A) (writer : EventWriter)
      (writeTs : TimestampPair) (eventType : String) (payload : Json)
      (hdescribes : op.Describes eventType payload) :
      LogStep A (s, lines) ((op.apply s).stats, lines ++
        [writer.event writeTs eventType payload (some (op.apply s).peer.eventContext)])

/-- The steps of a run, one after the other. -/
abbrev LogSteps (A : Type) [Address A] :
    SessionStats × List Json → SessionStats × List Json → Prop :=
  Relation.ReflTransGen (LogStep A)

/-- The statistics and the lines of a recording. -/
def Recording.logged (r : Recording) : SessionStats × List Json := (r.stats, r.writer.lines)

theorem logSteps_recordAlert {r r' : Recording} {timed : TimedAlert A}
    (hr : r.recordAlert timed = .ok r') : LogSteps A r.logged r'.logged := by
  have hstats := handleAlert_stats r.stats timed.ts timed.alert
  have hcount : LogSteps A r.logged (r.stats.countAlert timed.alert.body, r.writer.lines) :=
    .single (.count _ _ _)
  by_cases hpeer : ∃ op, timed.alert.body.op? timed.ts = some (.peer op)
  · obtain ⟨op, hop⟩ := hpeer
    obtain ⟨eventType, payload, hdescribes, hhandle⟩ :=
      handleAlert_of_peer r.stats timed.ts hop
    unfold Recording.recordAlert at hr
    rw [hhandle] at hr
    simp only at hr
    split at hr
    · next writer hwrite =>
        cases hr
        rw [writeEvent_ok hwrite]
        exact hcount.tail (.peer _ _ op r.writer timed.writeTs eventType payload hdescribes)
    · cases hr
  · have hnot : ∀ op, timed.alert.body.op? timed.ts ≠ some (.peer op) :=
      fun op hop => hpeer ⟨op, hop⟩
    have hkey := handleAlert_of_not_peer r.stats timed.ts hnot
    have hsession : LogSteps A r.logged
        ((handleAlert r.stats timed.ts timed.alert).1, r.writer.lines) := by
      rw [hstats]
      cases hop : timed.alert.body.op? timed.ts with
      | none => exact hcount
      | some op =>
          exact hcount.tail (.session _ _ op fun o ho => hnot o (by rw [hop, ho]))
    unfold Recording.recordAlert at hr
    split at hr
    · next stats heq =>
        cases hr
        rw [heq] at hsession
        exact hsession
    · next stats request heq =>
        rw [heq] at hsession hkey
        split at hr
        · next writer hwrite =>
            cases hr
            rw [writeEvent_ok hwrite]
            refine hsession.tail (.line _ _ _ ?_)
            rw [loggedKey_event, hkey request rfl]
            rfl
        · cases hr

theorem logSteps_drainAlerts {r r' : Recording} {batch : List (TimedAlert A)}
    (hr : r.drainAlerts batch = .ok r') : LogSteps A r.logged r'.logged := by
  induction batch generalizing r with
  | nil =>
      cases hr
      exact .refl
  | cons timed rest ih =>
      unfold Recording.drainAlerts at hr
      split at hr
      · next r₁ hr₁ => exact (logSteps_recordAlert hr₁).trans (ih hr)
      · cases hr

theorem logSteps_recordPeerSnapshots {r r' : Recording} {ts : TimestampPair}
    {peers : List (TimestampPair × PeerInfo A)}
    (hr : r.recordPeerSnapshots ts peers = .ok r') : LogSteps A r.logged r'.logged := by
  induction peers generalizing r with
  | nil =>
      cases hr
      exact .refl
  | cons entry rest ih =>
      obtain ⟨writeTs, peer⟩ := entry
      unfold Recording.recordPeerSnapshots at hr
      split at hr
      · next r₁ hr₁ =>
          unfold Recording.recordPeerSnapshot at hr₁
          simp only at hr₁
          split at hr₁
          · next writer hwrite =>
              cases hr₁
              have hstep : LogStep A r.logged
                  (((PeerOp.snapshot peer ts r.writer.config.snapshotIntervalMs).apply
                    r.stats).stats, writer.lines) := by
                rw [writeEvent_ok hwrite]
                refine .peer _ _ (.snapshot peer ts r.writer.config.snapshotIntervalMs) r.writer
                  writeTs "peer_snapshot" (peerSnapshotPayload peer)
                  ⟨PeerOp.snapshot_logsAs _ _ _, ?_, fun hnot => absurd rfl (hnot _ _ _)⟩
                rintro peer' ts' i' heq
                cases heq
                exact ⟨rfl, rfl⟩
              exact (Relation.ReflTransGen.single hstep).trans (ih hr)
          · cases hr₁
      · cases hr

theorem logSteps_captureSnapshots {r r' : Recording} {input : SnapshotInput A}
    (hr : r.captureSnapshots input = .ok r') : LogSteps A r.logged r'.logged := by
  unfold Recording.captureSnapshots at hr
  split at hr
  · cases hr
  · next writer hwrite =>
      split at hr
      · cases hr
      · next writer' hwrite' =>
          have hlines : LogSteps A r.logged (r.stats, writer'.lines) := by
            rw [writeEvent_ok hwrite', writeEvent_ok hwrite]
            exact (Relation.ReflTransGen.single (.line _ _ _ (loggedKey_event _ _ _ _ _))).tail
              (.line _ _ _ (loggedKey_event _ _ _ _ _))
          have hsession := hlines.tail (.session _ _
            (.sessionSnapshot input.status) fun o ho => by cases ho)
          exact hsession.trans (logSteps_recordPeerSnapshots hr)

/-- A run is made up of the steps. -/
theorem logSteps_run {r r' : Recording} {steps : List (RunStep A)} (hr : r.run steps = .ok r') :
    LogSteps A r.logged r'.logged := by
  induction steps generalizing r with
  | nil =>
      cases hr
      exact .refl
  | cons step rest ih =>
      unfold Recording.run at hr
      split at hr
      · next r₁ hr₁ =>
          refine Relation.ReflTransGen.trans ?_ (ih hr)
          cases step with
          | drainAlerts batch => exact logSteps_drainAlerts hr₁
          | captureSnapshots input => exact logSteps_captureSnapshots hr₁
      · cases hr

/-! ### The event types of the lines -/

/-- The event type of the line that an alert asks for. -/
def TimedAlert.eventTypes (timed : TimedAlert A) : List String :=
  timed.alert.body.eventType?.toList

def SnapshotInput.eventTypes (input : SnapshotInput A) : List String :=
  "session_snapshot" :: "torrent_snapshot" :: input.peers.map fun _ => "peer_snapshot"

/-- The event types of the lines that a call writes, in their order. -/
def RunStep.eventTypes : RunStep A → List String
  | .drainAlerts batch => batch.flatMap TimedAlert.eventTypes
  | .captureSnapshots input => input.eventTypes

/-- The event types of the lines of a recording. -/
def Recording.loggedTypes (r : Recording) : List (Option String) :=
  r.writer.lines.map Json.loggedType

omit [Address A] in
theorem loggedTypes_writeEvent {writer writer' : EventWriter} {ts : TimestampPair}
    {eventType : String} {payload : Json} {peerContext : Option EventPeerContext}
    (h : writer.writeEvent ts eventType payload peerContext = .ok writer') :
    writer'.lines.map Json.loggedType =
      writer.lines.map Json.loggedType ++ [some eventType] := by
  rw [writeEvent_ok h, List.map_append, List.map_singleton, loggedType_event]

theorem loggedTypes_recordAlert {r r' : Recording} {timed : TimedAlert A}
    (hr : r.recordAlert timed = .ok r') :
    r'.loggedTypes = r.loggedTypes ++ timed.eventTypes.map some := by
  have hrequest := handleAlert_request r.stats timed.ts timed.alert
  unfold Recording.recordAlert at hr
  split at hr
  · next stats heq =>
      cases hr
      rw [heq] at hrequest
      have hnone : timed.alert.body.eventType? = none := by simpa using hrequest.symm
      rw [TimedAlert.eventTypes, hnone]
      exact (List.append_nil _).symm
  · next stats request heq =>
      rw [heq] at hrequest
      split at hr
      · next writer hwrite =>
          cases hr
          have hsome : timed.alert.body.eventType? = some request.eventType := by
            rw [Option.map_some, eq_comm, Option.map_eq_some_iff] at hrequest
            obtain ⟨eventType, htype, hpair⟩ := hrequest
            rw [htype, (Prod.mk.inj hpair).1]
          rw [TimedAlert.eventTypes, hsome]
          exact loggedTypes_writeEvent hwrite
      · cases hr

theorem loggedTypes_drainAlerts {r r' : Recording} {batch : List (TimedAlert A)}
    (hr : r.drainAlerts batch = .ok r') :
    r'.loggedTypes = r.loggedTypes ++ (batch.flatMap TimedAlert.eventTypes).map some := by
  induction batch generalizing r with
  | nil =>
      cases hr
      exact (List.append_nil _).symm
  | cons timed rest ih =>
      unfold Recording.drainAlerts at hr
      split at hr
      · next r₁ hr₁ =>
          rw [ih hr, loggedTypes_recordAlert hr₁, List.flatMap_cons, List.map_append,
            List.append_assoc]
      · cases hr

theorem loggedTypes_recordPeerSnapshots {r r' : Recording} {ts : TimestampPair}
    {peers : List (TimestampPair × PeerInfo A)}
    (hr : r.recordPeerSnapshots ts peers = .ok r') :
    r'.loggedTypes = r.loggedTypes ++ peers.map fun _ => some "peer_snapshot" := by
  induction peers generalizing r with
  | nil =>
      cases hr
      exact (List.append_nil _).symm
  | cons entry rest ih =>
      obtain ⟨writeTs, peer⟩ := entry
      unfold Recording.recordPeerSnapshots at hr
      split at hr
      · next r₁ hr₁ =>
          unfold Recording.recordPeerSnapshot at hr₁
          simp only at hr₁
          split at hr₁
          · next writer hwrite =>
              cases hr₁
              have htypes := ih hr
              rw [Recording.loggedTypes, Recording.loggedTypes,
                loggedTypes_writeEvent hwrite] at htypes
              rw [Recording.loggedTypes, htypes, List.append_assoc]
              rfl
          · cases hr₁
      · cases hr

theorem loggedTypes_captureSnapshots {r r' : Recording} {input : SnapshotInput A}
    (hr : r.captureSnapshots input = .ok r') :
    r'.loggedTypes = r.loggedTypes ++ input.eventTypes.map some := by
  unfold Recording.captureSnapshots at hr
  split at hr
  · cases hr
  · next writer hwrite =>
      split at hr
      · cases hr
      · next writer' hwrite' =>
          have htypes := loggedTypes_recordPeerSnapshots hr
          rw [Recording.loggedTypes, Recording.loggedTypes, loggedTypes_writeEvent hwrite',
            loggedTypes_writeEvent hwrite] at htypes
          rw [Recording.loggedTypes, htypes, List.append_assoc, List.append_assoc,
            SnapshotInput.eventTypes, List.map_cons, List.map_cons, List.map_map]
          rfl

/-- The event types in the log of a run are those of its calls, in their order. -/
theorem loggedTypes_run {r r' : Recording} {steps : List (RunStep A)}
    (hr : r.run steps = .ok r') :
    r'.loggedTypes = r.loggedTypes ++ (steps.flatMap RunStep.eventTypes).map some := by
  induction steps generalizing r with
  | nil =>
      cases hr
      exact (List.append_nil _).symm
  | cons step rest ih =>
      unfold Recording.run at hr
      split at hr
      · next r₁ hr₁ =>
          have hstep : r₁.loggedTypes = r.loggedTypes ++ step.eventTypes.map some := by
            cases step with
            | drainAlerts batch => exact loggedTypes_drainAlerts hr₁
            | captureSnapshots input => exact loggedTypes_captureSnapshots hr₁
          rw [ih hr, hstep, List.flatMap_cons, List.map_append, List.append_assoc]
      · cases hr

omit [Address A] in
/-- The lines of a type are counted in the list of the event types. -/
theorem length_linesOfType (eventType : String) (lines : List Json) :
    (linesOfType eventType lines).length =
      (lines.map Json.loggedType).count (some eventType) := by
  rw [linesOfType, ← List.countP_eq_length_filter, List.count, List.countP_map]
  congr 1
  funext line
  rw [Bool.eq_iff_iff]
  simp

end Steps

end BtClient
