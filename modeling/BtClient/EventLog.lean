import BtClient.AlertOps

/-!
# The event log agrees with the statistics

The log and the statistics are written side by side. After any sequence of
drained batches and snapshots the keys in the log are the keys of the records,
every counter of a record is the number of its lines in the log, and the
session-wide counters are numbers of lines.
-/

namespace BtClient

/-! ### Reading a line of the log -/

namespace Json

def asText? : Json → Option String
  | .string s => ByteString.toText? s
  | _ => none

/-- The event type of a line. -/
def loggedType (line : Json) : Option String :=
  (line.find "event_type").bind asText?

/-- The peer key of a line. -/
def loggedKey (line : Json) : Option String :=
  (line.find "peer_key").bind asText?

end Json

theorem find_event_peer_key (writer : EventWriter) (ts : TimestampPair) (eventType : String)
    (payload : Json) (peerContext : Option EventPeerContext) :
    (writer.event ts eventType payload peerContext).find "peer_key" =
      peerContext.map fun context => Json.text context.peerKey := by
  cases peerContext <;>
    simp [EventWriter.event, Json.find, Json.Members.lookup_set, Json.Members.ofList]

theorem find_event_event_type (writer : EventWriter) (ts : TimestampPair) (eventType : String)
    (payload : Json) (peerContext : Option EventPeerContext) :
    (writer.event ts eventType payload peerContext).find "event_type" =
      some (Json.text eventType) := by
  cases peerContext <;>
    simp [EventWriter.event, Json.find, Json.Members.lookup_set, Json.Members.ofList]

theorem loggedKey_event (writer : EventWriter) (ts : TimestampPair) (eventType : String)
    (payload : Json) (peerContext : Option EventPeerContext) :
    (writer.event ts eventType payload peerContext).loggedKey =
      peerContext.map EventPeerContext.peerKey := by
  rw [Json.loggedKey, find_event_peer_key]
  cases peerContext with
  | none => rfl
  | some context => exact ByteString.toText?_ofString context.peerKey

theorem loggedType_event (writer : EventWriter) (ts : TimestampPair) (eventType : String)
    (payload : Json) (peerContext : Option EventPeerContext) :
    (writer.event ts eventType payload peerContext).loggedType = some eventType := by
  rw [Json.loggedType, find_event_event_type]
  exact ByteString.toText?_ofString eventType

/-- The name under which the events of a kind are logged. -/
def CounterKind.eventName : CounterKind → String
  | .requestSent => "block_request_sent"
  | .blockResponse => "block_response_received"
  | .timeout => "block_timeout"
  | .drop => "request_dropped"
  | .incomingRequest => "incoming_request"
  | .blockUploaded => "block_uploaded"
  | .snubbed => "peer_snubbed"
  | .unsnubbed => "peer_unsnubbed"

/-- The events that are counted for the session as a whole. -/
inductive SessionEvent where
  | trackerAnnounce | trackerReply | trackerError | trackerWarning
  | peerError | incomingConnection | pieceFinished | alertsDropped

def SessionEvent.eventName : SessionEvent → String
  | .trackerAnnounce => "tracker_announce"
  | .trackerReply => "tracker_reply"
  | .trackerError => "tracker_error"
  | .trackerWarning => "tracker_warning"
  | .peerError => "peer_error"
  | .incomingConnection => "incoming_connection"
  | .pieceFinished => "piece_finished"
  | .alertsDropped => "alerts_dropped"

/-- The counter of a session-wide event; finished pieces are counted under two
headings. -/
def SessionStats.sessionCounter (s : SessionStats) : SessionEvent → ℕ
  | .trackerAnnounce => s.trackerAnnounces
  | .trackerReply => s.trackerReplies
  | .trackerError => s.trackerErrors
  | .trackerWarning => s.trackerWarnings
  | .peerError => s.peerErrorCount
  | .incomingConnection => s.incomingConnectionCount
  | .pieceFinished => s.pieceCompletions + s.verificationPieceCompletions
  | .alertsDropped => s.alertsDroppedNotifications

/-- The lines of one event type. -/
def linesOfType (eventType : String) (lines : List Json) : List Json :=
  lines.filter fun line => line.loggedType = some eventType

/-- The agreement between the statistics and the lines of the log. -/
structure LogAgrees (s : SessionStats) (lines : List Json) : Prop where
  keys : ∀ k : String, k ∈ s.peersByKey ↔ ∃ line ∈ lines, line.loggedKey = some k
  counters : ∀ (k : String) (p : PeerStats) (kind : CounterKind), s.peersByKey[k]? = some p →
    p.counter kind = (linesOfType kind.eventName lines).countP fun line =>
      line.loggedKey = some k
  connects : s.successfulPeerConnects =
    ((linesOfType "peer_connected" lines).filterMap Json.loggedKey).dedup.length
  disconnects : s.disconnectCount = (linesOfType "peer_disconnected" lines).length
  disconnectKeys : ((linesOfType "peer_disconnected" lines).map Json.loggedKey).Nodup
  session : ∀ event : SessionEvent,
    s.sessionCounter event = (linesOfType event.eventName lines).length

/-! ### One line for one operation on a record -/

/-- The event types under which an operation may be logged. -/
structure PeerOp.LogsAs {A : Type} (op : PeerOp A) (eventType : String) : Prop where
  kind : ∀ k : CounterKind, eventType = k.eventName ↔ op.kind? = some k
  connect : eventType = "peer_connected" ↔ op.isConnect = true
  disconnect : eventType = "peer_disconnected" ↔ op.closes = true

theorem AlertBody.logsAs {A : Type} {body : AlertBody A} {ts : TimestampPair} {op : PeerOp A}
    {eventType : String} (hop : body.op? ts = some (.peer op))
    (htype : body.eventType? = some eventType) : op.LogsAs eventType := by
  cases body <;> cases hop <;> cases htype <;>
    exact ⟨fun k => by cases k <;> simp [CounterKind.eventName, PeerOp.kind?, PeerCall.kind],
      by simp [PeerOp.isConnect], by simp [PeerOp.closes]⟩

theorem PeerOp.snapshot_logsAs {A : Type} (peer : PeerInfo A) (ts : TimestampPair)
    (snapshotIntervalMs : Int) :
    (PeerOp.snapshot peer ts snapshotIntervalMs).LogsAs "peer_snapshot" :=
  ⟨fun k => by cases k <;> simp [CounterKind.eventName, PeerOp.kind?],
    by simp [PeerOp.isConnect], by simp [PeerOp.closes]⟩

section PeerLines

variable {A : Type} [Address A]

/-- The operation finds its record or creates it under a key that is not in use. -/
theorem PeerOp.ensured_cases (op : PeerOp A) {s : SessionStats}
    {v : String → Generations PeerStats} (h : Represents s v) :
    (s.peersByKey[(op.ensured s).key]? = some (op.ensured s).peer ∧
        (op.ensured s).stats.peersByKey = s.peersByKey) ∨
      (s.peersByKey[(op.ensured s).key]? = none ∧
        (∃ n, (op.ensured s).peer = op.opened n) ∧
        (op.ensured s).stats.peersByKey =
          s.peersByKey.insert (op.ensured s).key (op.ensured s).peer) := by
  have hget := (op.ensured s).getElem?_key
  have hcases : (op.ensured s).stats.peersByKey = s.peersByKey ∨
      ∃ n, s.peersByKey[(op.ensured s).key]? = none ∧
        (op.ensured s).stats.peersByKey =
          s.peersByKey.insert (op.ensured s).key (op.opened n) := by
    cases op with
    | connect endpoint pid ts direction transport => exact peersByKey_ensure h _ _ _ _
    | event endpoint pid ts call => exact peersByKey_ensure h _ _ _ _
    | disconnect endpoint pid ts => exact peersByKey_ensure h _ _ _ _
    | snapshot peer ts snapshotIntervalMs => exact peersByKey_ensure h _ _ _ _
  rcases hcases with heq | ⟨n, hnone, heq⟩
  · rw [heq] at hget
    exact Or.inl ⟨hget, heq⟩
  · rw [heq, Std.ExtTreeMap.getElem?_insert_self] at hget
    have hpeer := Option.some.inj hget
    rw [hpeer] at heq
    exact Or.inr ⟨hnone, ⟨n, hpeer.symm⟩, heq⟩

omit [Address A] in
@[simp] theorem PeerHandle.key_modify (f : PeerStats → PeerStats) (h : PeerHandle) :
    (h.modify f).key = h.key := rfl

omit [Address A] in
@[simp] theorem PeerHandle.key_call (ts : TimestampPair) (c : PeerCall) (h : PeerHandle) :
    (h.call ts c).key = h.key := by
  cases c <;> rfl

omit [Address A] in
@[simp] theorem PeerHandle.key_close (h : PeerHandle) :
    h.eraseActive.countDisconnect.key = h.key := rfl

theorem PeerOp.key_ensured (op : PeerOp A) (s : SessionStats) :
    (op.apply s).key = (op.ensured s).key := by
  cases op with
  | connect endpoint pid ts direction transport =>
      simp only [apply, ensured, SessionStats.notePeerConnect, PeerHandle.key_modify]
      split <;> rfl
  | event endpoint pid ts call =>
      cases call with
      | none => simp [apply, ensured, SessionStats.notePeerEvent]
      | some c => simp [apply, ensured, SessionStats.notePeerEvent]
  | disconnect endpoint pid ts =>
      simp [apply, ensured, SessionStats.notePeerDisconnect, SessionStats.notePeerEvent]
  | snapshot peer ts snapshotIntervalMs =>
      simp [apply, ensured, SessionStats.notePeerSnapshot]

/-- The operation leaves the other records alone. -/
theorem PeerOp.getElem?_apply_of_ne (op : PeerOp A) {s : SessionStats}
    {v : String → Generations PeerStats} (h : Represents s v) {k : String}
    (hk : (op.apply s).key ≠ k) : (op.apply s).stats.peersByKey[k]? = s.peersByKey[k]? := by
  rw [op.key_ensured] at hk
  have hne : compare (op.ensured s).key k ≠ .eq := fun heq =>
    hk (Std.LawfulEqCmp.compare_eq_iff_eq.mp heq)
  rw [op.peersByKey_apply, PeerHandle.modify, Std.ExtTreeMap.getElem?_insert, if_neg hne]
  rcases op.ensured_cases h with ⟨-, heq⟩ | ⟨-, -, heq⟩
  · rw [heq]
  · rw [heq, Std.ExtTreeMap.getElem?_insert, if_neg hne]

theorem PeerOp.getElem?_apply_key (op : PeerOp A) (s : SessionStats) :
    (op.apply s).stats.peersByKey[(op.apply s).key]? =
      some (op.change (op.ensured s).peer) := by
  rw [op.key_ensured, op.peersByKey_apply, PeerHandle.modify,
    Std.ExtTreeMap.getElem?_insert_self]

/-- The lines about the record `k` of one type. -/
def keyLines (eventType k : String) (lines : List Json) : List Json :=
  lines.filter fun line => line.loggedType = some eventType ∧ line.loggedKey = some k

/-- The part of the agreement that is about the records. -/
structure PeerLog (s : SessionStats) (lines : List Json) : Prop where
  keys : ∀ k : String, k ∈ s.peersByKey ↔ ∃ line ∈ lines, line.loggedKey = some k
  counters : ∀ (k : String) (p : PeerStats) (kind : CounterKind), s.peersByKey[k]? = some p →
    p.counter kind = (keyLines kind.eventName k lines).length
  connected : ∀ (k : String) (p : PeerStats), s.peersByKey[k]? = some p →
    (p.sawConnectAlert = true ↔ keyLines "peer_connected" k lines ≠ [])
  disconnected : ∀ (k : String) (p : PeerStats), s.peersByKey[k]? = some p →
    (p.activeConnection = false ↔ keyLines "peer_disconnected" k lines ≠ [])
  disconnectKeys : ((linesOfType "peer_disconnected" lines).map Json.loggedKey).Nodup
  keyed : ∀ line ∈ lines, line.loggedType = some "peer_disconnected" →
    line.loggedKey.isSome

theorem keyLines_append (eventType k : String) (lines : List Json) (line : Json) :
    keyLines eventType k (lines ++ [line]) = keyLines eventType k lines ++
      if line.loggedType = some eventType ∧ line.loggedKey = some k then [line] else [] := by
  rw [keyLines, List.filter_append]
  congr 1
  by_cases hline : line.loggedType = some eventType ∧ line.loggedKey = some k
  · simp [hline]
  · simp [hline]

theorem linesOfType_append (eventType : String) (lines : List Json) (line : Json) :
    linesOfType eventType (lines ++ [line]) = linesOfType eventType lines ++
      if line.loggedType = some eventType then [line] else [] := by
  rw [linesOfType, List.filter_append]
  congr 1
  by_cases hline : line.loggedType = some eventType
  · simp [hline]
  · simp [hline]

theorem mem_keyLines {eventType k : String} {lines : List Json} {line : Json} :
    line ∈ keyLines eventType k lines ↔
      line ∈ lines ∧ line.loggedType = some eventType ∧ line.loggedKey = some k := by
  simp [keyLines]

/-- The lines of a key that is not in use. -/
theorem PeerLog.keyLines_eq_nil {s : SessionStats} {lines : List Json} (h : PeerLog s lines)
    {k : String} (hk : s.peersByKey[k]? = none) (eventType : String) :
    keyLines eventType k lines = [] := by
  rw [List.eq_nil_iff_forall_not_mem]
  intro line hline
  obtain ⟨hmem, -, hkey⟩ := mem_keyLines.mp hline
  have hin := (h.keys k).mpr ⟨line, hmem, hkey⟩
  rw [Std.ExtTreeMap.mem_iff_isSome_getElem?, hk] at hin
  cases hin

/-- A key with lines is the key of a record. -/
theorem PeerLog.exists_of_keyLines {s : SessionStats} {lines : List Json}
    (h : PeerLog s lines) {eventType k : String} (hne : keyLines eventType k lines ≠ []) :
    ∃ p, s.peersByKey[k]? = some p := by
  cases hk : s.peersByKey[k]? with
  | some p => exact ⟨p, rfl⟩
  | none => exact absurd (h.keyLines_eq_nil hk eventType) hne

/-- The record an operation is about agrees with the lines before the operation,
also when the operation creates it. -/
theorem PeerLog.ensured {s : SessionStats} {v : String → Generations PeerStats}
    {lines : List Json} (hlog : PeerLog s lines) (h : Represents s v) (op : PeerOp A) :
    (∀ kind, (op.ensured s).peer.counter kind =
        (keyLines kind.eventName (op.ensured s).key lines).length) ∧
      ((op.ensured s).peer.sawConnectAlert = true ↔
        keyLines "peer_connected" (op.ensured s).key lines ≠ []) ∧
      ((op.ensured s).peer.activeConnection = false ↔
        keyLines "peer_disconnected" (op.ensured s).key lines ≠ []) := by
  rcases op.ensured_cases h with ⟨hsome, -⟩ | ⟨hnone, ⟨n, hpeer⟩, -⟩
  · exact ⟨fun kind => hlog.counters _ _ kind hsome, hlog.connected _ _ hsome,
      hlog.disconnected _ _ hsome⟩
  · have hcore := op.core_opened n
    have hcounter := congrArg PeerCore.counter hcore
    have hsaw := congrArg PeerCore.sawConnectAlert hcore
    have hactive := congrArg PeerCore.activeConnection hcore
    rw [hpeer]
    refine ⟨?_, ?_, ?_⟩
    · intro kind
      rw [hlog.keyLines_eq_nil hnone]
      exact congrFun hcounter kind
    · rw [hlog.keyLines_eq_nil hnone]
      have hfalse : (op.opened n).sawConnectAlert = false := hsaw
      simp [hfalse]
    · rw [hlog.keyLines_eq_nil hnone]
      have htrue : (op.opened n).activeConnection = true := hactive
      simp [htrue]

/-- An operation on a record and its line keep the agreement. -/
theorem PeerLog.apply {s : SessionStats} {v : String → Generations PeerStats}
    {lines : List Json} (hlog : PeerLog s lines) (h : Represents s v) (op : PeerOp A)
    (hactive : ActiveLast (v op.endpointKey)) {line : Json} {eventType : String}
    (htype : line.loggedType = some eventType) (hkey : line.loggedKey = some (op.apply s).key)
    (hlogs : op.LogsAs eventType) : PeerLog (op.apply s).stats (lines ++ [line]) := by
  obtain ⟨hcounters, hconnected, hdisconnected⟩ := hlog.ensured h op
  have hfound := op.activeConnection_ensured h hactive
  have hself := op.getElem?_apply_key s
  have hsame : ∀ k, (op.apply s).key ≠ k → line.loggedKey ≠ some k := by
    intro k hk heq
    rw [hkey] at heq
    exact hk (Option.some.inj heq)
  rw [← op.key_ensured] at hcounters hconnected hdisconnected
  have hnone : keyLines "peer_disconnected" (op.apply s).key lines = [] := by
    by_contra hne
    have hfalse := hdisconnected.mpr hne
    rw [hfound] at hfalse
    cases hfalse
  constructor
  · intro k
    by_cases hk : (op.apply s).key = k
    · subst hk
      exact ⟨fun _ => ⟨line, by simp, hkey⟩, fun _ => (op.apply s).valid⟩
    · rw [Std.ExtTreeMap.mem_iff_isSome_getElem?, op.getElem?_apply_of_ne h hk,
        ← Std.ExtTreeMap.mem_iff_isSome_getElem?, hlog.keys]
      constructor
      · rintro ⟨l, hl, hlk⟩
        exact ⟨l, by simp [hl], hlk⟩
      · rintro ⟨l, hl, hlk⟩
        rcases List.mem_append.mp hl with hl | hl
        · exact ⟨l, hl, hlk⟩
        · rw [List.mem_singleton.mp hl] at hlk
          exact absurd hlk (hsame k hk)
  · intro k p kind hp
    rw [keyLines_append]
    by_cases hk : (op.apply s).key = k
    · subst hk
      rw [hself] at hp
      rw [← Option.some.inj hp, op.counter_change, hcounters]
      by_cases hkind : eventType = kind.eventName
      · rw [if_pos ((hlogs.kind kind).mp hkind),
          if_pos ⟨by rw [htype, hkind], hkey⟩]
        simp
      · rw [if_neg fun heq => hkind ((hlogs.kind kind).mpr heq),
          if_neg fun heq => hkind (Option.some.inj (htype.symm.trans heq.1))]
        simp
    · rw [op.getElem?_apply_of_ne h hk] at hp
      rw [if_neg fun heq => hsame k hk heq.2, List.append_nil]
      exact hlog.counters k p kind hp
  · intro k p hp
    rw [keyLines_append]
    by_cases hk : (op.apply s).key = k
    · subst hk
      rw [hself] at hp
      rw [← Option.some.inj hp, op.sawConnectAlert_change, Bool.or_eq_true, hconnected,
        ← hlogs.connect]
      by_cases hconnect : eventType = "peer_connected"
      · rw [if_pos ⟨by rw [htype, hconnect], hkey⟩]
        simp [hconnect]
      · rw [if_neg fun heq => hconnect (Option.some.inj (htype.symm.trans heq.1))]
        simp [hconnect]
    · rw [op.getElem?_apply_of_ne h hk] at hp
      rw [if_neg fun heq => hsame k hk heq.2, List.append_nil]
      exact hlog.connected k p hp
  · intro k p hp
    rw [keyLines_append]
    by_cases hk : (op.apply s).key = k
    · subst hk
      rw [hself] at hp
      rw [← Option.some.inj hp, op.activeConnection_change hfound, hnone, List.nil_append,
        Bool.not_eq_false', ← hlogs.disconnect]
      by_cases hclose : eventType = "peer_disconnected"
      · rw [if_pos ⟨by rw [htype, hclose], hkey⟩]
        simp [hclose]
      · rw [if_neg fun heq => hclose (Option.some.inj (htype.symm.trans heq.1))]
        simp [hclose]
    · rw [op.getElem?_apply_of_ne h hk] at hp
      rw [if_neg fun heq => hsame k hk heq.2, List.append_nil]
      exact hlog.disconnected k p hp
  · rw [linesOfType_append]
    split
    · next hdisc =>
        rw [List.map_append, List.nodup_append]
        refine ⟨hlog.disconnectKeys, by simp, ?_⟩
        rintro a ha b hb rfl
        obtain ⟨l, hl, hla⟩ := List.mem_map.mp ha
        have hkeyed : a = some (op.apply s).key := by
          simpa [hkey] using hb
        obtain ⟨hmem, hltype⟩ := List.mem_filter.mp hl
        have hin : l ∈ keyLines "peer_disconnected" (op.apply s).key lines :=
          mem_keyLines.mpr ⟨hmem, by simpa using hltype, by rw [hla, hkeyed]⟩
        rw [hnone] at hin
        cases hin
    · rw [List.append_nil]
      exact hlog.disconnectKeys
  · intro l hl hltype
    rcases List.mem_append.mp hl with hl | hl
    · exact hlog.keyed l hl hltype
    · rw [List.mem_singleton.mp hl, hkey]
      rfl

/-- A line without a key that is not about a disconnect. -/
theorem PeerLog.append {s : SessionStats} {lines : List Json} (hlog : PeerLog s lines)
    {line : Json} (hkey : line.loggedKey = none)
    (htype : line.loggedType ≠ some "peer_disconnected") : PeerLog s (lines ++ [line]) := by
  have hkeyLines : ∀ eventType k, keyLines eventType k (lines ++ [line]) =
      keyLines eventType k lines := by
    intro eventType k
    rw [keyLines_append, if_neg, List.append_nil]
    rintro ⟨-, heq⟩
    rw [hkey] at heq
    cases heq
  constructor
  · intro k
    rw [hlog.keys]
    constructor
    · rintro ⟨l, hl, hlk⟩
      exact ⟨l, by simp [hl], hlk⟩
    · rintro ⟨l, hl, hlk⟩
      rcases List.mem_append.mp hl with hl | hl
      · exact ⟨l, hl, hlk⟩
      · rw [List.mem_singleton.mp hl, hkey] at hlk
        cases hlk
  · intro k p kind hp
    rw [hkeyLines]
    exact hlog.counters k p kind hp
  · intro k p hp
    rw [hkeyLines]
    exact hlog.connected k p hp
  · intro k p hp
    rw [hkeyLines]
    exact hlog.disconnected k p hp
  · rw [linesOfType_append, if_neg htype, List.append_nil]
    exact hlog.disconnectKeys
  · intro l hl hltype
    rcases List.mem_append.mp hl with hl | hl
    · exact hlog.keyed l hl hltype
    · rw [List.mem_singleton.mp hl] at hltype
      exact absurd hltype htype

/-- Only the cores of the records matter. -/
theorem PeerLog.of_core {s s' : SessionStats} {lines : List Json} (hlog : PeerLog s lines)
    (hcore : ∀ k : String, (s'.peersByKey[k]?).map PeerStats.core =
      (s.peersByKey[k]?).map PeerStats.core) : PeerLog s' lines := by
  have hrecord : ∀ (k : String) (p' : PeerStats), s'.peersByKey[k]? = some p' →
      ∃ p, s.peersByKey[k]? = some p ∧ p.core = p'.core := by
    intro k p' hp'
    have hk := hcore k
    rw [hp'] at hk
    obtain ⟨p, hp, heq⟩ := Option.map_eq_some_iff.mp hk.symm
    exact ⟨p, hp, heq⟩
  refine ⟨?_, ?_, ?_, ?_, hlog.disconnectKeys, hlog.keyed⟩
  · intro k
    rw [← hlog.keys, Std.ExtTreeMap.mem_iff_isSome_getElem?,
      Std.ExtTreeMap.mem_iff_isSome_getElem?,
      ← Option.isSome_map (f := PeerStats.core), hcore, Option.isSome_map]
  · intro k p' kind hp'
    obtain ⟨p, hp, heq⟩ := hrecord k p' hp'
    have hcounter := congrArg PeerCore.counter heq
    exact (congrFun hcounter kind).symm.trans (hlog.counters k p kind hp)
  · intro k p' hp'
    obtain ⟨p, hp, heq⟩ := hrecord k p' hp'
    have hsaw : p.sawConnectAlert = p'.sawConnectAlert := congrArg PeerCore.sawConnectAlert heq
    rw [← hsaw]
    exact hlog.connected k p hp
  · intro k p' hp'
    obtain ⟨p, hp, heq⟩ := hrecord k p' hp'
    have hact : p.activeConnection = p'.activeConnection :=
      congrArg PeerCore.activeConnection heq
    rw [← hact]
    exact hlog.disconnected k p hp

end PeerLines

/-! ### The other operations -/

section Frames

theorem core_creditFinishedPiece (s : SessionStats) (key k : String) :
    ((s.creditFinishedPiece key).peersByKey[k]?).map PeerStats.core =
      (s.peersByKey[k]?).map PeerStats.core := by
  unfold SessionStats.creditFinishedPiece
  split
  · next p hp =>
      simp only [PeerHandle.modify, Std.ExtTreeMap.getElem?_insert]
      split
      · next heq =>
          rw [← Std.LawfulEqCmp.compare_eq_iff_eq.mp heq, hp]
          exact congrArg some (PeerStats.core_setPiecesFinished (p.piecesFinished + 1) p)
      · rfl
  · rfl

theorem core_notePieceFinished (s : SessionStats) (pieceIndex : Int) (k : String) :
    ((s.notePieceFinished pieceIndex).peersByKey[k]?).map PeerStats.core =
      (s.peersByKey[k]?).map PeerStats.core := by
  unfold SessionStats.notePieceFinished
  split
  · rfl
  · simp only
    split
    · rfl
    · exact core_creditFinishedPiece _ _ _

theorem core_noteAlertLoss (s : SessionStats) (droppedAlertTypeBits : ℕ) (k : String) :
    ((s.noteAlertLoss droppedAlertTypeBits).peersByKey[k]?).map PeerStats.core =
      (s.peersByKey[k]?).map PeerStats.core := by
  simp only [SessionStats.noteAlertLoss, SessionStats.mapPeers, Std.ExtTreeMap.getElem?_map,
    Option.map_map]
  rfl

variable {A : Type} [Address A]

/-- An operation that is not about a peer keeps the cores of all records. -/
theorem SessionOp.core_apply_of_not_peer (op : SessionOp A) (s : SessionStats)
    (h : ∀ op', op ≠ .peer op') (k : String) :
    ((op.apply s).peersByKey[k]?).map PeerStats.core =
      (s.peersByKey[k]?).map PeerStats.core := by
  cases op with
  | peer op => exact absurd rfl (h op)
  | pieceFinished pieceIndex => exact core_notePieceFinished s pieceIndex k
  | alertLoss bits => exact core_noteAlertLoss s bits k
  | torrentState state => rfl
  | sessionSnapshot status => rfl
  | initialTotals status => rfl

theorem sessionCounter_ensure (s : SessionStats) (endpoint : Endpoint A) (ts : TimestampPair)
    (direction transport : String) :
    (s.ensurePeerForEndpoint endpoint ts direction transport).stats.sessionCounter =
      s.sessionCounter := by
  unfold SessionStats.ensurePeerForEndpoint
  simp only
  split <;> (funext event; cases event <;> rfl)

omit [Address A] in
@[simp] theorem PeerHandle.sessionCounter_modify (f : PeerStats → PeerStats) (h : PeerHandle) :
    (h.modify f).stats.sessionCounter = h.stats.sessionCounter := by
  funext event
  cases event <;> rfl

omit [Address A] in
@[simp] theorem PeerHandle.sessionCounter_call (ts : TimestampPair) (c : PeerCall)
    (h : PeerHandle) : (h.call ts c).stats.sessionCounter = h.stats.sessionCounter := by
  funext event
  cases c <;> cases event <;> rfl

omit [Address A] in
theorem PeerHandle.sessionCounter_countConnect (h : PeerHandle) :
    (if h.peer.sawConnectAlert then h else h.countConnect).stats.sessionCounter =
      h.stats.sessionCounter := by
  funext event
  split <;> cases event <;> rfl

omit [Address A] in
@[simp] theorem PeerHandle.sessionCounter_close (h : PeerHandle) :
    h.eraseActive.countDisconnect.stats.sessionCounter = h.stats.sessionCounter := by
  funext event
  cases event <;> rfl

/-- An operation about a peer leaves the session-wide counters alone. -/
theorem PeerOp.sessionCounter_apply (op : PeerOp A) (s : SessionStats) :
    (op.apply s).stats.sessionCounter = s.sessionCounter := by
  cases op with
  | connect endpoint pid ts direction transport =>
      simp [apply, SessionStats.notePeerConnect, PeerHandle.sessionCounter_countConnect,
        sessionCounter_ensure]
  | event endpoint pid ts call =>
      cases call with
      | none => simp [apply, SessionStats.notePeerEvent, sessionCounter_ensure]
      | some c => simp [apply, SessionStats.notePeerEvent, sessionCounter_ensure]
  | disconnect endpoint pid ts =>
      simp [apply, SessionStats.notePeerDisconnect, SessionStats.notePeerEvent,
        sessionCounter_ensure]
  | snapshot peer ts snapshotIntervalMs =>
      simp [apply, SessionStats.notePeerSnapshot, sessionCounter_ensure]

theorem sessionCounter_notePieceFinished (s : SessionStats) (pieceIndex : Int)
    (event : SessionEvent) :
    (s.notePieceFinished pieceIndex).sessionCounter event =
      s.sessionCounter event + if event.eventName = "piece_finished" then 1 else 0 := by
  have hcredit : ∀ (s : SessionStats) (key : String),
      (s.creditFinishedPiece key).sessionCounter event = s.sessionCounter event := by
    intro s key
    unfold SessionStats.creditFinishedPiece
    split <;> cases event <;> rfl
  unfold SessionStats.notePieceFinished
  split
  · cases event <;> simp [SessionStats.sessionCounter, SessionEvent.eventName]
    omega
  · simp only
    split
    · cases event <;> simp [SessionStats.sessionCounter, SessionEvent.eventName]
      omega
    · rw [hcredit]
      cases event <;> simp [SessionStats.sessionCounter, SessionEvent.eventName]
      omega

/-- The session-wide event that an operation counts. -/
def SessionOp.countedType? : Option (SessionOp A) → Option String
  | some (.pieceFinished _) => some "piece_finished"
  | some (.alertLoss _) => some "alerts_dropped"
  | _ => none

theorem sessionCounter_applyOption (s : SessionStats) (op : Option (SessionOp A))
    (event : SessionEvent) :
    (SessionOp.applyOption s op).sessionCounter event = s.sessionCounter event +
      if SessionOp.countedType? op = some event.eventName then 1 else 0 := by
  cases op with
  | none => rfl
  | some op =>
      cases op with
      | peer op => exact congrFun (op.sessionCounter_apply s) event
      | pieceFinished pieceIndex =>
          have hpiece := sessionCounter_notePieceFinished s pieceIndex event
          simpa [SessionOp.applyOption, SessionOp.apply, SessionOp.countedType?, eq_comm]
            using hpiece
      | alertLoss bits => cases event <;> rfl
      | torrentState state => cases event <;> rfl
      | sessionSnapshot status => cases event <;> rfl
      | initialTotals status => cases event <;> rfl

/-- The session-wide event that `drain_alerts` counts itself. -/
def AlertBody.countedType? : AlertBody A → Option String
  | .trackerAnnounce _ _ => some "tracker_announce"
  | .trackerReply _ _ => some "tracker_reply"
  | .trackerError _ _ _ _ _ => some "tracker_error"
  | .trackerWarning _ _ => some "tracker_warning"
  | .peerError _ _ _ _ => some "peer_error"
  | .incomingConnection _ _ => some "incoming_connection"
  | _ => none

omit [Address A] in
theorem sessionCounter_countAlert (s : SessionStats) (body : AlertBody A)
    (event : SessionEvent) :
    (s.countAlert body).sessionCounter event = s.sessionCounter event +
      if body.countedType? = some event.eventName then 1 else 0 := by
  cases body <;> cases event <;> rfl

omit [Address A] in
/-- Every session-wide event is counted in one of the two places. -/
theorem AlertBody.eventType_counted (body : AlertBody A) (ts : TimestampPair)
    (event : SessionEvent) :
    (if body.eventType? = some event.eventName then 1 else 0) =
      (if body.countedType? = some event.eventName then 1 else 0) +
        if SessionOp.countedType? (body.op? ts) = some event.eventName then 1 else 0 := by
  cases body <;> cases event <;>
    simp [eventType?, countedType?, op?, SessionOp.countedType?, SessionEvent.eventName]

/-- Handling an alert counts a session-wide event exactly when its line is of that
type. -/
theorem sessionCounter_handleAlert (s : SessionStats) (ts : TimestampPair) (alert : Alert A)
    (event : SessionEvent) :
    (handleAlert s ts alert).1.sessionCounter event = s.sessionCounter event +
      if alert.body.eventType? = some event.eventName then 1 else 0 := by
  rw [handleAlert_stats, sessionCounter_applyOption, sessionCounter_countAlert,
    alert.body.eventType_counted ts, Nat.add_assoc]

end Frames

/-! ### Runs -/

/-- What the run keeps between two lines of the log. -/
structure LogInvariant (s : SessionStats) (lines : List Json) : Prop where
  history : ∃ v, Represents s v ∧ ∀ e, ActiveLast (v e)
  counted : Counted s
  peers : PeerLog s lines
  session : ∀ event : SessionEvent,
    s.sessionCounter event = (linesOfType event.eventName lines).length

theorem writeEvent_ok {writer writer' : EventWriter} {ts : TimestampPair} {eventType : String}
    {payload : Json} {peerContext : Option EventPeerContext}
    (h : writer.writeEvent ts eventType payload peerContext = .ok writer') :
    writer' = { writer with
      lines := writer.lines ++ [writer.event ts eventType payload peerContext] } := by
  unfold EventWriter.writeEvent at h
  simp only at h
  split at h
  · cases h
    rfl
  · cases h

section Runs

variable {A : Type} [Address A]

omit [Address A] in
theorem peersByKey_countAlert (s : SessionStats) (body : AlertBody A) :
    (s.countAlert body).peersByKey = s.peersByKey := by
  cases body <;> rfl

omit [Address A] in
theorem Counted.countAlert {s : SessionStats} (h : Counted s) (body : AlertBody A) :
    Counted (s.countAlert body) :=
  h.of_eq (counts_countAlert s body) (peersByKey_countAlert s body)

omit [Address A] in
theorem AlertBody.peer_of_disconnected {body : AlertBody A}
    (h : body.eventType? = some "peer_disconnected") (ts : TimestampPair) :
    ∃ op, body.op? ts = some (.peer op) := by
  cases body <;> simp [eventType?] at h
  exact ⟨_, rfl⟩

/-- Apart from the lines, an alert keeps the history and the counts of the session. -/
theorem LogInvariant.handleAlert {s : SessionStats} {lines : List Json}
    (h : LogInvariant s lines) (ts : TimestampPair) (alert : Alert A) :
    (∃ v, Represents (handleAlert s ts alert).1 v ∧ ∀ e, ActiveLast (v e)) ∧
      Counted (BtClient.handleAlert s ts alert).1 := by
  obtain ⟨v, hrep, hactive⟩ := h.history
  refine ⟨⟨_, represents_handleAlert hrep ts alert, fun e =>
    SessionOp.activeLast_historyOption _ e (hactive e)⟩, ?_⟩
  rw [handleAlert_stats]
  cases hop : alert.body.op? ts with
  | none => exact h.counted.countAlert alert.body
  | some op =>
      exact op.counted_apply (hrep.countAlert alert.body) hactive
        (h.counted.countAlert alert.body)

/-- The records agree with the log after the line of an alert. -/
theorem PeerLog.handleAlert {s : SessionStats} {lines : List Json} (h : LogInvariant s lines)
    (ts : TimestampPair) (alert : Alert A) {line : Json} {eventType : String}
    (htype : alert.body.eventType? = some eventType) (hline : line.loggedType = some eventType)
    (hkey : line.loggedKey =
      SessionOp.loggedKey (s.countAlert alert.body) (alert.body.op? ts)) :
    PeerLog (handleAlert s ts alert).1 (lines ++ [line]) := by
  obtain ⟨v, hrep, hactive⟩ := h.history
  have hcount := hrep.countAlert alert.body
  have hpeers : PeerLog (s.countAlert alert.body) lines := h.peers.of_core fun k => by
    rw [peersByKey_countAlert]
  have hother : (∀ op, alert.body.op? ts ≠ some (.peer op)) →
      eventType ≠ "peer_disconnected" := by
    rintro hnot rfl
    obtain ⟨op, hop⟩ := AlertBody.peer_of_disconnected htype ts
    exact hnot op hop
  rw [handleAlert_stats]
  cases hop : alert.body.op? ts with
  | none =>
      rw [hop] at hkey
      apply hpeers.append hkey
      rw [hline]
      intro heq
      exact hother (by rw [hop]; simp) (Option.some.inj heq)
  | some sop =>
      rw [hop] at hkey
      by_cases hpeer : ∃ op, sop = .peer op
      · obtain ⟨op, rfl⟩ := hpeer
        have hpeerKey := op.peerKey_apply hcount
        apply hpeers.apply hcount op (hactive _) hline _ (AlertBody.logsAs hop htype)
        rw [← hpeerKey]
        exact hkey
      · have hnot : ∀ op, sop ≠ .peer op := fun op heq => hpeer ⟨op, heq⟩
        have hcore : PeerLog (sop.apply (s.countAlert alert.body)) lines :=
          hpeers.of_core fun k => sop.core_apply_of_not_peer _ hnot k
        apply hcore.append
        · rw [hkey]
          cases sop with
          | peer op => exact absurd rfl (hnot op)
          | _ => rfl
        · rw [hline]
          intro heq
          exact hother (by rw [hop]; intro op heq; exact hnot op (Option.some.inj heq))
            (Option.some.inj heq)

theorem LogInvariant.recordAlert {r r' : Recording} {timed : TimedAlert A}
    (h : LogInvariant r.stats r.writer.lines) (hr : r.recordAlert timed = .ok r') :
    LogInvariant r'.stats r'.writer.lines := by
  obtain ⟨hhistory, hcounted⟩ := h.handleAlert timed.ts timed.alert
  have hsession := sessionCounter_handleAlert r.stats timed.ts timed.alert
  have hrequest := handleAlert_request r.stats timed.ts timed.alert
  unfold Recording.recordAlert at hr
  split at hr
  · next stats heq =>
      rw [heq] at hhistory hcounted hsession hrequest
      cases hr
      have hnone : timed.alert.body.eventType? = none := by
        simpa using hrequest.symm
      refine ⟨hhistory, hcounted, ?_, ?_⟩
      · have hstats := handleAlert_stats r.stats timed.ts timed.alert
        have hunhandled : SessionOp.applyOption (r.stats.countAlert timed.alert.body)
            (timed.alert.body.op? timed.ts) = r.stats := by
          cases hbody : timed.alert.body <;> rw [hbody] at hnone <;> cases hnone
          rfl
        rw [heq, hunhandled] at hstats
        simp only at hstats
        rw [hstats]
        exact h.peers
      · intro event
        rw [hsession event, hnone, if_neg (by simp)]
        exact h.session event
  · next stats request heq =>
      rw [heq] at hhistory hcounted hsession hrequest
      split at hr
      · next writer hwrite =>
          cases hr
          rw [writeEvent_ok hwrite]
          have hsome : timed.alert.body.eventType? = some request.eventType := by
            cases htype : timed.alert.body.eventType? with
            | none =>
                rw [htype] at hrequest
                cases hrequest
            | some t =>
                rw [htype] at hrequest
                have hpair := Option.some.inj hrequest
                rw [(Prod.mk.inj hpair).1]
          have hkey : request.peerContext.map EventPeerContext.peerKey =
              SessionOp.loggedKey (r.stats.countAlert timed.alert.body)
                (timed.alert.body.op? timed.ts) := by
            rw [hsome] at hrequest
            exact (Prod.mk.inj (Option.some.inj hrequest)).2
          have hpeers := PeerLog.handleAlert h timed.ts timed.alert hsome
            (loggedType_event r.writer timed.writeTs request.eventType request.payload
              request.peerContext)
            ((loggedKey_event _ _ _ _ _).trans hkey)
          rw [heq] at hpeers
          refine ⟨hhistory, hcounted, hpeers, ?_⟩
          intro event
          rw [hsession event, linesOfType_append, loggedType_event, hsome, List.length_append,
            h.session event]
          split <;> rfl
      · cases hr

theorem LogInvariant.drainAlerts {r r' : Recording} {alerts : List (TimedAlert A)}
    (h : LogInvariant r.stats r.writer.lines) (hr : r.drainAlerts alerts = .ok r') :
    LogInvariant r'.stats r'.writer.lines := by
  induction alerts generalizing r with
  | nil =>
      cases hr
      exact h
  | cons timed rest ih =>
      unfold Recording.drainAlerts at hr
      split at hr
      · next r₁ hr₁ => exact ih (h.recordAlert hr₁) hr
      · cases hr

/-- A line that is not about a peer and not counted. -/
theorem LogInvariant.writeEvent {s : SessionStats} {writer writer' : EventWriter}
    {ts : TimestampPair} {eventType : String} {payload : Json}
    (h : LogInvariant s writer.lines)
    (hwrite : writer.writeEvent ts eventType payload none = .ok writer')
    (hdisc : eventType ≠ "peer_disconnected")
    (hsession : ∀ event : SessionEvent, event.eventName ≠ eventType) :
    LogInvariant s writer'.lines := by
  have htype := loggedType_event writer ts eventType payload none
  rw [writeEvent_ok hwrite]
  refine ⟨h.history, h.counted, h.peers.append (loggedKey_event _ _ _ _ _) ?_, ?_⟩
  · rw [htype]
    exact fun heq => hdisc (Option.some.inj heq)
  · intro event
    rw [linesOfType_append, htype,
      if_neg fun heq => hsession event (Option.some.inj heq).symm, List.append_nil]
    exact h.session event

theorem LogInvariant.recordSessionSnapshot {s : SessionStats} {lines : List Json}
    (h : LogInvariant s lines) (status : TorrentStatus) :
    LogInvariant (s.recordSessionSnapshot status) lines := by
  obtain ⟨v, hrep, hactive⟩ := h.history
  refine ⟨⟨v, hrep.of_maps_eq rfl rfl rfl rfl, hactive⟩, h.counted.of_eq rfl rfl,
    h.peers.of_core fun k => rfl, ?_⟩
  intro event
  rw [← h.session event]
  cases event <;> rfl

/-- The snapshot of a peer and its line. -/
theorem LogInvariant.recordPeerSnapshot {r r' : Recording} {ts writeTs : TimestampPair}
    {peer : PeerInfo A} (h : LogInvariant r.stats r.writer.lines)
    (hr : r.recordPeerSnapshot ts writeTs peer = .ok r') :
    LogInvariant r'.stats r'.writer.lines := by
  obtain ⟨v, hrep, hactive⟩ := h.history
  unfold Recording.recordPeerSnapshot at hr
  simp only at hr
  split at hr
  · next writer hwrite =>
      cases hr
      rw [writeEvent_ok hwrite]
      have happly : r.stats.notePeerSnapshot peer ts r.writer.config.snapshotIntervalMs =
          (PeerOp.snapshot peer ts r.writer.config.snapshotIntervalMs).apply r.stats := rfl
      have hlogs := PeerOp.snapshot_logsAs peer ts r.writer.config.snapshotIntervalMs
      rw [happly]
      generalize PeerOp.snapshot peer ts r.writer.config.snapshotIntervalMs = op at hlogs ⊢
      have hkey := op.peerKey_apply hrep
      refine ⟨⟨_, op.represents_apply hrep, ?_⟩, op.counted_apply hrep (hactive _) h.counted,
        ?_, ?_⟩
      · intro e
        by_cases he : e = op.endpointKey
        · subst he
          rw [Function.update_self]
          exact op.activeLast_history (hactive _)
        · rw [Function.update_of_ne he]
          exact hactive e
      · apply h.peers.apply hrep op (hactive _) (loggedType_event _ _ _ _ _) _
          hlogs
        rw [loggedKey_event]
        exact congrArg some hkey
      · intro event
        rw [linesOfType_append, loggedType_event, if_neg, List.append_nil]
        · rw [op.sessionCounter_apply, h.session event]
        · cases event <;> simp [SessionEvent.eventName]
  · cases hr

theorem LogInvariant.recordPeerSnapshots {r r' : Recording} {ts : TimestampPair}
    {peers : List (TimestampPair × PeerInfo A)} (h : LogInvariant r.stats r.writer.lines)
    (hr : r.recordPeerSnapshots ts peers = .ok r') :
    LogInvariant r'.stats r'.writer.lines := by
  induction peers generalizing r with
  | nil =>
      cases hr
      exact h
  | cons entry rest ih =>
      obtain ⟨writeTs, peer⟩ := entry
      unfold Recording.recordPeerSnapshots at hr
      split at hr
      · next r₁ hr₁ => exact ih (h.recordPeerSnapshot hr₁) hr
      · cases hr

theorem LogInvariant.captureSnapshots {r r' : Recording} {input : SnapshotInput A}
    (h : LogInvariant r.stats r.writer.lines) (hr : r.captureSnapshots input = .ok r') :
    LogInvariant r'.stats r'.writer.lines := by
  unfold Recording.captureSnapshots at hr
  split at hr
  · cases hr
  · next writer hwrite =>
      split at hr
      · cases hr
      · next writer' hwrite' =>
          have hfirst := (h.recordSessionSnapshot input.status).writeEvent hwrite (by decide)
            (fun event => by cases event <;> simp [SessionEvent.eventName])
          have hsecond := hfirst.writeEvent hwrite' (by decide)
            (fun event => by cases event <;> simp [SessionEvent.eventName])
          exact LogInvariant.recordPeerSnapshots hsecond hr

end Runs

/-- A call of the main loop. -/
inductive RunStep (A : Type) where
  | drainAlerts (batch : List (TimedAlert A))
  | captureSnapshots (input : SnapshotInput A)

namespace Recording

variable {A : Type} [Address A]

def runStep (r : Recording) : RunStep A → Except Failure Recording
  | .drainAlerts batch => r.drainAlerts batch
  | .captureSnapshots input => r.captureSnapshots input

/-- The calls of a run, as long as all lines can be written. -/
def run (r : Recording) : List (RunStep A) → Except Failure Recording
  | [] => .ok r
  | step :: rest =>
      match r.runStep step with
      | .ok r => r.run rest
      | .error failure => .error failure

end Recording

section Agreement

variable {A : Type} [Address A]

theorem LogInvariant.run {r r' : Recording} {steps : List (RunStep A)}
    (h : LogInvariant r.stats r.writer.lines) (hr : r.run steps = .ok r') :
    LogInvariant r'.stats r'.writer.lines := by
  induction steps generalizing r with
  | nil =>
      cases hr
      exact h
  | cons step rest ih =>
      unfold Recording.run at hr
      split at hr
      · next r₁ hr₁ =>
          cases step with
          | drainAlerts batch =>
              have hdrain : r.drainAlerts batch = .ok r₁ := hr₁
              exact ih (h.drainAlerts hdrain) hr
          | captureSnapshots input =>
              have hcapture : r.captureSnapshots input = .ok r₁ := hr₁
              exact ih (h.captureSnapshots hcapture) hr
      · cases hr

theorem logInvariant_new (runId sessionId : ByteString) (start : TimestampPair) :
    LogInvariant (SessionStats.new runId sessionId start) [] where
  history := ⟨_, represents_new runId sessionId start, fun _ => Generations.Splits.empty⟩
  counted := ⟨(MapTotal.total_empty _).symm, (MapTotal.total_empty _).symm⟩
  peers :=
    { keys k := by simp [SessionStats.new]
      counters k p kind hp := by simp [SessionStats.new] at hp
      connected k p hp := by simp [SessionStats.new] at hp
      disconnected k p hp := by simp [SessionStats.new] at hp
      disconnectKeys := List.nodup_nil
      keyed line hline := by cases hline }
  session event := by cases event <;> rfl

omit [Address A] in
theorem mem_loggedKeys {eventType : String} {lines : List Json} {k : String} :
    k ∈ (linesOfType eventType lines).filterMap Json.loggedKey ↔
      keyLines eventType k lines ≠ [] := by
  rw [List.mem_filterMap]
  constructor
  · rintro ⟨line, hline, hkey⟩
    obtain ⟨hmem, htype⟩ := List.mem_filter.mp hline
    exact List.ne_nil_of_mem (mem_keyLines.mpr ⟨hmem, by simpa using htype, hkey⟩)
  · intro hne
    obtain ⟨line, hline⟩ := List.exists_mem_of_ne_nil _ hne
    obtain ⟨hmem, htype, hkey⟩ := mem_keyLines.mp hline
    exact ⟨line, List.mem_filter.mpr ⟨hmem, by simpa using htype⟩, hkey⟩

omit [Address A] in
theorem LogInvariant.agrees {s : SessionStats} {lines : List Json} (h : LogInvariant s lines) :
    LogAgrees s lines where
  keys := h.peers.keys
  counters k p kind hp := by
    rw [h.peers.counters k p kind hp, keyLines, linesOfType, List.countP_filter,
      List.countP_eq_length_filter]
    congr 2
    funext line
    simp [and_comm]
  connects := by
    rw [h.counted.connects]
    apply MapTotal.tally_eq_length _ _ (List.nodup_dedup _)
    intro k
    rw [List.mem_dedup, mem_loggedKeys]
    constructor
    · intro hne
      obtain ⟨p, hp⟩ := h.peers.exists_of_keyLines hne
      exact ⟨p, hp, (h.peers.connected k p hp).mpr hne⟩
    · rintro ⟨p, hp, hsaw⟩
      exact (h.peers.connected k p hp).mp hsaw
  disconnects := by
    have hlength : (linesOfType "peer_disconnected" lines).length =
        ((linesOfType "peer_disconnected" lines).filterMap Json.loggedKey).length := by
      rw [List.length_filterMap_eq_countP, eq_comm, List.countP_eq_length]
      intro line hline
      obtain ⟨hmem, htype⟩ := List.mem_filter.mp hline
      exact h.peers.keyed line hmem (by simpa using htype)
    rw [h.counted.disconnects, hlength]
    apply MapTotal.tally_eq_length
    · have hmap : (linesOfType "peer_disconnected" lines).filterMap Json.loggedKey =
          ((linesOfType "peer_disconnected" lines).map Json.loggedKey).filterMap id := by
        rw [List.filterMap_map]
        rfl
      rw [hmap]
      apply List.Nodup.filterMap _ h.peers.disconnectKeys
      intro a a' b hb hb'
      exact (Option.mem_def.mp hb).trans (Option.mem_def.mp hb').symm
    · intro k
      rw [mem_loggedKeys]
      constructor
      · intro hne
        obtain ⟨p, hp⟩ := h.peers.exists_of_keyLines hne
        exact ⟨p, hp, by simp [(h.peers.disconnected k p hp).mpr hne]⟩
      · rintro ⟨p, hp, hactive⟩
        exact (h.peers.disconnected k p hp).mp (by simpa using hactive)
  disconnectKeys := h.peers.disconnectKeys
  session := h.session

/-- After any run of drained batches and snapshots in which all lines were written, the
log and the statistics agree. -/
theorem logAgrees_run (runId sessionId : ByteString) (start : TimestampPair)
    (config : RuntimeConfig) (infoHash : ByteString) (steps : List (RunStep A)) (r : Recording)
    (hrun : (Recording.mk (SessionStats.new runId sessionId start)
      { config := config, infoHash := infoHash }).run steps = .ok r) :
    LogAgrees r.stats r.writer.lines := by
  have hnew : LogInvariant (SessionStats.new runId sessionId start)
      (EventWriter.mk config infoHash []).lines := logInvariant_new runId sessionId start
  exact (LogInvariant.run hnew hrun).agrees

end Agreement

/-- A run with one peer that is seen in a snapshot before it disconnects. -/
def sampleSteps : List (RunStep AddressV4) :=
  [.drainAlerts [sampleConnect 10, sampleRequest 20],
    .captureSnapshots
      { ts := ⟨"2024-01-01T00:00:01Z", 30⟩
        status := { state := .downloading, numPeers := 1 }
        isListening := true
        listenPort := 51413
        sessionWriteTs := {}
        torrentWriteTs := {}
        peers := [({}, { ip := samplePeer, totalDownload := 16384 })] },
    .drainAlerts [sampleDisconnect 40]]

theorem logAgrees_sampleSteps :
    ∃ r, sampleStart.run sampleSteps = .ok r ∧ LogAgrees r.stats r.writer.lines := by
  obtain ⟨r, hr⟩ := exists_of_isOk (x := sampleStart.run sampleSteps) (by decide +kernel)
  exact ⟨r, hr, logAgrees_run _ _ _ _ _ sampleSteps r hr⟩

end BtClient
