import BtClient.Library.Authority
import BtClient.PeerKeys

/-!
# The connect alert is authoritative for direction and transport

The direction and the transport of a record are guessed from what created it and from the
snapshots, until the connect alert says them. What an operation says about the two fields is
its `news?`; a record holds what the news settle to, so the connect alert wins in whatever
order alerts and snapshots arrive.
-/

namespace BtClient

/-- The two fields that describe the socket of a connection. -/
inductive SocketField where
  | direction
  | transport

namespace SocketField

/-- The field of a pair of a direction and a transport. -/
def pick : SocketField → String × String → String
  | direction, socket => socket.1
  | transport, socket => socket.2

/-- What a snapshot suggests for the field. -/
def fromPeerInfo {A : Type} (peer : PeerInfo A) : SocketField → String
  | direction => PeerStats.directionFromPeerInfo peer
  | transport => transportFromPeerInfo peer

end SocketField

def PeerFace.socket (f : PeerFace) (field : SocketField) : String :=
  field.pick (f.direction, f.transport)

def PeerStats.socket (p : PeerStats) (field : SocketField) : String := p.face.socket field

section News

variable {A : Type} (field : SocketField)

namespace RecordOp

/-- What the operation says about the field. -/
def news? : RecordOp A → Option (News String)
  | .connect _ direction transport true => some (.authority (field.pick (direction, transport)))
  | .connect _ direction transport false =>
      if field.pick (direction, transport) = "" then none
      else some (.guess (field.pick (direction, transport)))
  | .snapshot peer _ _ => some (.guess (field.fromPeerInfo peer))
  | _ => none

theorem socket_face (op : RecordOp A) (f : PeerFace) :
    (op.face f).socket field =
      (op.news? field).elim (f.socket field) (News.hear "unknown" (f.socket field)) := by
  cases op with
  | connect ts direction transport fromConnectAlert =>
      cases fromConnectAlert with
      | true => cases field <;> rfl
      | false =>
          cases field with
          | direction =>
              by_cases hempty : direction = ""
              · simp [face, PeerFace.connect, PeerFace.guessSocket, PeerFace.socket,
                  SocketField.pick, news?, hempty]
              · simp [face, PeerFace.connect, PeerFace.guessSocket, PeerFace.socket,
                  SocketField.pick, news?, hempty, News.hear]
          | transport =>
              by_cases hempty : transport = ""
              · simp [face, PeerFace.connect, PeerFace.guessSocket, PeerFace.socket,
                  SocketField.pick, news?, hempty]
              · simp [face, PeerFace.connect, PeerFace.guessSocket, PeerFace.socket,
                  SocketField.pick, news?, hempty, News.hear]
  | snapshot peer ts snapshotIntervalMs => cases field <;> rfl
  | _ => rfl

end RecordOp

/-- The field holds what the news about it settle to. -/
theorem PeerStats.socket_run (p : PeerStats) (ops : List (RecordOp A)) :
    (p.run ops).socket field =
      News.settle "unknown" (p.socket field) (ops.filterMap (RecordOp.news? field)) := by
  induction ops generalizing p with
  | nil => rfl
  | cons op ops ih =>
      have hop : (op.apply p).socket field =
          (op.news? field).elim (p.socket field) (News.hear "unknown" (p.socket field)) := by
        have hface := op.socket_face field p.face
        rw [← op.face_apply] at hface
        exact hface
      have hrest : (p.run (op :: ops)).socket field = ((op.apply p).run ops).socket field := rfl
      rw [hrest, ih, hop]
      cases hnews : op.news? field with
      | none =>
          rw [List.filterMap_cons_none hnews]
          rfl
      | some news =>
          rw [List.filterMap_cons_some hnews]
          rfl

end News

/-! ### Connect alerts among the operations -/

section ConnectAlerts

variable {A : Type}

/-- The direction and the transport of the connect alert that the operation stands for. -/
def RecordOp.connectAlert? : RecordOp A → Option (String × String)
  | .connect _ direction transport true => some (direction, transport)
  | _ => none

/-- What a snapshot suggests for the field. -/
def RecordOp.guess? (field : SocketField) : RecordOp A → Option String
  | .snapshot peer _ _ => some (field.fromPeerInfo peer)
  | _ => none

/-- A record is connected by alerts only, and the direction of an alert is known. -/
def RecordOp.IsObserved : RecordOp A → Prop
  | .connect _ direction _ fromConnectAlert => fromConnectAlert = true ∧ direction ≠ "unknown"
  | _ => True

/-- The direction and the transport of a connect are those that the client names. -/
def SessionOp.IsObserved : SessionOp A → Prop
  | .peer (.connect _ _ _ direction transport) =>
      ∃ (d : ConnectDirection) (s : SocketType),
        direction = peerConnectDirectionName d ∧ transport = transportFromSocketType s
  | _ => True

/-- The operations that alerts stand for are of this kind. -/
theorem AlertBody.isObserved_op? {body : AlertBody A} {ts : TimestampPair} {op : SessionOp A}
    (hop : body.op? ts = some op) : op.IsObserved := by
  cases body with
  | peerConnect endpoint pid direction socketType =>
      cases hop
      exact ⟨direction, socketType, rfl, rfl⟩
  | _ =>
      cases hop
      try trivial

/-- So are all operations of a run. -/
theorem isObserved_opsOf (snapshotIntervalMs : Int) (steps : List (RunStep A)) :
    ∀ op ∈ opsOf snapshotIntervalMs steps, op.IsObserved := by
  intro op hop
  obtain ⟨step, -, hstep⟩ := List.mem_flatMap.mp hop
  cases step with
  | drainAlerts batch =>
      obtain ⟨timed, -, htimed⟩ := List.mem_flatMap.mp hstep
      exact AlertBody.isObserved_op? (Option.mem_toList.mp htimed)
  | captureSnapshots input =>
      rcases List.mem_cons.mp hstep with rfl | hpeer
      · trivial
      · obtain ⟨entry, -, rfl⟩ := List.mem_map.mp hpeer
        trivial

theorem peerConnectDirectionName_ne_unknown (d : ConnectDirection) :
    peerConnectDirectionName d ≠ "unknown" := by
  cases d <;> simp [peerConnectDirectionName]

theorem PeerOp.isObserved_recordOps {op : PeerOp A} (h : (SessionOp.peer op).IsObserved) :
    ∀ recordOp ∈ op.recordOps, recordOp.IsObserved := by
  intro recordOp hmem
  cases op with
  | connect endpoint pid ts direction transport =>
      obtain ⟨d, s, rfl, -⟩ := h
      rcases List.mem_cons.mp hmem with rfl | hmem
      · exact ⟨rfl, peerConnectDirectionName_ne_unknown d⟩
      · rw [List.mem_singleton.mp hmem]
        trivial
  | event endpoint pid ts call =>
      cases call with
      | none => simp [recordOps] at hmem; rcases hmem with rfl | rfl <;> trivial
      | some c => simp [recordOps] at hmem; rcases hmem with rfl | rfl | rfl <;> trivial
  | disconnect endpoint pid ts =>
      simp [recordOps] at hmem; rcases hmem with rfl | rfl | rfl <;> trivial
  | snapshot peer ts snapshotIntervalMs =>
      rw [List.mem_singleton.mp hmem]
      trivial

/-- Without connect alerts the news are the guesses of the snapshots. -/
theorem news_of_guesses (field : SocketField) {ops : List (RecordOp A)}
    (hobserved : ∀ op ∈ ops, op.IsObserved) (hnone : ops.filterMap RecordOp.connectAlert? = []) :
    (∀ n ∈ ops.filterMap (RecordOp.news? field), n.isAuthority = false) ∧
      (ops.filterMap (RecordOp.news? field)).map News.value =
        ops.filterMap (RecordOp.guess? field) := by
  induction ops with
  | nil => exact ⟨by simp, rfl⟩
  | cons op ops ih =>
      cases op with
      | connect ts direction transport fromConnectAlert =>
          obtain ⟨rfl, -⟩ := hobserved _ List.mem_cons_self
          simp [RecordOp.connectAlert?] at hnone
      | snapshot peer ts snapshotIntervalMs =>
          obtain ⟨hguess, hvalue⟩ := ih (fun op hop => hobserved op (List.mem_cons_of_mem _ hop))
            hnone
          refine ⟨?_, ?_⟩
          · simpa [RecordOp.news?, News.isAuthority] using hguess
          · simpa [RecordOp.news?, RecordOp.guess?, News.value] using hvalue
      | _ => exact ih (fun op hop => hobserved op (List.mem_cons_of_mem _ hop)) hnone

/-- What the trace of a record says about one of the two fields. -/
structure SocketSettled (field : SocketField) (t : RecordTrace A) (value : String) : Prop where
  /-- A connect alert has the last word, if it knows the value. -/
  connected : ∀ socket, (t.ops.filterMap RecordOp.connectAlert?).getLast? = some socket →
    field.pick socket ≠ "unknown" → value = field.pick socket
  /-- Before it the first known guess counts. -/
  guessed : t.ops.filterMap RecordOp.connectAlert? = [] →
    value = News.firstKnown "unknown"
      (t.created.socket field :: t.ops.filterMap (RecordOp.guess? field))
  /-- A known value is kept through all that is not a connect alert. -/
  kept : ∀ before after, t.ops = before ++ after →
    after.filterMap RecordOp.connectAlert? = [] →
      (t.created.run before).socket field ≠ "unknown" →
        value = (t.created.run before).socket field

theorem socketSettled (field : SocketField) {t : RecordTrace A}
    (hobserved : ∀ op ∈ t.ops, op.IsObserved) :
    SocketSettled field t (t.replay.socket field) := by
  have hsettle : t.replay.socket field = News.settle "unknown" (t.created.socket field)
      (t.ops.filterMap (RecordOp.news? field)) := t.created.socket_run field t.ops
  have hkept : ∀ before after, t.ops = before ++ after →
      after.filterMap RecordOp.connectAlert? = [] →
        (t.created.run before).socket field ≠ "unknown" →
          t.replay.socket field = (t.created.run before).socket field := by
    intro before after hops hnone hknown
    have hguesses := (news_of_guesses field
      (fun op hop => hobserved op (by rw [hops]; exact List.mem_append_right _ hop)) hnone).1
    rw [RecordTrace.replay, hops, PeerStats.run_append, PeerStats.socket_run]
    exact News.settle_of_known "unknown" hknown hguesses
  refine ⟨?_, ?_, hkept⟩
  · intro socket hlast hknown
    obtain ⟨sockets, hsockets⟩ := List.getLast?_eq_some_iff.mp hlast
    obtain ⟨before, rest, hops, -, hrest⟩ := List.filterMap_eq_append_iff.mp hsockets
    obtain ⟨early, op, after, hrest', -, hop, hafter⟩ := List.filterMap_eq_cons_iff.mp hrest
    have hsplit : t.ops = (before ++ early ++ [op]) ++ after := by
      rw [hops, hrest']
      simp
    have hword : (t.created.run (before ++ early ++ [op])).socket field = field.pick socket := by
      rw [PeerStats.run_append]
      cases op with
      | connect ts direction transport fromConnectAlert =>
          cases fromConnectAlert with
          | true =>
              cases hop
              have hface := RecordOp.socket_face field
                (.connect ts direction transport true : RecordOp A)
                (t.created.run (before ++ early)).face
              rw [← RecordOp.face_apply] at hface
              exact hface
          | false => cases hop
      | _ => cases hop
    have hvalue := hkept _ after hsplit hafter (by rw [hword]; exact hknown)
    rw [hvalue, hword]
  · intro hnone
    obtain ⟨hguesses, hvalues⟩ := news_of_guesses field hobserved hnone
    rw [hsettle, News.settle_of_guesses "unknown" _ hguesses, hvalues]

/-- The direction and the transport that the trace of a record leads to. -/
structure SocketFollows (t : RecordTrace A) (p : PeerStats) : Prop where
  /-- After a connect alert the two fields are those of the latest one; its transport counts
  if it is known. -/
  connected : ∀ direction transport,
    (t.ops.filterMap RecordOp.connectAlert?).getLast? = some (direction, transport) →
      p.direction = direction ∧ (transport ≠ "unknown" → p.transport = transport)
  /-- Before it the first known guesses count. -/
  guessed : t.ops.filterMap RecordOp.connectAlert? = [] →
    p.direction = News.firstKnown "unknown"
        (t.created.direction :: t.ops.filterMap (RecordOp.guess? .direction)) ∧
      p.transport = News.firstKnown "unknown"
        (t.created.transport :: t.ops.filterMap (RecordOp.guess? .transport))
  /-- Known values are kept through all that is not a connect alert. -/
  kept : ∀ before after, t.ops = before ++ after →
    after.filterMap RecordOp.connectAlert? = [] →
      ((t.created.run before).direction ≠ "unknown" →
          p.direction = (t.created.run before).direction) ∧
        ((t.created.run before).transport ≠ "unknown" →
          p.transport = (t.created.run before).transport)

theorem RecordOp.direction_known {ops : List (RecordOp A)}
    (hobserved : ∀ op ∈ ops, op.IsObserved) {socket : String × String}
    (hsocket : socket ∈ ops.filterMap RecordOp.connectAlert?) : socket.1 ≠ "unknown" := by
  obtain ⟨op, hop, halert⟩ := List.mem_filterMap.mp hsocket
  have hknown := hobserved op hop
  cases op with
  | connect ts direction transport fromConnectAlert =>
      obtain ⟨rfl, hdirection⟩ := hknown
      cases halert
      exact hdirection
  | _ => cases halert

theorem socketFollows {t : RecordTrace A} (hobserved : ∀ op ∈ t.ops, op.IsObserved) :
    SocketFollows t t.replay := by
  have hdirection := socketSettled .direction hobserved
  have htransport := socketSettled .transport hobserved
  refine ⟨?_, ?_, ?_⟩
  · intro direction transport hlast
    have hknown := RecordOp.direction_known hobserved (List.mem_of_getLast? hlast)
    exact ⟨hdirection.connected _ hlast hknown, htransport.connected _ hlast⟩
  · intro hnone
    exact ⟨hdirection.guessed hnone, htransport.guessed hnone⟩
  · intro before after hops hnone
    exact ⟨hdirection.kept before after hops hnone, htransport.kept before after hops hnone⟩

end ConnectAlerts

/-! ### Sessions -/

section Sessions

variable {A : Type} [Address A]

theorem IsTraceOf.isObserved {ops : List (SessionOp A)} (hobserved : ∀ op ∈ ops, op.IsObserved)
    {key : String} {t : RecordTrace A} (ht : IsTraceOf ops key t) :
    ∀ op ∈ t.ops, op.IsObserved := by
  obtain ⟨e, n, -, hget⟩ := ht
  apply tracesOf_induction_of_mem (P := fun t => ∀ op ∈ t.ops, op.IsObserved) _ _ _ hget
  · intro op hop n recordOp hmem
    cases hmem
  · intro op hop t h recordOp hmem
    rcases List.mem_append.mp hmem with hold | hnew
    · exact h recordOp hold
    · exact PeerOp.isObserved_recordOps (hobserved _ hop) recordOp hnew
  · intro t h recordOp hmem
    rcases List.mem_append.mp hmem with hold | hnew
    · exact h recordOp hold
    · rw [List.mem_singleton.mp hnew]
      trivial

/-- The direction and the transport of the connect alert about the endpoint `e`. -/
def SessionOp.connectAlert? (e : String) : SessionOp A → Option (String × String)
  | .peer (.connect endpoint _ _ direction transport) =>
      if endpointToString endpoint = e then some (direction, transport) else none
  | _ => none

theorem PeerOp.connectAlerts_recordOps (op : PeerOp A) {e : String} (he : op.endpointKey = e) :
    op.recordOps.filterMap RecordOp.connectAlert? =
      (SessionOp.connectAlert? e (.peer op)).toList := by
  cases op with
  | connect endpoint pid ts direction transport =>
      have hendpoint : endpointToString endpoint = e := he
      simp only [SessionOp.connectAlert?, hendpoint, if_true]
      rfl
  | event endpoint pid ts call => cases call <;> rfl
  | _ => rfl

theorem PeerOp.connectAlert?_of_ne (op : PeerOp A) {e : String} (he : op.endpointKey ≠ e) :
    SessionOp.connectAlert? e (.peer op) = none := by
  cases op with
  | connect endpoint pid ts direction transport => exact if_neg he
  | _ => rfl

/-- While an endpoint is not disconnected it has one record, and the connect alerts about the
endpoint are those of the record. -/
theorem connectAlerts_current {e : String} {ops : List (SessionOp A)}
    (hopen : ∀ op ∈ ops, op.disconnects e = false) :
    ((tracesOf e ops).current.elim [] fun t => t.ops.filterMap RecordOp.connectAlert?) =
      ops.filterMap (SessionOp.connectAlert? e) := by
  induction ops using List.reverseRecOn with
  | nil => rfl
  | append_singleton ops op ih =>
      have hbefore := ih fun op hop => hopen op (List.mem_append_left _ hop)
      rw [tracesOf_append_singleton, List.filterMap_append, ← hbefore]
      cases op with
      | peer op =>
          by_cases he : op.endpointKey = e
          · have hcloses : op.closes = false := by
              have hdisconnects := hopen (.peer op) (by simp)
              simpa [SessionOp.disconnects, he] using hdisconnects
            have halerts : [SessionOp.peer op].filterMap (SessionOp.connectAlert? e) =
                op.recordOps.filterMap RecordOp.connectAlert? := by
              rw [op.connectAlerts_recordOps he]
              rfl
            simp only [SessionOp.traces, he, if_true, PeerOp.traces, hcloses,
              Bool.false_eq_true, if_false, Generations.current_update, halerts]
            cases hcurrent : (tracesOf e ops).current with
            | none =>
                rw [Generations.ensureOpen_of_none hcurrent]
                simp [RecordTrace.extend]
            | some t =>
                rw [Generations.ensureOpen_of_current hcurrent, hcurrent]
                simp [RecordTrace.extend]
          · simp [SessionOp.traces, he, op.connectAlert?_of_ne he]
      | alertLoss bits =>
          have hreset : ∀ t : RecordTrace A,
              (t.extend [.reset]).ops.filterMap RecordOp.connectAlert? =
                t.ops.filterMap RecordOp.connectAlert? := by
            intro t
            rw [RecordTrace.extend, List.filterMap_append]
            exact List.append_nil _
          have hnone : [SessionOp.alertLoss bits].filterMap
              (SessionOp.connectAlert? (A := A) e) = [] := rfl
          rw [hnone, List.append_nil]
          cases hcurrent : (tracesOf e ops).current with
          | none => simp [SessionOp.traces, hcurrent]
          | some t =>
              simp only [SessionOp.traces, Generations.current_map, hcurrent, Option.map_some,
                Option.elim_some]
              exact hreset t
      | _ => simp [SessionOp.traces, SessionOp.connectAlert?]

/-- With a single connect alert the record of the endpoint has its direction and transport. -/
theorem socket_of_single_connect (runId sessionId : ByteString) (start : TimestampPair)
    {ops : List (SessionOp A)} (hobserved : ∀ op ∈ ops, op.IsObserved) {endpoint : Endpoint A}
    {direction transport : String}
    (hopen : ∀ op ∈ ops, op.disconnects (endpointToString endpoint) = false)
    (honce : ops.filterMap (SessionOp.connectAlert? (endpointToString endpoint)) =
      [(direction, transport)]) (hknown : transport ≠ "unknown") :
    ∃ p, ((SessionStats.new runId sessionId start).run ops).peersByKey[
        numberedPeerKey (endpointToString endpoint) 1]? = some p ∧
      p.direction = direction ∧ p.transport = transport := by
  have halerts := connectAlerts_current hopen
  rw [honce] at halerts
  cases hcurrent : (tracesOf (endpointToString endpoint) ops).current with
  | none =>
      rw [hcurrent] at halerts
      cases halerts
  | some t =>
      rw [hcurrent] at halerts
      have hclosed : (tracesOf (endpointToString endpoint) ops).closed.length = 0 := by
        rw [length_closed_tracesOf, List.countP_eq_zero]
        intro op hop
        simp [hopen op hop]
      have hget : (tracesOf (endpointToString endpoint) ops).get? 1 = some t := by
        have hcount := Generations.get?_count hcurrent
        rwa [Generations.count_of_current hcurrent, hclosed] at hcount
      have htrace : IsTraceOf ops (numberedPeerKey (endpointToString endpoint) 1) t :=
        ⟨_, 1, rfl, hget⟩
      have hrep := represents_traces runId sessionId start ops
      obtain ⟨p, hp, hreplay⟩ := hrep.getElem?_of_get? (e := endpointToString endpoint) (n := 1)
        (r := t.replay) (by rw [Generations.get?_map, hget]; rfl)
      have hfollows := socketFollows (htrace.isObserved hobserved)
      rw [← hreplay] at hfollows
      have hlast : (t.ops.filterMap RecordOp.connectAlert?).getLast? =
          some (direction, transport) := by
        have hops : t.ops.filterMap RecordOp.connectAlert? = [(direction, transport)] := halerts
        rw [hops]
        rfl
      obtain ⟨hdirection, htransport⟩ := hfollows.connected direction transport hlast
      exact ⟨p, hp, hdirection, htransport hknown⟩

/-- The connect alert is authoritative. In every session each record has the direction and
the transport that its trace leads to, and sessions with the same operations in another order
agree on the record of an endpoint that was connected once and never disconnected. -/
theorem connectAlert_authoritative (runId sessionId : ByteString) (start : TimestampPair)
    (ops : List (SessionOp A)) (hobserved : ∀ op ∈ ops, op.IsObserved) :
    let session := fun ops => (SessionStats.new runId sessionId start).run (A := A) ops
    (∀ (key : String) (p : PeerStats), (session ops).peersByKey[key]? = some p →
      ∃ t, IsTraceOf ops key t ∧ SocketFollows t p) ∧
      ∀ (ops' : List (SessionOp A)) (endpoint : Endpoint A) (direction transport : String),
        ops.Perm ops' →
        (∀ op ∈ ops, op.disconnects (endpointToString endpoint) = false) →
        ops.filterMap (SessionOp.connectAlert? (endpointToString endpoint)) =
          [(direction, transport)] →
        transport ≠ "unknown" →
        ∃ p p', (session ops).peersByKey[numberedPeerKey (endpointToString endpoint) 1]? = some p ∧
          (session ops').peersByKey[numberedPeerKey (endpointToString endpoint) 1]? = some p' ∧
          p.direction = p'.direction ∧ p.transport = p'.transport := by
  intro session
  refine ⟨?_, ?_⟩
  · intro key p hp
    have hrep := represents_traces runId sessionId start ops
    obtain ⟨n, t, hkey, hget, hreplay⟩ := hrep.exists_trace hp
    have htrace : IsTraceOf ops key t := ⟨_, n, hkey, hget⟩
    have hfollows := socketFollows (htrace.isObserved hobserved)
    rw [← hreplay] at hfollows
    exact ⟨t, htrace, hfollows.connected, hfollows.guessed, hfollows.kept⟩
  · intro ops' endpoint direction transport hperm hopen honce hknown
    obtain ⟨p, hp, hdirection, htransport⟩ :=
      socket_of_single_connect runId sessionId start hobserved hopen honce hknown
    have honce' : ops'.filterMap (SessionOp.connectAlert? (endpointToString endpoint)) =
        [(direction, transport)] := by
      have hfilter := hperm.filterMap (SessionOp.connectAlert? (endpointToString endpoint))
      rw [honce] at hfilter
      exact (List.perm_singleton.mp hfilter.symm)
    obtain ⟨p', hp', hdirection', htransport'⟩ :=
      socket_of_single_connect runId sessionId start
        (fun op hop => hobserved op (hperm.mem_iff.mpr hop))
        (fun op hop => hopen op (hperm.mem_iff.mpr hop)) honce' hknown
    exact ⟨p, p', hp, hp', hdirection.trans hdirection'.symm, htransport.trans htransport'.symm⟩

end Sessions

/-- A snapshot before the connect alert guesses the wrong way round. -/
theorem connectAlert_authoritative_sample :
    let ops : List (SessionOp AddressV4) :=
      [.peer (.snapshot { ip := samplePeer, source := {.incoming} } ⟨"", 10⟩ 1000),
        .peer (.connect samplePeer samplePid ⟨"", 20⟩ "outbound" "utp")]
    ∃ p p', ((SessionStats.new [] [] {}).run ops).peersByKey[
        numberedPeerKey (endpointToString samplePeer) 1]? = some p ∧
      ((SessionStats.new [] [] {}).run ops.reverse).peersByKey[
        numberedPeerKey (endpointToString samplePeer) 1]? = some p' ∧
      p.direction = p'.direction ∧ p.transport = p'.transport := by
  intro ops
  have hobserved : ∀ op ∈ ops, op.IsObserved := by
    intro op hop
    rcases List.mem_cons.mp hop with rfl | hop
    · trivial
    · rw [List.mem_singleton.mp hop]
      exact ⟨.outward, .utp, rfl, rfl⟩
  exact (connectAlert_authoritative [] [] {} ops hobserved).2 ops.reverse samplePeer "outbound"
    "utp" (List.reverse_perm ops).symm (by decide) (by decide) (by decide)

end BtClient
