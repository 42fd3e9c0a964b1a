import BtClient.Drain

/-!
# Text that peers supply

The name that a peer gives for its client goes into the `peer_snapshot` line as it came.
A line is written only if all strings in it are UTF-8, so one name that is not UTF-8 ends
`capture_snapshots` with an exception.
-/

namespace BtClient

/-- The strings that the writer puts into every line are UTF-8. -/
def EventWriter.EnvelopeIsUtf8 (writer : EventWriter) : Prop :=
  ∀ s ∈ [writer.config.runId, writer.config.sessionId, writer.config.nodeRole,
    writer.config.torrentSource, writer.infoHash], ByteString.IsValidUtf8 s

instance (writer : EventWriter) : Decidable writer.EnvelopeIsUtf8 :=
  inferInstanceAs (Decidable (∀ s ∈ _, _))

namespace EventWriter

variable (writer : EventWriter) (ts : TimestampPair) (eventType : String) (payload : Json)
  (peerContext : Option EventPeerContext)

theorem isUtf8_event (henvelope : writer.EnvelopeIsUtf8) (hpayload : payload.isUtf8 = true) :
    (writer.event ts eventType payload peerContext).isUtf8 = true := by
  have hstring : ∀ s ∈ [writer.config.runId, writer.config.sessionId, writer.config.nodeRole,
      writer.config.torrentSource, writer.infoHash], (Json.string s).isUtf8 = true :=
    fun s hs => decide_eq_true (henvelope s hs)
  have hhash : (if writer.infoHash.isEmpty then Json.null
      else .string writer.infoHash).isUtf8 = true := by
    split
    · rfl
    · exact hstring _ (by simp)
  have henvelope' := Json.isUtf8_obj (l := [
      ("utc_ts", Json.text ts.utcTs),
      ("mono_ns", .integer ts.monoNs),
      ("run_id", .string writer.config.runId),
      ("session_id", .string writer.config.sessionId),
      ("event_type", Json.text eventType),
      ("node_role", .string writer.config.nodeRole),
      ("torrent_source", .string writer.config.torrentSource),
      ("info_hash", if writer.infoHash.isEmpty then .null else .string writer.infoHash)]) (by
    simp only [List.forall_mem_cons, Json.isUtf8_text, hhash, true_and, List.not_mem_nil,
      false_implies, implies_true, and_true]
    exact ⟨rfl, hstring _ (by simp), hstring _ (by simp), hstring _ (by simp),
      hstring _ (by simp)⟩)
  cases peerContext with
  | none => exact Json.Members.isUtf8_set henvelope' hpayload
  | some context =>
      apply Json.Members.isUtf8_set _ hpayload
      apply Json.Members.isUtf8_set _ (Json.isUtf8_text _)
      apply Json.Members.isUtf8_set _ (Json.isUtf8_text _)
      apply Json.Members.isUtf8_set _ rfl
      apply Json.Members.isUtf8_set _ (Json.isUtf8_text _)
      exact Json.Members.isUtf8_set henvelope' (Json.isUtf8_text _)

/-- The members of a line that are not texts of the program. -/
theorem find_event_envelope :
    (writer.event ts eventType payload peerContext).find "run_id" =
        some (.string writer.config.runId) ∧
      (writer.event ts eventType payload peerContext).find "session_id" =
        some (.string writer.config.sessionId) ∧
      (writer.event ts eventType payload peerContext).find "node_role" =
        some (.string writer.config.nodeRole) ∧
      (writer.event ts eventType payload peerContext).find "torrent_source" =
        some (.string writer.config.torrentSource) ∧
      (writer.event ts eventType payload peerContext).find "info_hash" =
        some (if writer.infoHash.isEmpty then .null else .string writer.infoHash) ∧
      (writer.event ts eventType payload peerContext).find "payload" = some payload := by
  cases peerContext <;>
    simp [EventWriter.event, Json.find, Json.Members.lookup_set, Json.Members.ofList]

/-- A line can be written exactly if its payload and the strings of every line are UTF-8. -/
theorem isUtf8_event_iff :
    (writer.event ts eventType payload peerContext).isUtf8 = true ↔
      writer.EnvelopeIsUtf8 ∧ payload.isUtf8 = true := by
  constructor
  · intro h
    obtain ⟨hrun, hsession, hrole, hsource, hhash, hpayload⟩ :=
      writer.find_event_envelope ts eventType payload peerContext
    have hvalid : ∀ {k : String} {s : ByteString},
        (writer.event ts eventType payload peerContext).find k = some (.string s) →
        ByteString.IsValidUtf8 s := fun hfind =>
      of_decide_eq_true (Json.isUtf8_of_find h hfind)
    refine ⟨?_, Json.isUtf8_of_find h hpayload⟩
    simp only [EnvelopeIsUtf8, List.forall_mem_cons, List.not_mem_nil, false_implies,
      implies_true, and_true]
    refine ⟨hvalid hrun, hvalid hsession, hvalid hrole, hvalid hsource, ?_⟩
    cases hempty : writer.infoHash.isEmpty with
    | true =>
        rw [List.isEmpty_iff.mp hempty]
        decide
    | false =>
        rw [hempty] at hhash
        exact hvalid hhash
  · rintro ⟨henvelope, hpayload⟩
    exact writer.isUtf8_event ts eventType payload peerContext henvelope hpayload

theorem writeEvent_of_isUtf8 (henvelope : writer.EnvelopeIsUtf8)
    (hpayload : payload.isUtf8 = true) :
    writer.writeEvent ts eventType payload peerContext =
      .ok { writer with
        lines := writer.lines ++ [writer.event ts eventType payload peerContext] } :=
  if_pos (writer.isUtf8_event ts eventType payload peerContext henvelope hpayload)

theorem writeEvent_error (h : ¬ (writer.EnvelopeIsUtf8 ∧ payload.isUtf8 = true)) :
    writer.writeEvent ts eventType payload peerContext = .error .invalidUtf8 :=
  if_neg (by rwa [isUtf8_event_iff])

end EventWriter

section Snapshots

variable {A : Type}

theorem isUtf8_textArray (labels : List String) :
    (Json.array (labels.map Json.text)).isUtf8 = true := by
  rw [Json.isUtf8, Json.itemsAreUtf8_iff]
  intro v hv
  obtain ⟨label, -, rfl⟩ := List.mem_map.mp hv
  exact Json.isUtf8_text label

/-- The client name is the only string of a `peer_snapshot` line that a peer chooses. -/
theorem isUtf8_peerSnapshotPayload (peer : PeerInfo A) :
    (peerSnapshotPayload peer).isUtf8 = true ↔ ByteString.IsValidUtf8 peer.client := by
  constructor
  · intro h
    have hfind : (peerSnapshotPayload peer).find "client" = some (.string peer.client) :=
      Json.find_obj (by simp) "client"
    exact of_decide_eq_true (Json.isUtf8_of_find h hfind)
  · intro h
    apply Json.isUtf8_obj
    simp only [List.forall_mem_cons, isUtf8_textArray, Json.isUtf8_text, List.not_mem_nil,
      false_implies, implies_true, and_true, true_and]
    simp [Json.isUtf8, h]

theorem isUtf8_sessionSnapshotPayload (input : SnapshotInput A) :
    (sessionSnapshotPayload input).isUtf8 = true := by
  apply Json.isUtf8_obj
  simp [Json.isUtf8]

theorem isUtf8_torrentSnapshotPayload (status : TorrentStatus) :
    (torrentSnapshotPayload status).isUtf8 = true := by
  apply Json.isUtf8_obj
  simp [Json.isUtf8]

variable [Address A]

/-- The lines of the peers of a snapshot. -/
def peerSnapshotLines (writer : EventWriter) (ts : TimestampPair) :
    SessionStats → List (TimestampPair × PeerInfo A) → List Json
  | _, [] => []
  | s, (writeTs, peer) :: rest =>
      let h := s.notePeerSnapshot peer ts writer.config.snapshotIntervalMs
      writer.event writeTs "peer_snapshot" (peerSnapshotPayload peer) (some h.peer.eventContext) ::
        peerSnapshotLines writer ts h.stats rest

/-- The records after all peers of a snapshot. -/
def notePeerSnapshots (s : SessionStats) (ts : TimestampPair) (snapshotIntervalMs : Int)
    (peers : List (TimestampPair × PeerInfo A)) : SessionStats :=
  peers.foldl (fun s entry => (s.notePeerSnapshot entry.2 ts snapshotIntervalMs).stats) s

/-- The snapshot is recorded completely: the record of every peer is updated, and the log
has grown by a line for the session, one for the torrent and one for each peer. -/
structure SnapshotRecorded (r : Recording) (input : SnapshotInput A) (r' : Recording) : Prop where
  stats : r'.stats = notePeerSnapshots (r.stats.recordSessionSnapshot input.status) input.ts
    r.writer.config.snapshotIntervalMs input.peers
  lines : r'.writer.lines = r.writer.lines ++
    r.writer.event input.sessionWriteTs "session_snapshot" (sessionSnapshotPayload input) none ::
    r.writer.event input.torrentWriteTs "torrent_snapshot"
      (torrentSnapshotPayload input.status) none ::
    peerSnapshotLines r.writer input.ts (r.stats.recordSessionSnapshot input.status) input.peers

theorem peerSnapshotLines_lines (writer : EventWriter) (lines : List Json) (ts : TimestampPair)
    (s : SessionStats) (peers : List (TimestampPair × PeerInfo A)) :
    peerSnapshotLines { writer with lines := lines } ts s peers =
      peerSnapshotLines writer ts s peers := by
  induction peers generalizing s with
  | nil => rfl
  | cons entry rest ih => exact congrArg (List.cons _) (ih _)

/-- The loop over the peers gets through if every client name is UTF-8. -/
theorem recordPeerSnapshots_ok {r : Recording} (henvelope : r.writer.EnvelopeIsUtf8)
    (ts : TimestampPair) {peers : List (TimestampPair × PeerInfo A)}
    (h : ∀ entry ∈ peers, ByteString.IsValidUtf8 entry.2.client) :
    r.recordPeerSnapshots ts peers = .ok
      ⟨notePeerSnapshots r.stats ts r.writer.config.snapshotIntervalMs peers,
        { r.writer with
          lines := r.writer.lines ++ peerSnapshotLines r.writer ts r.stats peers }⟩ := by
  induction peers generalizing r with
  | nil => simp [Recording.recordPeerSnapshots, notePeerSnapshots, peerSnapshotLines]
  | cons entry rest ih =>
      obtain ⟨writeTs, peer⟩ := entry
      rw [List.forall_mem_cons] at h
      have hwrite := r.writer.writeEvent_of_isUtf8 writeTs "peer_snapshot"
        (peerSnapshotPayload peer)
        (some (r.stats.notePeerSnapshot peer ts
          r.writer.config.snapshotIntervalMs).peer.eventContext)
        henvelope ((isUtf8_peerSnapshotPayload peer).mpr h.1)
      have hrest := ih (r := ⟨(r.stats.notePeerSnapshot peer ts
          r.writer.config.snapshotIntervalMs).stats,
        { r.writer with
          lines := r.writer.lines ++ [r.writer.event writeTs "peer_snapshot"
            (peerSnapshotPayload peer) (some (r.stats.notePeerSnapshot peer ts
              r.writer.config.snapshotIntervalMs).peer.eventContext)] }⟩) henvelope h.2
      simp only [Recording.recordPeerSnapshots, Recording.recordPeerSnapshot, hwrite]
      rw [hrest, peerSnapshotLines_lines, List.append_assoc]
      rfl

/-- and throws otherwise. -/
theorem recordPeerSnapshots_error {r : Recording} (ts : TimestampPair)
    {peers : List (TimestampPair × PeerInfo A)}
    (h : ∃ entry ∈ peers, ¬ ByteString.IsValidUtf8 entry.2.client) :
    r.recordPeerSnapshots ts peers = .error .invalidUtf8 := by
  induction peers generalizing r with
  | nil => simp at h
  | cons entry rest ih =>
      obtain ⟨writeTs, peer⟩ := entry
      simp only [Recording.recordPeerSnapshots, Recording.recordPeerSnapshot]
      by_cases hwrite : r.writer.EnvelopeIsUtf8 ∧ (peerSnapshotPayload peer).isUtf8 = true
      · rw [r.writer.writeEvent_of_isUtf8 _ _ _ _ hwrite.1 hwrite.2]
        rw [isUtf8_peerSnapshotPayload] at hwrite
        apply ih
        obtain ⟨entry', hentry', hclient⟩ := h
        rcases List.mem_cons.mp hentry' with rfl | hmem
        · exact absurd hwrite.2 hclient
        · exact ⟨entry', hmem, hclient⟩
      · rw [r.writer.writeEvent_error _ _ _ _ hwrite]

end Snapshots

/-- A snapshot is recorded completely and without an exception exactly if the strings of
every line and the client names of all its peers are UTF-8. -/
theorem captureSnapshots_iff {A : Type} [Address A] (r : Recording) (input : SnapshotInput A) :
    (∃ r', r.captureSnapshots input = .ok r' ∧ SnapshotRecorded r input r') ↔
      r.writer.EnvelopeIsUtf8 ∧ ∀ entry ∈ input.peers, ByteString.IsValidUtf8 entry.2.client := by
  by_cases henvelope : r.writer.EnvelopeIsUtf8
  · have hsession := r.writer.writeEvent_of_isUtf8 input.sessionWriteTs "session_snapshot" _ none
      henvelope (isUtf8_sessionSnapshotPayload input)
    generalize hwriter : { r.writer with lines := r.writer.lines ++ [r.writer.event
      input.sessionWriteTs "session_snapshot" (sessionSnapshotPayload input) none] } = writer
      at hsession
    have henvelope' : writer.EnvelopeIsUtf8 := hwriter ▸ henvelope
    have htorrent := writer.writeEvent_of_isUtf8 input.torrentWriteTs "torrent_snapshot" _ none
      henvelope' (isUtf8_torrentSnapshotPayload input.status)
    simp only [Recording.captureSnapshots, hsession, htorrent]
    constructor
    · rintro ⟨r', hr', -⟩
      refine ⟨henvelope, fun entry hentry => ?_⟩
      by_contra hclient
      rw [recordPeerSnapshots_error input.ts ⟨entry, hentry, hclient⟩] at hr'
      cases hr'
    · rintro ⟨-, hclients⟩
      refine ⟨_, recordPeerSnapshots_ok (by exact henvelope') input.ts hclients, ?_, ?_⟩
      · subst hwriter
        rfl
      · subst hwriter
        simp only [peerSnapshotLines_lines, List.append_assoc]
        rfl
  · have hsession := r.writer.writeEvent_error input.sessionWriteTs "session_snapshot"
      (sessionSnapshotPayload input) none fun h => henvelope h.1
    simp only [Recording.captureSnapshots, hsession]
    constructor
    · rintro ⟨r', hr', -⟩
      cases hr'
    · rintro ⟨h, -⟩
      exact absurd h henvelope

/-- A peer that calls its client by the single byte 255 ends the snapshot with an exception,
and the peer after it is not recorded. -/
theorem not_captureSnapshots_client :
    let writer : EventWriter := { config := { runId := "run", sessionId := "session" } }
    let r : Recording := ⟨SessionStats.new "run" "session" ⟨"", 1⟩, writer⟩
    let peer : PeerInfo AddressV4 := { ip := ⟨⟨10, 0, 0, 1⟩, 6881⟩, client := [255] }
    let other : PeerInfo AddressV4 := { ip := ⟨⟨10, 0, 0, 2⟩, 6881⟩ }
    let input : SnapshotInput AddressV4 := ⟨⟨"", 2⟩, {}, true, 51413, ⟨"", 3⟩, ⟨"", 4⟩,
      [(⟨"", 5⟩, peer), (⟨"", 6⟩, other)]⟩
    writer.EnvelopeIsUtf8 ∧
      ¬ ∃ r', r.captureSnapshots input = .ok r' ∧ SnapshotRecorded r input r' := by
  intro writer r peer other input
  refine ⟨by decide, ?_⟩
  rintro ⟨r', hr', -⟩
  have hthrows : (r.captureSnapshots input).isOk = false := by decide +kernel
  rw [hr'] at hthrows
  cases hthrows

end BtClient
