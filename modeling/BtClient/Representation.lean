import BtClient.History
import BtClient.Library.MapTotal

/-!
# The representation invariant of the session statistics

The containers of a session, the flags inside its records and two of its
counters agree in every state that the operations can reach: the records of an
endpoint are numbered without gaps, only the newest may be active, the active
map names it, and the counters of disconnects and of connect alerts are numbers
of records.
-/

namespace BtClient

/-- Closed records are inactive and the current one is active. -/
abbrev ActiveLast (g : Generations PeerStats) : Prop :=
  g.Splits (fun r => r.activeConnection = false) (fun r => r.activeConnection = true)

section History

variable {A : Type}

theorem PeerOp.activeConnection_change (op : PeerOp A) {p : PeerStats}
    (h : p.activeConnection = true) : (op.change p).activeConnection = !op.closes := by
  have hcore := congrArg PeerCore.activeConnection (op.core_change p)
  rw [op.activeConnection_changeCore (c := p.core) h] at hcore
  exact hcore

variable [Address A]

theorem PeerOp.activeConnection_opened (op : PeerOp A) (n : ℕ) :
    (op.opened n).activeConnection = true :=
  congrArg PeerCore.activeConnection (op.core_opened n)

theorem PeerOp.activeLast_history (op : PeerOp A) {g : Generations PeerStats}
    (h : ActiveLast g) : ActiveLast (op.history g) := by
  have hopen : ActiveLast (g.ensureOpen op.opened) := h.ensureOpen op.activeConnection_opened
  rw [history_eq, changed]
  cases hop : op.closes with
  | false =>
      apply hopen.update
      intro r hr
      rw [op.activeConnection_change hr, hop]
      rfl
  | true =>
      apply Generations.Splits.close
      apply hopen.update
      intro r hr
      rw [op.activeConnection_change hr, hop]
      rfl

theorem SessionOp.activeLast_history (op : SessionOp A) (e : String)
    {g : Generations PeerStats} (h : ActiveLast g) : ActiveLast (op.history e g) := by
  cases op with
  | peer op =>
      simp only [history]
      split
      · exact op.activeLast_history h
      · exact h
  | alertLoss bits => exact h.map (fun r hr => hr) (fun r hr => hr)
  | pieceFinished pieceIndex => exact h
  | torrentState state => exact h
  | sessionSnapshot status => exact h
  | initialTotals status => exact h

theorem activeLast_historyOf (e : String) (ops : List (SessionOp A))
    {g : Generations PeerStats} (h : ActiveLast g) : ActiveLast (historyOf e ops g) := by
  induction ops generalizing g with
  | nil => exact h
  | cons op ops ih => exact ih (op.activeLast_history e h)

end History

/-! ### The two counters -/

/-- The counters that `SessionStats` keeps next to the records are numbers of
records. -/
structure Counted (s : SessionStats) : Prop where
  disconnects : s.disconnectCount = MapTotal.tally (fun p => !p.activeConnection) s.peersByKey
  connects : s.successfulPeerConnects = MapTotal.tally (fun p => p.sawConnectAlert) s.peersByKey

/-- A write through a handle exchanges one record. -/
theorem PeerHandle.tally_modify (q : PeerStats → Bool) (f : PeerStats → PeerStats)
    (h : PeerHandle) :
    (if q h.peer then 1 else 0) + MapTotal.tally q (h.modify f).stats.peersByKey =
      (if q (f h.peer) then 1 else 0) + MapTotal.tally q h.stats.peersByKey :=
  MapTotal.total_insert_of_getElem? (fun p => if q p then 1 else 0) h.stats.peersByKey
    (f h.peer) h.getElem?_key

theorem PeerHandle.peersByKey_modify_modify (f f' : PeerStats → PeerStats) (h : PeerHandle) :
    ((h.modify f).modify f').stats.peersByKey = (h.modify (f' ∘ f)).stats.peersByKey := by
  have hpeer := h.peer_modify f
  simp only [modify] at hpeer ⊢
  rw [hpeer, MapTotal.insert_insert]
  rfl

section Operations

variable {A : Type} [Address A]

/-- The record an operation finds or creates, before it changes it. -/
def PeerOp.ensured (s : SessionStats) : PeerOp A → PeerHandle
  | .connect endpoint _ ts direction transport =>
      s.ensurePeerForEndpoint endpoint ts direction transport
  | .event endpoint _ ts _ => s.ensurePeerForEndpoint endpoint ts "unknown" "unknown"
  | .disconnect endpoint _ ts => s.ensurePeerForEndpoint endpoint ts "unknown" "unknown"
  | .snapshot peer ts _ =>
      s.ensurePeerForEndpoint peer.ip ts (PeerStats.directionFromPeerInfo peer)
        (transportFromPeerInfo peer)

def PeerOp.isConnect : PeerOp A → Bool
  | .connect _ _ _ _ _ => true
  | _ => false

/-- An operation writes one record. -/
theorem PeerOp.peersByKey_apply (op : PeerOp A) (s : SessionStats) :
    (op.apply s).stats.peersByKey = ((op.ensured s).modify op.change).stats.peersByKey := by
  cases op with
  | connect endpoint pid ts direction transport =>
      simp only [apply, ensured, SessionStats.notePeerConnect]
      rw [PeerHandle.peersByKey_modify_modify]
      split <;> rfl
  | event endpoint pid ts call =>
      cases call with
      | none =>
          simp only [apply, ensured, SessionStats.notePeerEvent]
          rw [PeerHandle.peersByKey_modify_modify]
          rfl
      | some c =>
          have hcall : ∀ h : PeerHandle, (h.call ts c).stats.peersByKey =
              (h.modify (PeerStats.call ts c)).stats.peersByKey := by
            intro h
            cases c <;> rfl
          simp only [apply, ensured, SessionStats.notePeerEvent]
          rw [hcall, PeerHandle.peersByKey_modify_modify, PeerHandle.peersByKey_modify_modify]
          rfl
  | disconnect endpoint pid ts =>
      have hclose : ∀ h : PeerHandle,
          h.eraseActive.countDisconnect.stats.peersByKey = h.stats.peersByKey := fun h => rfl
      simp only [apply, ensured, SessionStats.notePeerDisconnect, SessionStats.notePeerEvent]
      rw [hclose, PeerHandle.peersByKey_modify_modify, PeerHandle.peersByKey_modify_modify]
      rfl
  | snapshot peer ts snapshotIntervalMs => rfl

theorem PeerOp.refers_ensured (op : PeerOp A) {s : SessionStats}
    {v : String → Generations PeerStats} (h : Represents s v) :
    Refers (op.ensured s)
      (Function.update v op.endpointKey ((v op.endpointKey).ensureOpen op.opened))
      op.endpointKey := by
  cases op with
  | connect endpoint pid ts direction transport => exact refers_ensure h _ _ _ _ rfl
  | event endpoint pid ts call => exact refers_ensure h _ _ _ _ rfl
  | disconnect endpoint pid ts => exact refers_ensure h _ _ _ _ rfl
  | snapshot peer ts snapshotIntervalMs => exact refers_ensure h _ _ _ _ rfl

/-- The record that an operation is about is active before the change. -/
theorem PeerOp.activeConnection_ensured (op : PeerOp A) {s : SessionStats}
    {v : String → Generations PeerStats} (h : Represents s v)
    (hactive : ActiveLast (v op.endpointKey)) :
    (op.ensured s).peer.activeConnection = true := by
  have hcur := (op.refers_ensured h).current
  rw [Function.update_self] at hcur
  have hopen := (hactive.ensureOpen op.activeConnection_opened).current _ hcur
  exact hopen

omit [Address A] in
theorem PeerOp.sawConnectAlert_change (op : PeerOp A) (p : PeerStats) :
    (op.change p).sawConnectAlert = (p.sawConnectAlert || op.isConnect) := by
  have hcore := congrArg PeerCore.sawConnectAlert (op.core_change p)
  have hchange : (op.changeCore p.core).sawConnectAlert =
      (p.core.sawConnectAlert || op.isConnect) := by
    unfold changeCore isConnect
    split <;> simp [PeerCore.bump]
  exact hcore.trans hchange

/-- Finding a record leaves the records alone; creating one adds it under a fresh
key. -/
theorem peersByKey_ensure {s : SessionStats} {v : String → Generations PeerStats}
    (h : Represents s v) (endpoint : Endpoint A) (ts : TimestampPair)
    (direction transport : String) :
    (s.ensurePeerForEndpoint endpoint ts direction transport).stats.peersByKey = s.peersByKey ∨
      ∃ n, s.peersByKey[(s.ensurePeerForEndpoint endpoint ts direction transport).key]? = none ∧
        (s.ensurePeerForEndpoint endpoint ts direction transport).stats.peersByKey =
          s.peersByKey.insert (s.ensurePeerForEndpoint endpoint ts direction transport).key
            (PeerOp.newRecord endpoint ts direction transport n) := by
  unfold SessionStats.ensurePeerForEndpoint
  simp only
  split
  · exact Or.inl rfl
  · have hseq := (h.stores (endpointToString endpoint)).sequence
    have hfresh : s.peersByKey[numberedPeerKey (endpointToString endpoint)
        (s.connectSequence (endpointToString endpoint) + 1)]? = none := by
      rw [← Option.not_isSome_iff_eq_none, ← Std.ExtTreeMap.mem_iff_isSome_getElem?, h.mem_iff,
        ← hseq]
      omega
    exact Or.inr ⟨_, hfresh, MapTotal.insertIfNew_eq_insert s.peersByKey _ hfresh⟩

/-- A property that new records lack is tallied as before. -/
theorem tally_ensure (q : PeerStats → Bool) {s : SessionStats}
    {v : String → Generations PeerStats} (h : Represents s v) (endpoint : Endpoint A)
    (ts : TimestampPair) (direction transport : String)
    (hq : ∀ n, q (PeerOp.newRecord endpoint ts direction transport n) = false) :
    MapTotal.tally q (s.ensurePeerForEndpoint endpoint ts direction transport).stats.peersByKey =
      MapTotal.tally q s.peersByKey := by
  rcases peersByKey_ensure h endpoint ts direction transport with heq | ⟨n, hnone, heq⟩
  · rw [heq]
  · rw [heq, MapTotal.tally, MapTotal.total_insert_of_notMem _ _ _ hnone, hq]
    simp [MapTotal.tally]

theorem PeerOp.tally_ensured (q : PeerStats → Bool) (op : PeerOp A) {s : SessionStats}
    {v : String → Generations PeerStats} (h : Represents s v)
    (hq : ∀ n, q (op.opened n) = false) :
    MapTotal.tally q (op.ensured s).stats.peersByKey = MapTotal.tally q s.peersByKey := by
  cases op with
  | connect endpoint pid ts direction transport => exact tally_ensure q h _ _ _ _ hq
  | event endpoint pid ts call => exact tally_ensure q h _ _ _ _ hq
  | disconnect endpoint pid ts => exact tally_ensure q h _ _ _ _ hq
  | snapshot peer ts snapshotIntervalMs => exact tally_ensure q h _ _ _ _ hq

/-- The tally changes by the difference the operation makes on its record. -/
theorem PeerOp.tally_apply (q : PeerStats → Bool) (op : PeerOp A) {s : SessionStats}
    {v : String → Generations PeerStats} (h : Represents s v)
    (hq : ∀ n, q (op.opened n) = false) :
    (if q (op.ensured s).peer then 1 else 0) + MapTotal.tally q (op.apply s).stats.peersByKey =
      (if q (op.change (op.ensured s).peer) then 1 else 0) + MapTotal.tally q s.peersByKey := by
  rw [op.peersByKey_apply, ← op.tally_ensured q h hq]
  exact (op.ensured s).tally_modify q op.change

/-- The two counters of a session. -/
def SessionStats.counts (s : SessionStats) : ℕ × ℕ :=
  (s.disconnectCount, s.successfulPeerConnects)

theorem counts_ensure (s : SessionStats) (endpoint : Endpoint A) (ts : TimestampPair)
    (direction transport : String) :
    (s.ensurePeerForEndpoint endpoint ts direction transport).stats.counts = s.counts := by
  unfold SessionStats.ensurePeerForEndpoint
  simp only
  split <;> rfl

omit [Address A] in
theorem PeerHandle.counts_modify (f : PeerStats → PeerStats) (h : PeerHandle) :
    (h.modify f).stats.counts = h.stats.counts := rfl

omit [Address A] in
theorem PeerHandle.counts_call (ts : TimestampPair) (c : PeerCall) (h : PeerHandle) :
    (h.call ts c).stats.counts = h.stats.counts := by
  cases c <;> rfl

omit [Address A] in
theorem PeerHandle.counts_countConnect (h : PeerHandle) :
    (if h.peer.sawConnectAlert then h else h.countConnect).stats.counts =
      (h.stats.counts.1, h.stats.counts.2 + if !h.peer.sawConnectAlert then 1 else 0) := by
  cases hsaw : h.peer.sawConnectAlert <;> rfl

omit [Address A] in
theorem PeerHandle.counts_close (h : PeerHandle) :
    h.eraseActive.countDisconnect.stats.counts =
      (h.stats.counts.1 + 1, h.stats.counts.2) := rfl

/-- A disconnect counts once, and so does the first connect alert of a record. -/
theorem PeerOp.counts_apply (op : PeerOp A) (s : SessionStats) :
    (op.apply s).stats.counts =
      (s.counts.1 + if op.closes then 1 else 0,
        s.counts.2 + if op.isConnect && !(op.ensured s).peer.sawConnectAlert then 1 else 0) := by
  cases op with
  | connect endpoint pid ts direction transport =>
      simp [apply, ensured, isConnect, closes, SessionStats.notePeerConnect,
        PeerHandle.counts_modify, PeerHandle.counts_countConnect, counts_ensure]
  | event endpoint pid ts call =>
      cases call with
      | none =>
          simp [apply, isConnect, closes, SessionStats.notePeerEvent, PeerHandle.counts_modify,
            counts_ensure]
      | some c =>
          simp [apply, isConnect, closes, SessionStats.notePeerEvent, PeerHandle.counts_modify,
            PeerHandle.counts_call, counts_ensure]
  | disconnect endpoint pid ts =>
      simp [apply, isConnect, closes, SessionStats.notePeerDisconnect,
        SessionStats.notePeerEvent, PeerHandle.counts_modify, PeerHandle.counts_close,
        counts_ensure]
  | snapshot peer ts snapshotIntervalMs =>
      simp [apply, isConnect, closes, SessionStats.notePeerSnapshot, PeerHandle.counts_modify,
        counts_ensure]

theorem PeerOp.counted_apply (op : PeerOp A) {s : SessionStats}
    {v : String → Generations PeerStats} (h : Represents s v)
    (hactive : ActiveLast (v op.endpointKey)) (hcounted : Counted s) :
    Counted (op.apply s).stats where
  disconnects := by
    have hfound := op.activeConnection_ensured h hactive
    have htally := op.tally_apply (fun p => !p.activeConnection) h (fun n => by
      rw [op.activeConnection_opened]
      rfl)
    rw [hfound, op.activeConnection_change hfound] at htally
    have hcount := congrArg Prod.fst (op.counts_apply s)
    simp only [SessionStats.counts] at hcount
    rw [hcount, hcounted.disconnects]
    cases hop : op.closes <;> simp [hop] at htally ⊢ <;> omega
  connects := by
    have htally := op.tally_apply (fun p => p.sawConnectAlert) h (fun n =>
      congrArg PeerCore.sawConnectAlert (op.core_opened n))
    rw [op.sawConnectAlert_change] at htally
    have hcount := congrArg Prod.snd (op.counts_apply s)
    simp only [SessionStats.counts] at hcount
    rw [hcount, hcounted.connects]
    cases hop : op.isConnect <;> cases hsaw : (op.ensured s).peer.sawConnectAlert <;>
      simp [hop, hsaw] at htally ⊢ <;> omega

omit [Address A] in
theorem Counted.of_eq {s s' : SessionStats} (h : Counted s)
    (hcounts : s'.counts = s.counts) (hpeers : s'.peersByKey = s.peersByKey) : Counted s' where
  disconnects := by
    rw [hpeers, ← h.disconnects]
    exact congrArg Prod.fst hcounts
  connects := by
    rw [hpeers, ← h.connects]
    exact congrArg Prod.snd hcounts

omit [Address A] in
theorem Counted.creditFinishedPiece {s : SessionStats} (h : Counted s) (key : String) :
    Counted (s.creditFinishedPiece key) := by
  unfold SessionStats.creditFinishedPiece
  split
  · next p hp =>
      have hexchange : ∀ q : PeerStats → Bool,
          q { p with piecesFinished := p.piecesFinished + 1 } = q p →
          MapTotal.tally q (s.peersByKey.insert key
            { p with piecesFinished := p.piecesFinished + 1 }) =
            MapTotal.tally q s.peersByKey := by
        intro q hq
        have htotal := MapTotal.total_insert_of_getElem? (fun r => if q r then 1 else 0)
          s.peersByKey { p with piecesFinished := p.piecesFinished + 1 } hp
        simp only [hq] at htotal
        exact Nat.add_left_cancel htotal
      constructor
      · have hsame := hexchange (fun r => !r.activeConnection) rfl
        exact h.disconnects.trans hsame.symm
      · have hsame := hexchange (fun r => r.sawConnectAlert) rfl
        exact h.connects.trans hsame.symm
  · exact h

omit [Address A] in
theorem Counted.notePieceFinished {s : SessionStats} (h : Counted s) (pieceIndex : Int) :
    Counted (s.notePieceFinished pieceIndex) := by
  unfold SessionStats.notePieceFinished
  split
  · exact h.of_eq rfl rfl
  · simp only
    split
    · exact h.of_eq rfl rfl
    · apply Counted.creditFinishedPiece
      exact h.of_eq rfl rfl

omit [Address A] in
theorem Counted.noteAlertLoss {s : SessionStats} (h : Counted s) (droppedAlertTypeBits : ℕ) :
    Counted (s.noteAlertLoss droppedAlertTypeBits) where
  disconnects := by
    have hmap := MapTotal.total_map_of_eq (fun p => if !p.activeConnection then 1 else 0)
      s.peersByKey (fun _ p => p.resetOutstandingRequests) (fun _ _ => rfl)
    exact h.disconnects.trans hmap.symm
  connects := by
    have hmap := MapTotal.total_map_of_eq (fun p => if p.sawConnectAlert then 1 else 0)
      s.peersByKey (fun _ p => p.resetOutstandingRequests) (fun _ _ => rfl)
    exact h.connects.trans hmap.symm

theorem SessionOp.counted_apply (op : SessionOp A) {s : SessionStats}
    {v : String → Generations PeerStats} (h : Represents s v)
    (hactive : ∀ e, ActiveLast (v e)) (hcounted : Counted s) : Counted (op.apply s) := by
  cases op with
  | peer op => exact op.counted_apply h (hactive _) hcounted
  | pieceFinished pieceIndex => exact hcounted.notePieceFinished pieceIndex
  | torrentState state => exact hcounted.of_eq rfl rfl
  | sessionSnapshot status => exact hcounted.of_eq rfl rfl
  | alertLoss bits => exact hcounted.noteAlertLoss bits
  | initialTotals status => exact hcounted.of_eq rfl rfl

theorem counted_run (ops : List (SessionOp A)) {s : SessionStats}
    {v : String → Generations PeerStats} (h : Represents s v)
    (hactive : ∀ e, ActiveLast (v e)) (hcounted : Counted s) : Counted (s.run ops) := by
  induction ops generalizing s v with
  | nil => exact hcounted
  | cons op ops ih =>
      exact ih (op.represents_apply h) (fun e => op.activeLast_history e (hactive e))
        (op.counted_apply h hactive hcounted)

end Operations

/-! ### The invariant -/

/-- The agreement between the containers, the flags in the records and the two
counters. -/
structure RepresentationInvariant (s : SessionStats) : Prop where
  keys : ∀ e : String, {k : String | ∃ p, s.peersByKey[k]? = some p ∧ p.endpointKey = e} =
    {k : String | ∃ n, 1 ≤ n ∧ n ≤ s.connectSequence e ∧ k = numberedPeerKey e n}
  unique : ∀ e : String, e ∈ s.uniquePeerEndpoints ↔
    ∃ (k : String) (p : PeerStats), s.peersByKey[k]? = some p ∧ p.endpointKey = e
  active : ∀ e k : String, s.activePeerKeyByEndpoint[e]? = some k ↔
    k = numberedPeerKey e (s.connectSequence e) ∧
      ∃ p, s.peersByKey[k]? = some p ∧ p.activeConnection = true
  older : ∀ e n p, s.peersByKey[numberedPeerKey e n]? = some p → n < s.connectSequence e →
    p.activeConnection = false
  disconnects : s.disconnectCount = MapTotal.tally (fun p => !p.activeConnection) s.peersByKey
  connects : s.successfulPeerConnects = MapTotal.tally (fun p => p.sawConnectAlert) s.peersByKey

section Invariant

variable {s : SessionStats} {v : String → Generations PeerStats}

/-- The records of an endpoint are those with its numbered keys. -/
theorem Represents.endpointKey_iff (h : Represents s v) (e k : String) :
    (∃ p, s.peersByKey[k]? = some p ∧ p.endpointKey = e) ↔
      ∃ n, 1 ≤ n ∧ n ≤ s.connectSequence e ∧ k = numberedPeerKey e n := by
  constructor
  · rintro ⟨p, hp, rfl⟩
    obtain ⟨n, rfl, -, hget⟩ := h.key_eq hp
    have hbounds := (Generations.isSome_get? _ n).mp (by rw [hget]; rfl)
    rw [(h.stores p.endpointKey).sequence]
    exact ⟨n, hbounds.1, hbounds.2, rfl⟩
  · rintro ⟨n, hpos, hle, rfl⟩
    rw [(h.stores e).sequence] at hle
    have hsome := (Generations.isSome_get? (v e) n).mpr ⟨hpos, hle⟩
    obtain ⟨r, hr⟩ := Option.isSome_iff_exists.mp hsome
    obtain ⟨p, hp, rfl⟩ := h.getElem?_of_get? hr
    have hnamed := ((h.stores e).named n _ hr).2
    exact ⟨p, hp, hnamed⟩

theorem Represents.unique_iff (h : Represents s v) (e : String) :
    e ∈ s.uniquePeerEndpoints ↔
      ∃ (k : String) (p : PeerStats), s.peersByKey[k]? = some p ∧ p.endpointKey = e := by
  rw [(h.stores e).unique, ← (h.stores e).sequence]
  constructor
  · intro hpos
    obtain ⟨p, hp⟩ := (h.endpointKey_iff e (numberedPeerKey e 1)).mpr ⟨1, le_rfl, hpos, rfl⟩
    exact ⟨_, p, hp⟩
  · rintro ⟨k, hk⟩
    obtain ⟨n, hpos, hle, -⟩ := (h.endpointKey_iff e k).mp hk
    exact lt_of_lt_of_le hpos hle

/-- The active entry of an endpoint names its newest record, and is there exactly
when that record is active. -/
theorem Represents.active_iff (h : Represents s v) {e : String} (hactive : ActiveLast (v e))
    (k : String) :
    s.activePeerKeyByEndpoint[e]? = some k ↔
      k = numberedPeerKey e (s.connectSequence e) ∧
        ∃ p, s.peersByKey[k]? = some p ∧ p.activeConnection = true := by
  rw [(h.stores e).active, (h.stores e).sequence]
  cases hcur : (v e).current with
  | some r =>
      obtain ⟨p, hp, hpr⟩ := h.getElem?_of_get? (Generations.get?_count hcur)
      have hr : p.activeConnection = true := by
        have hcurrent := hactive.current r hcur
        rw [← hpr] at hcurrent
        exact hcurrent
      constructor
      · rintro ⟨⟩
        exact ⟨rfl, p, hp, hr⟩
      · rintro ⟨rfl, -⟩
        rfl
  | none =>
      constructor
      · rintro ⟨⟩
      · rintro ⟨rfl, p, hp, htrue⟩
        obtain ⟨n, hkey, -, hget⟩ := h.key_eq hp
        obtain ⟨rfl, rfl⟩ := numberedPeerKey_inj.mp hkey
        have hclosed := Generations.mem_closed_of_none hcur (Generations.mem_records_of_get? hget)
        have hfalse := hactive.closed _ hclosed
        cases htrue.symm.trans hfalse

theorem Represents.inactive_of_lt (h : Represents s v) {e : String}
    (hactive : ActiveLast (v e)) {n : ℕ} {p : PeerStats}
    (hp : s.peersByKey[numberedPeerKey e n]? = some p) (hn : n < s.connectSequence e) :
    p.activeConnection = false := by
  rw [(h.stores e).sequence] at hn
  have hget : (v e).get? n = some (p.setPiecesFinished 0) := by
    rw [← (h.stores e).record, hp]
    rfl
  have hfalse := hactive.closed _ (Generations.get?_of_lt_count hn hget)
  exact hfalse

end Invariant

/-- Every state that the operations reach from a new session satisfies the
representation invariant. -/
theorem representationInvariant_run {A : Type} [Address A] (runId sessionId : ByteString)
    (start : TimestampPair) (ops : List (SessionOp A)) :
    RepresentationInvariant ((SessionStats.new runId sessionId start).run ops) := by
  have hnew := represents_new runId sessionId start
  have hempty : ∀ e : String, ActiveLast ((fun _ => Generations.empty) e) := fun _ =>
    Generations.Splits.empty
  have hrep := represents_run ops hnew
  have hactive : ∀ e, ActiveLast (historyOf e ops Generations.empty) := fun e =>
    activeLast_historyOf e ops Generations.Splits.empty
  have hcounted := counted_run ops hnew hempty
    ⟨(MapTotal.total_empty _).symm, (MapTotal.total_empty _).symm⟩
  exact {
    keys := fun e => Set.ext fun k => hrep.endpointKey_iff e k
    unique := hrep.unique_iff
    active := fun e k => hrep.active_iff (hactive e) k
    older := fun e n p hp hn => hrep.inactive_of_lt (hactive e) hp hn
    disconnects := hcounted.disconnects
    connects := hcounted.connects }

end BtClient
