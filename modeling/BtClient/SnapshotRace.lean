import BtClient.AlertOps
import BtClient.Library.Lifetimes
import BtClient.Library.Mailbox
import BtClient.Library.Runs
import BtClient.SummaryWriter

/-!
# Snapshots and the connections they describe

libtorrent opens and closes connections, announces both in its queue of alerts, and tells
`get_peer_info` the byte totals of the connections that are open at that moment. The
client writes the totals of a snapshot to the record that is active for the endpoint. If
an endpoint has been closed and opened again, and the closing is still queued, that is
the record of the earlier connection.
-/

namespace BtClient

/-- What happens to a connection, with the fields of the alert that announces it. -/
inductive LinkChange where
  | opened (direction : ConnectDirection) (socketType : SocketType)
  | closed (op : Operation) (error : ByteString) (reason : Int) (socketType : SocketType)

/-- An alert about a connection, with the timestamp of its later handling. -/
structure LinkAlert (A : Type) where
  ts : TimestampPair
  message : ByteString
  endpoint : Endpoint A
  pid : PeerId
  change : LinkChange

namespace LinkAlert

variable {A : Type}

def body (a : LinkAlert A) : AlertBody A :=
  match a.change with
  | .opened direction socketType => .peerConnect a.endpoint a.pid direction socketType
  | .closed op error reason socketType =>
      .peerDisconnected a.endpoint a.pid op error reason socketType

def alert (a : LinkAlert A) : Alert A where
  what := match a.change with
    | .opened _ _ => "peer_connect"
    | .closed _ _ _ _ => "peer_disconnected"
  message := a.message
  body := a.body

def event (a : LinkAlert A) : LifeEvent :=
  match a.change with
  | .opened _ _ => .opened
  | .closed _ _ _ _ => .closed

/-- The events that the alerts announce for an endpoint. -/
def eventsOf [DecidableEq A] (e : Endpoint A) (alerts : List (LinkAlert A)) :
    List LifeEvent :=
  (alerts.filter fun a => a.endpoint = e).map event

end LinkAlert

/-- Total bytes downloaded and uploaded over a connection. -/
abbrev ByteTotals := Int × Int

def PeerInfo.byteTotals {A : Type} (peer : PeerInfo A) : ByteTotals :=
  (peer.totalDownload, peer.totalUpload)

def PeerStats.byteTotals (p : PeerStats) : ByteTotals :=
  (p.totalDownloadBytes, p.totalUploadBytes)

/-- libtorrent with the totals of the open connections, and the client with the alerts it
has not drained. `endpoints` are the endpoints that have had a connection, and `taken`
holds for each connection the totals of the last snapshot that was taken of it, zero if
there was none. -/
structure LinkSystem (A : Type) where
  totals : Endpoint A → Option ByteTotals
  client : Mailbox SessionStats (LinkAlert A)
  endpoints : Finset (Endpoint A)
  taken : Endpoint A → Generations ByteTotals

/-- What either party may do next. -/
inductive LinkAction (A : Type) where
  | connect (endpoint : Endpoint A) (pid : PeerId) (direction : ConnectDirection)
      (socketType : SocketType) (ts : TimestampPair) (message : ByteString)
  | transfer (endpoint : Endpoint A) (totals : ByteTotals)
  | disconnect (endpoint : Endpoint A) (pid : PeerId) (op : Operation) (error : ByteString)
      (reason : Int) (socketType : SocketType) (ts : TimestampPair) (message : ByteString)
  | drainAlerts
  | snapshot (status : TorrentStatus) (peers : List (PeerInfo A)) (ts : TimestampPair)
      (snapshotIntervalMs : Int)

section System

variable {A : Type} [Address A] [DecidableEq A]

/-- Handling a queued alert. -/
def handleLink (s : SessionStats) (a : LinkAlert A) : SessionStats :=
  (handleAlert s a.ts a.alert).1

/-- The statistics after `capture_snapshots`. -/
def SessionStats.capture (s : SessionStats) (status : TorrentStatus)
    (peers : List (PeerInfo A)) (ts : TimestampPair) (snapshotIntervalMs : Int) :
    SessionStats :=
  peers.foldl (fun s peer => (s.notePeerSnapshot peer ts snapshotIntervalMs).stats)
    (s.recordSessionSnapshot status)

/-- The totals that a list of peers reports for an endpoint. -/
def reportedTotals (peers : List (PeerInfo A)) (e : Endpoint A) : Option ByteTotals :=
  (peers.find? fun peer => peer.ip = e).map PeerInfo.byteTotals

namespace LinkSystem

/-- A new session after `set_initial_totals`. -/
def start (runId sessionId : ByteString) (startTs : TimestampPair) (status : TorrentStatus) :
    LinkSystem A where
  totals := fun _ => none
  client := ⟨(SessionStats.new runId sessionId startTs).setInitialTotals status, []⟩
  endpoints := ∅
  taken := fun _ => .empty

def step (σ : LinkSystem A) : LinkAction A → LinkSystem A
  | .connect endpoint pid direction socketType ts message =>
      { totals := Function.update σ.totals endpoint (some (0, 0))
        client := σ.client.post ⟨ts, message, endpoint, pid, .opened direction socketType⟩
        endpoints := insert endpoint σ.endpoints
        taken := Function.update σ.taken endpoint
          ((σ.taken endpoint).ensureOpen fun _ => (0, 0)) }
  | .transfer endpoint totals =>
      { σ with totals := Function.update σ.totals endpoint (some totals) }
  | .disconnect endpoint pid op error reason socketType ts message =>
      { σ with
        totals := Function.update σ.totals endpoint none
        client := σ.client.post
          ⟨ts, message, endpoint, pid, .closed op error reason socketType⟩
        taken := Function.update σ.taken endpoint (σ.taken endpoint).close }
  | .drainAlerts => { σ with client := σ.client.drain handleLink }
  | .snapshot status peers ts snapshotIntervalMs =>
      { σ with
        client := σ.client.bypass fun s => s.capture status peers ts snapshotIntervalMs
        taken := fun e =>
          match reportedTotals peers e with
          | some totals => (σ.taken e).update fun _ => totals
          | none => σ.taken e }

/-- libtorrent may do this: an endpoint has at most one connection, the totals of a
connection do not decrease, and a snapshot reports exactly the open connections. -/
def Possible (σ : LinkSystem A) : LinkAction A → Prop
  | .connect endpoint _ _ _ _ _ => σ.totals endpoint = none
  | .transfer endpoint totals =>
      ∃ before, σ.totals endpoint = some before ∧ before.1 ≤ totals.1 ∧ before.2 ≤ totals.2
  | .disconnect endpoint _ _ _ _ _ _ _ => (σ.totals endpoint).isSome
  | .drainAlerts => True
  | .snapshot _ peers _ _ =>
      (peers.map PeerInfo.ip).Nodup ∧ ∀ e, reportedTotals peers e = σ.totals e

/-- Every record has the totals of the last snapshot of its connection, and the totals of
the session are their sums. -/
structure Landed (σ : LinkSystem A) : Prop where
  records : ∀ e n, (σ.client.state.peersByKey[numberedPeerKey (endpointToString e) n]?).map
    PeerStats.byteTotals = (σ.taken e).get? n
  downloaded : (peerNetworkByteTotals σ.client.state).downloaded =
    ∑ e ∈ σ.endpoints, ((σ.taken e).records.map Prod.fst).sum
  uploaded : (peerNetworkByteTotals σ.client.state).uploaded =
    ∑ e ∈ σ.endpoints, ((σ.taken e).records.map Prod.snd).sum

/-- The snapshot reaches the records of the connections it describes: of each open
connection no earlier closing is queued, unless its totals are zero and so are those of
the record that is active for its endpoint. -/
def Prompt (σ : LinkSystem A) : LinkAction A → Prop
  | .snapshot _ _ _ _ => ∀ e totals, σ.totals e = some totals →
      LifeEvent.closed ∉ LinkAlert.eventsOf e σ.client.queue ∨
        (totals = (0, 0) ∧ ∀ key p,
          σ.client.state.activePeerKeyByEndpoint[endpointToString e]? = some key →
            σ.client.state.peersByKey[key]? = some p → p.byteTotals = (0, 0))
  | _ => True

end LinkSystem

end System

/-! ### Byte totals in the history of an endpoint -/

section Totals

variable {A : Type}

namespace PeerOp

/-- The totals after the operation. -/
def changeTotals : PeerOp A → ByteTotals → ByteTotals
  | .snapshot peer _ _, _ => peer.byteTotals
  | _, totals => totals

theorem byteTotals_change (op : PeerOp A) (p : PeerStats) :
    (op.change p).byteTotals = op.changeTotals p.byteTotals := by
  have hcore := congrArg (fun c => (c.totalDownloadBytes, c.totalUploadBytes))
    (op.core_change p)
  cases op with
  | event endpoint pid ts call =>
      cases call with
      | none => exact hcore
      | some c => exact hcore
  | connect endpoint pid ts direction transport => exact hcore
  | disconnect endpoint pid ts => exact hcore
  | snapshot peer ts snapshotIntervalMs => exact hcore

/-- The operation on the totals of an endpoint. -/
def totalsHistory (op : PeerOp A) (g : Generations ByteTotals) : Generations ByteTotals :=
  let g := (g.ensureOpen fun _ => (0, 0)).update op.changeTotals
  if op.closes then g.close else g

variable [Address A]

theorem byteTotals_opened (op : PeerOp A) (n : ℕ) : (op.opened n).byteTotals = (0, 0) :=
  congrArg (fun c => (c.totalDownloadBytes, c.totalUploadBytes)) (op.core_opened n)

theorem map_byteTotals_history (op : PeerOp A) (g : Generations PeerStats) :
    (op.history g).map PeerStats.byteTotals =
      op.totalsHistory (g.map PeerStats.byteTotals) := by
  have hopened : PeerStats.byteTotals ∘ op.opened = fun _ => (0, 0) :=
    funext op.byteTotals_opened
  have hchanged : (op.changed g).map PeerStats.byteTotals =
      ((g.map PeerStats.byteTotals).ensureOpen fun _ => (0, 0)).update op.changeTotals := by
    rw [changed, Generations.map_update _ _ op.byteTotals_change, Generations.map_ensureOpen,
      hopened]
  rw [history_eq, totalsHistory]
  split
  · rw [Generations.map_close, hchanged]
  · exact hchanged

end PeerOp

end Totals

/-- The records of the session have these totals, for each endpoint in the order of its
connections, and there are no other records. -/
def Tracks {A : Type} [Address A] (s : SessionStats)
    (w : Endpoint A → Generations ByteTotals) : Prop :=
  ∃ v : String → Generations PeerStats, Represents s v ∧
    (∀ e : Endpoint A, (v (endpointToString e)).map PeerStats.byteTotals = w e) ∧
    ∀ k, 0 < (v k).count → ∃ e : Endpoint A, k = endpointToString e

namespace Tracks

variable {A : Type} [Address A] {s : SessionStats} {w : Endpoint A → Generations ByteTotals}

theorem of_maps_eq {s' : SessionStats} (h : Tracks s w)
    (hseq : s'.connectSequenceByEndpoint = s.connectSequenceByEndpoint)
    (hunique : s'.uniquePeerEndpoints = s.uniquePeerEndpoints)
    (hactive : s'.activePeerKeyByEndpoint = s.activePeerKeyByEndpoint)
    (hpeers : s'.peersByKey = s.peersByKey) : Tracks s' w := by
  obtain ⟨v, hv, htotals, hkeys⟩ := h
  exact ⟨v, hv.of_maps_eq hseq hunique hactive hpeers, htotals, hkeys⟩

theorem new (runId sessionId : ByteString) (startTs : TimestampPair) :
    Tracks (SessionStats.new runId sessionId startTs)
      (fun _ : Endpoint A => Generations.empty) :=
  ⟨fun _ => .empty, represents_new runId sessionId startTs, fun _ => rfl,
    fun _ hk => absurd hk (Nat.lt_irrefl 0)⟩

theorem apply [DecidableEq A] (h : Tracks s w) (op : PeerOp A) :
    Tracks (op.apply s).stats
      (Function.update w op.endpoint (op.totalsHistory (w op.endpoint))) := by
  obtain ⟨v, hv, htotals, hkeys⟩ := h
  refine ⟨_, op.represents_apply hv, ?_, ?_⟩
  · intro e
    by_cases he : e = op.endpoint
    · subst he
      rw [Function.update_self, PeerOp.endpointKey, Function.update_self,
        PeerOp.map_byteTotals_history, htotals]
    · have hkey : endpointToString e ≠ op.endpointKey := fun heq =>
        he (endpointToString_injective heq)
      rw [Function.update_of_ne he, Function.update_of_ne hkey, htotals]
  · intro k hk
    by_cases heq : k = op.endpointKey
    · exact ⟨op.endpoint, heq⟩
    · rw [Function.update_of_ne heq] at hk
      exact hkeys k hk

/-- The record number `n` of an endpoint, with its totals. -/
theorem get? (h : Tracks s w) (e : Endpoint A) (n : ℕ) :
    (s.peersByKey[numberedPeerKey (endpointToString e) n]?).map PeerStats.byteTotals =
      (w e).get? n := by
  obtain ⟨v, hv, htotals, -⟩ := h
  rw [← htotals, Generations.get?_map, ← (hv.stores _).record, Option.map_map]
  rfl

/-- The record that is active for an endpoint, with its totals. -/
theorem current_eq_some (h : Tracks s w) {e : Endpoint A} {c : ByteTotals} :
    (w e).current = some c ↔ ∃ key p,
      s.activePeerKeyByEndpoint[endpointToString e]? = some key ∧
        s.peersByKey[key]? = some p ∧ p.byteTotals = c := by
  obtain ⟨v, hv, htotals, -⟩ := h
  rw [← htotals, Generations.current_map, (hv.stores _).active]
  constructor
  · intro hc
    obtain ⟨r, hr, rfl⟩ := Option.map_eq_some_iff.mp hc
    obtain ⟨p, hp, hpr⟩ := hv.getElem?_of_get? (Generations.get?_count hr)
    exact ⟨_, p, by rw [hr]; rfl, hp, by rw [← hpr]; rfl⟩
  · rintro ⟨key, p, hkey, hp, rfl⟩
    obtain ⟨r, hr, rfl⟩ := Option.map_eq_some_iff.mp hkey
    obtain ⟨p', hp', hpr⟩ := hv.getElem?_of_get? (Generations.get?_count hr)
    rw [hp] at hp'
    cases hp'
    rw [hr, ← hpr]
    rfl

/-- The keys of the records. -/
theorem mem_iff (h : Tracks s w) (k : String) :
    k ∈ s.peersByKey ↔
      ∃ e n, n < (w e).count ∧ numberedPeerKey (endpointToString e) (n + 1) = k := by
  obtain ⟨v, hv, htotals, hkeys⟩ := h
  have hcount : ∀ e, (w e).count = (v (endpointToString e)).count := fun e => by
    rw [← htotals, Generations.count_map]
  constructor
  · intro hk
    obtain ⟨e', n, rfl⟩ := hv.numbered k hk
    obtain ⟨hn, hle⟩ := (hv.mem_iff e' n).mp hk
    obtain ⟨e, rfl⟩ := hkeys e' (by omega)
    refine ⟨e, n - 1, ?_, ?_⟩
    · rw [hcount]
      omega
    · rw [Nat.sub_add_cancel hn]
  · rintro ⟨e, n, hn, rfl⟩
    rw [hcount] at hn
    exact (hv.mem_iff _ _).mpr ⟨by omega, hn⟩

/-- The totals of the session are sums over the connections of the endpoints. -/
theorem total_eq_sum (h : Tracks s w) {endpoints : Finset (Endpoint A)}
    (hknown : ∀ e, 0 < (w e).count → e ∈ endpoints) (f : ByteTotals → Int) :
    MapTotal.total (fun p => f p.byteTotals) s.peersByKey =
      ∑ e ∈ endpoints, ((w e).records.map f).sum := by
  have hkeys : ∀ k, k ∈ endpoints.biUnion (fun e => (Finset.range (w e).count).image
      fun n => numberedPeerKey (endpointToString e) (n + 1)) ↔ k ∈ s.peersByKey := by
    intro k
    rw [h.mem_iff]
    simp only [Finset.mem_biUnion, Finset.mem_image, Finset.mem_range]
    constructor
    · rintro ⟨e, -, n, hn, hk⟩
      exact ⟨e, n, hn, hk⟩
    · rintro ⟨e, n, hn, hk⟩
      exact ⟨e, hknown e (Nat.zero_lt_of_lt hn), n, hn, hk⟩
  rw [MapTotal.total_eq_sum _ _ hkeys, Finset.sum_biUnion]
  · apply Finset.sum_congr rfl
    intro e _
    rw [Finset.sum_image, ← Generations.sum_range_get?]
    · apply Finset.sum_congr rfl
      intro n _
      rw [← h.get? e, Option.map_map]
      rfl
    · intro n _ n' _ hn
      exact Nat.succ.inj (numberedPeerKey_inj.mp hn).2
  · intro e _ e' _ hne
    rw [Function.onFun, Finset.disjoint_left]
    intro k hk hk'
    obtain ⟨n, -, rfl⟩ := Finset.mem_image.mp hk
    obtain ⟨n', -, heq⟩ := Finset.mem_image.mp hk'
    exact hne (endpointToString_injective (numberedPeerKey_inj.mp heq).1.symm)

end Tracks

/-! ### What the alerts and the snapshots do to the totals -/

section Effects

variable {A : Type} [DecidableEq A]

theorem LinkAlert.eventsOf_cons (e : Endpoint A) (a : LinkAlert A) (rest : List (LinkAlert A)) :
    eventsOf e (a :: rest) =
      if a.endpoint = e then a.event :: eventsOf e rest else eventsOf e rest := by
  by_cases he : a.endpoint = e <;> simp [eventsOf, he]

theorem LinkAlert.eventsOf_append (e : Endpoint A) (alerts : List (LinkAlert A))
    (a : LinkAlert A) :
    eventsOf e (alerts ++ [a]) =
      if a.endpoint = e then eventsOf e alerts ++ [a.event] else eventsOf e alerts := by
  by_cases he : a.endpoint = e <;> simp [eventsOf, he]

theorem reportedTotals_cons (peer : PeerInfo A) (rest : List (PeerInfo A)) (e : Endpoint A) :
    reportedTotals (peer :: rest) e =
      if peer.ip = e then some peer.byteTotals else reportedTotals rest e := by
  by_cases he : peer.ip = e <;> simp [reportedTotals, he]

theorem reportedTotals_eq_none {peers : List (PeerInfo A)} {e : Endpoint A}
    (h : e ∉ peers.map PeerInfo.ip) : reportedTotals peers e = none := by
  rw [reportedTotals, Option.map_eq_none_iff, List.find?_eq_none]
  intro peer hpeer
  simpa using fun heq => h (List.mem_map.mpr ⟨peer, hpeer, heq⟩)

namespace Tracks

variable [Address A] {s : SessionStats} {w : Endpoint A → Generations ByteTotals}

omit [DecidableEq A] in
theorem countAlert (h : Tracks s w) (body : AlertBody A) : Tracks (s.countAlert body) w := by
  cases body <;> exact h.of_maps_eq rfl rfl rfl rfl

theorem handleLink (h : Tracks s w) (a : LinkAlert A) :
    Tracks (handleLink s a)
      (Function.update w a.endpoint ((w a.endpoint).follow (0, 0) a.event)) := by
  rw [BtClient.handleLink, handleAlert_stats]
  obtain ⟨ts, message, endpoint, pid, change⟩ := a
  cases change with
  | opened direction socketType =>
      have happly := (h.countAlert (.peerConnect endpoint pid direction socketType)).apply
        (.connect endpoint pid ts (peerConnectDirectionName direction)
          (transportFromSocketType socketType))
      have htotals : (PeerOp.connect endpoint pid ts (peerConnectDirectionName direction)
          (transportFromSocketType socketType)).totalsHistory (w endpoint) =
            (w endpoint).follow (0, 0) .opened :=
        Generations.update_id _
      simp only [PeerOp.endpoint] at happly
      rw [htotals] at happly
      exact happly
  | closed op error reason socketType =>
      have happly :=
        (h.countAlert (.peerDisconnected endpoint pid op error reason socketType)).apply
          (.disconnect endpoint pid ts)
      have htotals : (PeerOp.disconnect endpoint pid ts).totalsHistory (w endpoint) =
          (w endpoint).follow (0, 0) .closed :=
        congrArg Generations.close (Generations.update_id _)
      simp only [PeerOp.endpoint] at happly
      rw [htotals] at happly
      exact happly

theorem handleAll (h : Tracks s w) (alerts : List (LinkAlert A)) :
    Tracks (alerts.foldl BtClient.handleLink s)
      (fun e => (w e).followAll (0, 0) (LinkAlert.eventsOf e alerts)) := by
  induction alerts generalizing s w with
  | nil => exact h
  | cons a rest ih =>
      have hrest := ih (h.handleLink a)
      have hw : (fun e => (w e).followAll (0, 0) (LinkAlert.eventsOf e (a :: rest))) =
          fun e => (Function.update w a.endpoint ((w a.endpoint).follow (0, 0) a.event)
            e).followAll (0, 0) (LinkAlert.eventsOf e rest) := by
        funext e
        rw [LinkAlert.eventsOf_cons]
        by_cases he : a.endpoint = e
        · subst he
          rw [if_pos rfl, Function.update_self, Generations.followAll_cons]
        · rw [if_neg he, Function.update_of_ne fun heq => he heq.symm]
      rw [hw]
      exact hrest

/-- A snapshot is a reading of every connection that it reports. -/
theorem capture (h : Tracks s w) (status : TorrentStatus) {peers : List (PeerInfo A)}
    (hnodup : (peers.map PeerInfo.ip).Nodup) (ts : TimestampPair)
    (snapshotIntervalMs : Int) :
    Tracks (s.capture status peers ts snapshotIntervalMs)
      (fun e => (reportedTotals peers e).elim (w e) fun totals => (w e).read (0, 0) totals) := by
  have hstatus : Tracks (s.recordSessionSnapshot status) w := h.of_maps_eq rfl rfl rfl rfl
  unfold SessionStats.capture
  generalize s.recordSessionSnapshot status = s at hstatus
  clear h
  induction peers generalizing s w with
  | nil => exact hstatus
  | cons peer rest ih =>
      rw [List.map_cons, List.nodup_cons] at hnodup
      have hrest := ih hnodup.2 _ (hstatus.apply (.snapshot peer ts snapshotIntervalMs))
      have hw : (fun e => (reportedTotals (peer :: rest) e).elim (w e)
          fun totals => (w e).read (0, 0) totals) =
            fun e => (reportedTotals rest e).elim
              (Function.update w peer.ip ((w peer.ip).read (0, 0) peer.byteTotals) e)
              fun totals => (Function.update w peer.ip
                ((w peer.ip).read (0, 0) peer.byteTotals) e).read (0, 0) totals := by
        funext e
        rw [reportedTotals_cons]
        by_cases he : peer.ip = e
        · subst he
          rw [if_pos rfl, reportedTotals_eq_none hnodup.1, Option.elim_some,
            Option.elim_none, Function.update_self]
        · rw [if_neg he, Function.update_of_ne fun heq => he heq.symm]
      rw [hw]
      exact hrest

end Tracks

end Effects

/-! ### Runs -/

namespace LinkSystem

variable {A : Type} [Address A] [DecidableEq A]

/-- Once everything that is queued has been handled, the records will hold what was taken
of each connection. -/
structure Follows (σ : LinkSystem A) (w : Endpoint A → Generations ByteTotals) : Prop where
  tracks : Tracks σ.client.state w
  orderly : ∀ e, LifeEvent.Orderly (w e).current.isSome
    (LinkAlert.eventsOf e σ.client.queue)
  settled : ∀ e, (w e).followAll (0, 0) (LinkAlert.eventsOf e σ.client.queue) = σ.taken e
  current : ∀ e, (σ.taken e).current.isSome = (σ.totals e).isSome
  known : ∀ e, 0 < (σ.taken e).count → e ∈ σ.endpoints

variable {σ : LinkSystem A} {w : Endpoint A → Generations ByteTotals}

theorem follows_start (runId sessionId : ByteString) (startTs : TimestampPair)
    (status : TorrentStatus) :
    (start runId sessionId startTs status : LinkSystem A).Follows fun _ => .empty where
  tracks := (Tracks.new runId sessionId startTs).of_maps_eq rfl rfl rfl rfl
  orderly _ := trivial
  settled _ := rfl
  current _ := rfl
  known _ h := absurd h (Nat.lt_irrefl 0)

namespace Follows

theorem connect (h : σ.Follows w) {endpoint : Endpoint A} (pid : PeerId)
    (direction : ConnectDirection) (socketType : SocketType) (ts : TimestampPair)
    (message : ByteString) :
    (σ.step (.connect endpoint pid direction socketType ts message)).Follows w where
  tracks := h.tracks
  orderly e := by
    simp only [step, Mailbox.post, LinkAlert.eventsOf_append]
    split
    · exact (h.orderly e).append_opened
    · exact h.orderly e
  settled e := by
    simp only [step, Mailbox.post, LinkAlert.eventsOf_append]
    by_cases he : endpoint = e
    · subst he
      rw [if_pos rfl, Generations.followAll_append, h.settled, Function.update_self]
      rfl
    · rw [if_neg he, h.settled, Function.update_of_ne fun heq => he heq.symm]
  current e := by
    simp only [step]
    by_cases he : e = endpoint
    · subst he
      simp
    · rw [Function.update_of_ne he, Function.update_of_ne he, h.current]
  known e hcount := by
    simp only [step] at hcount ⊢
    by_cases he : e = endpoint
    · exact Finset.mem_insert.mpr (Or.inl he)
    · rw [Function.update_of_ne he] at hcount
      exact Finset.mem_insert_of_mem (h.known e hcount)

theorem transfer (h : σ.Follows w) {endpoint : Endpoint A} {totals : ByteTotals}
    (hopen : (σ.totals endpoint).isSome) :
    (σ.step (.transfer endpoint totals)).Follows w where
  tracks := h.tracks
  orderly := h.orderly
  settled := h.settled
  current e := by
    simp only [step]
    by_cases he : e = endpoint
    · subst he
      rw [Function.update_self, h.current, hopen]
      rfl
    · rw [Function.update_of_ne he, h.current]
  known := h.known

theorem disconnect (h : σ.Follows w) {endpoint : Endpoint A}
    (hopen : (σ.totals endpoint).isSome) (pid : PeerId) (op : Operation)
    (error : ByteString) (reason : Int) (socketType : SocketType) (ts : TimestampPair)
    (message : ByteString) :
    (σ.step (.disconnect endpoint pid op error reason socketType ts message)).Follows w where
  tracks := h.tracks
  orderly e := by
    simp only [step, Mailbox.post, LinkAlert.eventsOf_append]
    by_cases he : endpoint = e
    · subst he
      rw [if_pos rfl]
      apply Generations.orderly_append_closed (z := ((0, 0) : ByteTotals)) (h.orderly endpoint)
      rw [h.settled, h.current, hopen]
    · rw [if_neg he]
      exact h.orderly e
  settled e := by
    simp only [step, Mailbox.post, LinkAlert.eventsOf_append]
    by_cases he : endpoint = e
    · subst he
      have hcurrent := h.current endpoint
      rw [hopen] at hcurrent
      obtain ⟨totals, htotals⟩ := Option.isSome_iff_exists.mp hcurrent
      rw [if_pos rfl, Generations.followAll_append, h.settled, Function.update_self]
      exact congrArg Generations.close (Generations.ensureOpen_of_current htotals)
    · rw [if_neg he, h.settled, Function.update_of_ne fun heq => he heq.symm]
  current e := by
    simp only [step]
    by_cases he : e = endpoint
    · subst he
      simp
    · rw [Function.update_of_ne he, Function.update_of_ne he, h.current]
  known e hcount := by
    simp only [step] at hcount ⊢
    by_cases he : e = endpoint
    · subst he
      rw [Function.update_self, Generations.count_close] at hcount
      exact h.known e hcount
    · rw [Function.update_of_ne he] at hcount
      exact h.known e hcount

theorem drainAlerts (h : σ.Follows w) : (σ.step .drainAlerts).Follows σ.taken where
  tracks := by
    have hall := h.tracks.handleAll σ.client.queue
    rw [funext h.settled] at hall
    exact hall
  orderly _ := trivial
  settled _ := rfl
  current := h.current
  known := h.known

end Follows

/-- What a snapshot writes, seen through the queue. -/
def captured (σ : LinkSystem A) (w : Endpoint A → Generations ByteTotals) (e : Endpoint A) :
    Generations ByteTotals :=
  (σ.totals e).elim (w e) fun totals => (w e).read (0, 0) totals

namespace Follows

variable {status : TorrentStatus} {peers : List (PeerInfo A)} {ts : TimestampPair}
  {snapshotIntervalMs : Int}

theorem tracks_snapshot (h : σ.Follows w)
    (hpossible : σ.Possible (.snapshot status peers ts snapshotIntervalMs)) :
    Tracks (σ.step (.snapshot status peers ts snapshotIntervalMs)).client.state
      (σ.captured w) := by
  have hcapture := h.tracks.capture status hpossible.1 ts snapshotIntervalMs
  simp only [hpossible.2] at hcapture
  exact hcapture

theorem taken_snapshot (h : σ.Follows w)
    (hpossible : σ.Possible (.snapshot status peers ts snapshotIntervalMs)) (e : Endpoint A) :
    (σ.step (.snapshot status peers ts snapshotIntervalMs)).taken e =
      σ.captured σ.taken e := by
  simp only [step, captured, hpossible.2]
  cases htotals : σ.totals e with
  | none => rfl
  | some totals =>
      have hcurrent := h.current e
      rw [htotals] at hcurrent
      obtain ⟨before, hbefore⟩ := Option.isSome_iff_exists.mp hcurrent
      rw [Option.elim_some, Generations.read, Generations.ensureOpen_of_current hbefore]

/-- In terms of the records, a prompt snapshot is harmless. -/
theorem prompt_iff (h : σ.Follows w) :
    σ.Prompt (.snapshot status peers ts snapshotIntervalMs) ↔
      ∀ e totals, σ.totals e = some totals →
        (w e).Harmless (0, 0) totals (LinkAlert.eventsOf e σ.client.queue) := by
  have hfresh : ∀ e, (∀ c, (w e).current = some c → c = (0, 0)) ↔
      ∀ key p, σ.client.state.activePeerKeyByEndpoint[endpointToString e]? = some key →
        σ.client.state.peersByKey[key]? = some p → p.byteTotals = (0, 0) := by
    intro e
    constructor
    · intro hc key p hkey hp
      exact hc _ (h.tracks.current_eq_some.mpr ⟨key, p, hkey, hp, rfl⟩)
    · intro hp c hc
      obtain ⟨key, p, hkey, hget, rfl⟩ := h.tracks.current_eq_some.mp hc
      exact hp key p hkey hget
  simp only [Prompt, Generations.Harmless, hfresh]

theorem snapshot (h : σ.Follows w)
    (hpossible : σ.Possible (.snapshot status peers ts snapshotIntervalMs))
    (hprompt : σ.Prompt (.snapshot status peers ts snapshotIntervalMs)) :
    (σ.step (.snapshot status peers ts snapshotIntervalMs)).Follows (σ.captured w) where
  tracks := h.tracks_snapshot hpossible
  orderly e := by
    have horderly := h.orderly e
    simp only [captured]
    cases σ.totals e with
    | none => exact horderly
    | some totals =>
        rw [Option.elim_some, Generations.read_eq]
        exact horderly.early
  settled e := by
    rw [h.taken_snapshot hpossible]
    simp only [captured]
    cases htotals : σ.totals e with
    | none => exact h.settled e
    | some totals =>
        have hopen : ((w e).followAll (0, 0)
            (LinkAlert.eventsOf e σ.client.queue)).current.isSome := by
          rw [h.settled, h.current, htotals]
          rfl
        have hread := Generations.followAll_read (h.orderly e) hopen
          (h.prompt_iff.mp hprompt e totals htotals)
        rw [h.settled] at hread
        exact hread
  current e := by
    rw [h.taken_snapshot hpossible]
    have hcurrent := h.current e
    simp only [captured, step]
    cases htotals : σ.totals e with
    | none => rw [Option.elim_none, hcurrent, htotals]
    | some totals => rw [Option.elim_some, Generations.read_eq, Option.isSome_some]
  known e hcount := by
    rw [h.taken_snapshot hpossible] at hcount
    apply h.known e
    simp only [captured] at hcount
    cases htotals : σ.totals e with
    | none => rwa [htotals] at hcount
    | some totals =>
        have hcurrent := h.current e
        rw [htotals] at hcurrent
        obtain ⟨before, hbefore⟩ := Option.isSome_iff_exists.mp hcurrent
        rw [Generations.count_of_current hbefore]
        exact Nat.succ_pos _

theorem landed (h : σ.Follows w) (hempty : σ.client.queue = []) : σ.Landed := by
  have hw : w = σ.taken := by
    funext e
    rw [← h.settled e, hempty]
    rfl
  subst hw
  refine ⟨fun e n => h.tracks.get? e n, ?_, ?_⟩
  · rw [peerNetworkByteTotals_eq]
    exact h.tracks.total_eq_sum h.known Prod.fst
  · rw [peerNetworkByteTotals_eq]
    exact h.tracks.total_eq_sum h.known Prod.snd

/-- After a snapshot that is not prompt, the next drain leaves a record with the totals
of another connection. -/
theorem not_landed (h : σ.Follows w)
    (hpossible : σ.Possible (.snapshot status peers ts snapshotIntervalMs))
    (hlate : ¬ σ.Prompt (.snapshot status peers ts snapshotIntervalMs)) :
    ¬ ((σ.step (.snapshot status peers ts snapshotIntervalMs)).step .drainAlerts).Landed := by
  intro hlanded
  rw [h.prompt_iff] at hlate
  push Not at hlate
  obtain ⟨e, totals, htotals, hharm⟩ := hlate
  have hdrained := (h.tracks_snapshot hpossible).handleAll σ.client.queue
  have hopen : ((w e).followAll (0, 0)
      (LinkAlert.eventsOf e σ.client.queue)).current.isSome := by
    rw [h.settled, h.current, htotals]
    rfl
  have hcaptured : ∀ u : Endpoint A → Generations ByteTotals,
      σ.captured u e = (u e).read (0, 0) totals := fun u => by
    rw [captured, htotals]
    rfl
  apply Generations.followAll_read_ne hharm
  apply Generations.ext_get?
  · intro n
    have hrecord := hlanded.records e n
    have htaken := h.taken_snapshot hpossible e
    rw [hcaptured] at htaken
    have hget := (hdrained.get? e n).symm.trans hrecord
    rw [hcaptured] at hget
    rw [hget, h.settled, ← htaken]
    rfl
  · have hread : (w e).current.isSome → ((w e).read (0, 0) totals).current.isSome := by
      rw [Generations.read_eq]
      exact fun _ => rfl
    rw [Generations.isSome_current_followAll hread hopen, Generations.read_eq]
    rfl

end Follows

theorem follows_step (h : ∃ w, σ.Follows w) {action : LinkAction A}
    (hpossible : σ.Possible action) (hprompt : σ.Prompt action) :
    ∃ w, (σ.step action).Follows w := by
  obtain ⟨w, hw⟩ := h
  cases action with
  | connect endpoint pid direction socketType ts message =>
      exact ⟨w, hw.connect pid direction socketType ts message⟩
  | transfer endpoint totals =>
      obtain ⟨before, hbefore, -⟩ := hpossible
      exact ⟨w, hw.transfer (by rw [hbefore]; rfl)⟩
  | disconnect endpoint pid op error reason socketType ts message =>
      exact ⟨w, hw.disconnect hpossible pid op error reason socketType ts message⟩
  | drainAlerts => exact ⟨_, hw.drainAlerts⟩
  | snapshot status peers ts snapshotIntervalMs => exact ⟨_, hw.snapshot hpossible hprompt⟩

/-- In a run whose snapshots are prompt, an empty queue means that every record has the
totals of the last snapshot of its own connection; the first snapshot that is not prompt
makes the next drain leave a record without them. -/
theorem landed_run (runId sessionId : ByteString) (startTs : TimestampPair)
    (status : TorrentStatus) (actions : List (LinkAction A))
    (hpossible : Runs.Along step Possible (start runId sessionId startTs status) actions)
    (hprompt : Runs.Along step Prompt (start runId sessionId startTs status) actions) :
    let σ := actions.foldl step (start runId sessionId startTs status)
    (σ.client.queue = [] → σ.Landed) ∧
      ∀ status' peers ts snapshotIntervalMs,
        σ.Possible (.snapshot status' peers ts snapshotIntervalMs) →
          ¬ σ.Prompt (.snapshot status' peers ts snapshotIntervalMs) →
            ¬ ((σ.step (.snapshot status' peers ts snapshotIntervalMs)).step
              .drainAlerts).Landed := by
  have hfollows := Runs.Along.invariant (I := fun σ => ∃ w, σ.Follows w)
    (fun _ _ hσ haction => follows_step hσ haction.1 haction.2)
    ⟨_, follows_start runId sessionId startTs status⟩ (hpossible.and hprompt)
  obtain ⟨w, hw⟩ := hfollows
  exact ⟨fun hempty => hw.landed hempty,
    fun _ _ _ _ hsnapshot hlate => hw.not_landed hsnapshot hlate⟩

end LinkSystem

/-! ### Two connections of one endpoint -/

def sampleInfo (totals : ByteTotals) : PeerInfo AddressV4 :=
  { ip := samplePeer, pid := samplePid, totalDownload := totals.1, totalUpload := totals.2 }

def sampleOpen : LinkAction AddressV4 :=
  .connect samplePeer samplePid .outward .tcp ⟨"2024-01-01T00:00:01Z", 1⟩ "connect"

def sampleClose : LinkAction AddressV4 :=
  .disconnect samplePeer samplePid {} "end of file" 0 .tcp ⟨"2024-01-01T00:00:02Z", 2⟩
    "disconnect"

def sampleSnapshot (totals : ByteTotals) : LinkAction AddressV4 :=
  .snapshot {} [sampleInfo totals] ⟨"2024-01-01T00:00:03Z", 3⟩ 1000

namespace LinkSystem

def sampleLinks : LinkSystem AddressV4 :=
  start "run" "session" ⟨"2024-01-01T00:00:00Z", 0⟩ {}

theorem reportedTotals_sampleInfo (totals : ByteTotals) (e : Endpoint AddressV4)
    (f : Endpoint AddressV4 → Option ByteTotals) (hf : ∀ e, e ≠ samplePeer → f e = none)
    (hsample : f samplePeer = some totals) :
    reportedTotals [sampleInfo totals] e = f e := by
  rw [reportedTotals_cons]
  by_cases he : e = samplePeer
  · subst he
    rw [hsample]
    rfl
  · have hip : (sampleInfo totals).ip ≠ e := fun heq => he heq.symm
    rw [if_neg hip, hf e he]
    rfl

/-- A connection whose snapshot is taken before its closing is announced. -/
theorem landed_run_prompt :
    let actions := [sampleOpen, .drainAlerts, .transfer samplePeer (100, 0),
      sampleSnapshot (100, 0), sampleClose, .drainAlerts]
    (actions.foldl step sampleLinks).client.queue = [] ∧
      (actions.foldl step sampleLinks).Landed := by
  intro actions
  have hpossible : Runs.Along step Possible sampleLinks actions := by
    refine ⟨rfl, trivial, ⟨(0, 0), rfl, by decide, by decide⟩, ⟨?_, fun e => ?_⟩, rfl,
      trivial, trivial⟩
    · simp
    · apply reportedTotals_sampleInfo
      · intro e he
        simp [sampleOpen, sampleLinks, step, start, Function.update_of_ne he]
      · simp [sampleOpen, sampleLinks, step, start]
  have hprompt : Runs.Along step Prompt sampleLinks actions :=
    ⟨trivial, trivial, trivial, fun _ _ _ => Or.inl List.not_mem_nil, trivial, trivial,
      trivial⟩
  exact ⟨rfl, (landed_run "run" "session" _ _ actions hpossible hprompt).1 rfl⟩

/-- An endpoint is closed and opened again; the snapshot is taken before the client hears
of either, and the bytes of the second connection become those of the first. -/
theorem landed_false_of_reconnect :
    ¬ ∀ (runId sessionId : ByteString) (startTs : TimestampPair) (status : TorrentStatus)
        (actions : List (LinkAction AddressV4)),
      Runs.Along step Possible (start runId sessionId startTs status) actions →
        let σ := actions.foldl step (start runId sessionId startTs status)
        σ.client.queue = [] → σ.Landed := by
  intro h
  have hpossible : Runs.Along step Possible sampleLinks [sampleOpen, .drainAlerts,
      sampleClose, sampleOpen, .transfer samplePeer (100, 0), sampleSnapshot (100, 0),
      .drainAlerts] := by
    refine ⟨rfl, trivial, rfl, rfl, ⟨(0, 0), rfl, by decide, by decide⟩,
      ⟨?_, fun e => ?_⟩, trivial, trivial⟩
    · simp
    · apply reportedTotals_sampleInfo
      · intro e he
        simp [sampleOpen, sampleClose, sampleLinks, step, start, Function.update_of_ne he]
      · simp [sampleOpen, sampleClose, sampleLinks, step, start]
  have hlanded := h "run" "session" ⟨"2024-01-01T00:00:00Z", 0⟩ {} _ hpossible rfl
  exact absurd (hlanded.records samplePeer 1) (by decide +kernel)

end LinkSystem

/-! ### The loop of the client -/

theorem EventWriter.config_writeEvent {writer writer' : EventWriter} {ts : TimestampPair}
    {eventType : String} {payload : Json} {peerContext : Option EventPeerContext}
    (h : writer.writeEvent ts eventType payload peerContext = .ok writer') :
    writer'.config = writer.config := by
  unfold EventWriter.writeEvent at h
  dsimp only at h
  split at h
  · cases h
    rfl
  · cases h

theorem recordPeerSnapshots_stats {A : Type} [Address A] {r r' : Recording}
    {ts : TimestampPair} {peers : List (TimestampPair × PeerInfo A)}
    (h : r.recordPeerSnapshots ts peers = .ok r') :
    r'.stats = (peers.map Prod.snd).foldl (fun s peer =>
      (s.notePeerSnapshot peer ts r.writer.config.snapshotIntervalMs).stats) r.stats := by
  induction peers generalizing r with
  | nil =>
      cases h
      rfl
  | cons entry rest ih =>
      obtain ⟨writeTs, peer⟩ := entry
      unfold Recording.recordPeerSnapshots Recording.recordPeerSnapshot at h
      split at h
      · next r₁ hr₁ =>
          dsimp only at hr₁
          split at hr₁
          · next writer hwriter =>
              cases hr₁
              have hrest := ih h
              rw [EventWriter.config_writeEvent hwriter] at hrest
              exact hrest
          · cases hr₁
      · cases h

/-- `SessionStats.capture` is what `capture_snapshots` does to the statistics. -/
theorem captureSnapshots_stats {A : Type} [Address A] {r r' : Recording}
    {input : SnapshotInput A} (h : r.captureSnapshots input = .ok r') :
    r'.stats = r.stats.capture input.status (input.peers.map Prod.snd) input.ts
      r.writer.config.snapshotIntervalMs := by
  unfold Recording.captureSnapshots at h
  split at h
  · cases h
  · next writer hsession =>
      split at h
      · cases h
      · next writer' htorrent =>
          have hconfig : writer'.config = r.writer.config :=
            (EventWriter.config_writeEvent htorrent).trans
              (EventWriter.config_writeEvent hsession)
          have hpeers := recordPeerSnapshots_stats h
          rw [hconfig] at hpeers
          exact hpeers

end BtClient
