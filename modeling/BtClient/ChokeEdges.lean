import BtClient.Library.Edges
import BtClient.PeerFace
import BtClient.RunOps

/-!
# Choke transitions are the edges of the snapshot flags

A record counts how often the peer choked and unchoked us, and how often we did, by
comparing the flags of a snapshot with those it remembers. Over any operations the counts
are the edges of the sequence of flags that the snapshots carried: `ChokeEdges` says so,
together with what the record remembers, and every operation keeps it.
-/

namespace BtClient

open MaximalRuns

section Snapshots

variable {A : Type}

/-- The flags `remote_choked` and `choked` of the snapshot that an operation stands for. -/
def RecordOp.snapshotFlags? : RecordOp A → Option (Bool × Bool)
  | .snapshot peer _ _ => some (hasFlag peer.flags .remoteChoked, hasFlag peer.flags .choked)
  | _ => none

/-- The flags of the snapshots among the operations. -/
def snapshotFlags (ops : List (RecordOp A)) : List (Bool × Bool) :=
  ops.filterMap RecordOp.snapshotFlags?

/-- The remembered flags are those of the latest snapshot, and the counts are the edges. -/
structure ChokeEdges (flags : List (Bool × Bool)) (f : PeerFace) : Prop where
  initialized : f.stateFlagsInitialized = !flags.isEmpty
  latest : ∀ x, flags.getLast? = some x → f.remoteChoked = x.1 ∧ f.localChoked = x.2
  choked : f.chokedCount = rises (flags.map Prod.fst)
  unchoked : f.unchokedCount = falls (flags.map Prod.fst)
  weChoked : f.weChokedCount = rises (flags.map Prod.snd)
  weUnchoked : f.weUnchokedCount = falls (flags.map Prod.snd)

theorem chokeEdges_new (peerKey endpointKey peerIp : String) (peerPort : ℕ)
    (ts : TimestampPair) (direction transport : String) :
    ChokeEdges []
      (PeerStats.new peerKey endpointKey peerIp peerPort ts direction transport).face where
  initialized := rfl
  latest x hx := by cases hx
  choked := rfl
  unchoked := rfl
  weChoked := rfl
  weUnchoked := rfl

namespace ChokeEdges

variable {flags : List (Bool × Bool)} {f : PeerFace}

/-- The operations other than snapshots leave the counts and the flags alone. -/
theorem of_eq {f' : PeerFace} (h : ChokeEdges flags f)
    (hinitialized : f'.stateFlagsInitialized = f.stateFlagsInitialized)
    (hremote : f'.remoteChoked = f.remoteChoked) (hlocal : f'.localChoked = f.localChoked)
    (hchoked : f'.chokedCount = f.chokedCount) (hunchoked : f'.unchokedCount = f.unchokedCount)
    (hweChoked : f'.weChokedCount = f.weChokedCount)
    (hweUnchoked : f'.weUnchokedCount = f.weUnchokedCount) : ChokeEdges flags f' where
  initialized := hinitialized.trans h.initialized
  latest x hx := by
    rw [hremote, hlocal]
    exact h.latest x hx
  choked := hchoked.trans h.choked
  unchoked := hunchoked.trans h.unchoked
  weChoked := hweChoked.trans h.weChoked
  weUnchoked := hweUnchoked.trans h.weUnchoked

/-- A remembered flag, where there is one, is that of the latest snapshot. -/
theorem remembered (h : ChokeEdges flags f) (side : Bool × Bool → Bool) {flag : Bool}
    (hflag : ∀ x, flags.getLast? = some x → flag = side x) (edge : Bool → Bool) :
    (f.stateFlagsInitialized && edge flag) = (flags.map side).getLast?.any edge := by
  rw [List.getLast?_map, h.initialized]
  cases hlast : flags.getLast? with
  | none =>
      rw [List.getLast?_eq_none_iff.mp hlast]
      rfl
  | some x =>
      have hne : flags.isEmpty = false := by
        cases flags with
        | nil => cases hlast
        | cons y rest => rfl
      rw [hne, hflag x hlast]
      rfl

/-- A snapshot compares its flags with those of the one before it. -/
theorem snapshot (h : ChokeEdges flags f) (peer : PeerInfo A) :
    ChokeEdges (flags ++ [(hasFlag peer.flags .remoteChoked, hasFlag peer.flags .choked)])
      (f.snapshot peer) := by
  have hremote := h.remembered Prod.fst fun x hx => (h.latest x hx).1
  have hlocal := h.remembered Prod.snd fun x hx => (h.latest x hx).2
  constructor
  · simp [PeerFace.snapshot, PeerFace.setFlags, PeerFace.countTransitions]
  · intro x hx
    rw [List.getLast?_concat] at hx
    cases hx
    exact ⟨rfl, rfl⟩
  · have hedge := hremote fun before => !before && hasFlag peer.flags .remoteChoked
    rw [List.map_append, List.map_singleton, rises_concat, ← hedge, ← h.choked,
      ← Bool.and_assoc]
    rfl
  · have hedge := hremote fun before => before && !hasFlag peer.flags .remoteChoked
    rw [List.map_append, List.map_singleton, falls_concat, ← hedge, ← h.unchoked,
      ← Bool.and_assoc]
    rfl
  · have hedge := hlocal fun before => !before && hasFlag peer.flags .choked
    rw [List.map_append, List.map_singleton, rises_concat, ← hedge, ← h.weChoked,
      ← Bool.and_assoc]
    rfl
  · have hedge := hlocal fun before => before && !hasFlag peer.flags .choked
    rw [List.map_append, List.map_singleton, falls_concat, ← hedge, ← h.weUnchoked,
      ← Bool.and_assoc]
    rfl

theorem connect (h : ChokeEdges flags f) (direction transport : String)
    (fromConnectAlert : Bool) :
    ChokeEdges flags (f.connect direction transport fromConnectAlert) := by
  simp only [PeerFace.connect]
  split <;> split <;> exact h.of_eq rfl rfl rfl rfl rfl rfl rfl

theorem apply (h : ChokeEdges flags f) (op : RecordOp A) :
    ChokeEdges (flags ++ op.snapshotFlags?.toList) (op.face f) := by
  cases op with
  | connect ts direction transport fromConnectAlert =>
      rw [RecordOp.snapshotFlags?, Option.toList_none, List.append_nil]
      · exact h.connect direction transport fromConnectAlert
      · exact fun peer ts snapshotIntervalMs hop => by cases hop
  | snapshot peer ts snapshotIntervalMs => exact h.snapshot peer
  | _ => simpa [RecordOp.snapshotFlags?, RecordOp.face] using h

theorem run {p : PeerStats} (h : ChokeEdges flags p.face) (ops : List (RecordOp A)) :
    ChokeEdges (flags ++ snapshotFlags ops) (p.run ops).face := by
  induction ops generalizing p flags with
  | nil => simpa [snapshotFlags, PeerStats.run] using h
  | cons op ops ih =>
      have hop := h.apply op
      rw [← op.face_apply] at hop
      have hrest := ih hop
      rw [List.append_assoc] at hrest
      have hflags : op.snapshotFlags?.toList ++ snapshotFlags ops =
          snapshotFlags (op :: ops) := by
        cases hflag : op.snapshotFlags? with
        | none => simp [snapshotFlags, hflag]
        | some x => simp [snapshotFlags, hflag]
      rw [hflags] at hrest
      exact hrest

end ChokeEdges

/-- What one pair of counts says about a signal: they are its edges, and their difference is
the difference between its last and its first value. -/
structure CountsEdges (up down : ℕ) (signal : List Bool) : Prop where
  rises_eq : up = rises signal
  falls_eq : down = falls signal
  balance : ∀ first last, signal.head? = some first → signal.getLast? = some last →
    (up : Int) - down = last.toNat - first.toNat
  bounded : (up : Int) - down ∈ ({-1, 0, 1} : Finset Int)
  first : signal.length ≤ 1 → up = 0 ∧ down = 0

theorem countsEdges (signal : List Bool) :
    CountsEdges (rises signal) (falls signal) signal where
  rises_eq := rfl
  falls_eq := rfl
  balance first last hfirst hlast := by
    rw [rises_sub_falls, extent, List.getLastD_eq_getLast?, List.headD_eq_head?_getD, hfirst,
      hlast]
    rfl
  bounded := by
    rw [rises_sub_falls, extent]
    cases signal.getLastD false <;> cases signal.headD false <;> simp
  first h := edges_eq_zero h

theorem ChokeEdges.countsEdges {flags : List (Bool × Bool)} {f : PeerFace}
    (h : ChokeEdges flags f) :
    CountsEdges f.chokedCount f.unchokedCount (flags.map Prod.fst) ∧
      CountsEdges f.weChokedCount f.weUnchokedCount (flags.map Prod.snd) := by
  rw [h.choked, h.unchoked, h.weChoked, h.weUnchoked]
  exact ⟨BtClient.countsEdges _, BtClient.countsEdges _⟩

/-- Over every sequence of operations on a record, the four counts are the edges of the
flags that its snapshots carried. -/
theorem chokeEdges_run (peerKey endpointKey peerIp : String) (peerPort : ℕ)
    (ts : TimestampPair) (direction transport : String) (ops : List (RecordOp A)) :
    let p := (PeerStats.new peerKey endpointKey peerIp peerPort ts direction transport).run ops
    CountsEdges p.chokedCount p.unchokedCount ((snapshotFlags ops).map Prod.fst) ∧
      CountsEdges p.weChokedCount p.weUnchokedCount ((snapshotFlags ops).map Prod.snd) := by
  intro p
  have hedges := (chokeEdges_new peerKey endpointKey peerIp peerPort ts direction transport).run
    ops
  rw [List.nil_append] at hedges
  exact hedges.countsEdges

/-- So it is for every record that a run of the client leaves. -/
theorem chokeEdges_recording [Address A] (runId sessionId infoHash : ByteString)
    (start : TimestampPair) (config : RuntimeConfig) (steps : List (RunStep A)) (r : Recording)
    (hrun : (Recording.start runId sessionId start config infoHash).run steps = .ok r)
    (key : String) (p : PeerStats) (hp : r.stats.peersByKey[key]? = some p) :
    ∃ t, IsTraceOf (opsOf config.snapshotIntervalMs steps) key t ∧
      CountsEdges p.chokedCount p.unchokedCount ((snapshotFlags t.ops).map Prod.fst) ∧
      CountsEdges p.weChokedCount p.weUnchokedCount ((snapshotFlags t.ops).map Prod.snd) := by
  obtain ⟨t, ht, hreplay⟩ := exists_trace_of_run hrun hp
  obtain ⟨e, n, hkey, hget⟩ := ht
  have hedges : ChokeEdges (snapshotFlags t.ops) t.replay.face := by
    apply tracesOf_induction (P := fun t => ChokeEdges (snapshotFlags t.ops) t.replay.face) _ _
      hget
    · intro op n
      cases op with
      | _ => exact chokeEdges_new _ _ _ _ _ _ _
    · intro t ops h
      rw [RecordTrace.replay_extend, RecordTrace.extend, snapshotFlags, List.filterMap_append]
      exact h.run ops
  rw [← hreplay] at hedges
  exact ⟨t, ⟨e, n, hkey, hget⟩, hedges.countsEdges⟩

end Snapshots

end BtClient
