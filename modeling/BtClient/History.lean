import BtClient.SessionRun

/-!
# The session stores the history of every endpoint

`Represents s v` compares the maps of a session with one `Generations` for each
endpoint key. The records are compared without their finished pieces. A
`PeerHandle` that refers to the current record of an endpoint is described by
`Refers`; changes through the handle are changes of that current record, and
erasing the active entry closes it. Every operation therefore acts on the
generations of its own endpoint as `PeerOp.history` says, and on no others.
-/

namespace BtClient

/-- The entries of `s` for the endpoint key `e` hold the generations `g`. -/
structure Stores (s : SessionStats) (e : String) (g : Generations PeerStats) : Prop where
  sequence : s.connectSequence e = g.count
  unique : e ∈ s.uniquePeerEndpoints ↔ 0 < g.count
  active : s.activePeerKeyByEndpoint[e]? = g.current.map fun _ => numberedPeerKey e g.count
  record : ∀ n, (s.peersByKey[numberedPeerKey e n]?).map (PeerStats.setPiecesFinished 0) =
    g.get? n
  named : ∀ n r, g.get? n = some r → r.peerKey = numberedPeerKey e n ∧ r.endpointKey = e

/-- The session holds the generations `v e` of every endpoint key `e`, and no
other records. -/
structure Represents (s : SessionStats) (v : String → Generations PeerStats) : Prop where
  stores : ∀ e, Stores s e (v e)
  numbered : ∀ k, k ∈ s.peersByKey → ∃ e n, k = numberedPeerKey e n

/-- The handle refers to the current record of the endpoint `e`. -/
structure Refers (h : PeerHandle) (v : String → Generations PeerStats) (e : String) : Prop where
  represents : Represents h.stats v
  key_eq : h.key = numberedPeerKey e (v e).count
  current : (v e).current = some (h.peer.setPiecesFinished 0)

/-- An endpoint whose entries did not change keeps its generations. -/
theorem Stores.frame {s s' : SessionStats} {e : String} {g : Generations PeerStats}
    (h : Stores s e g) (hseq : s'.connectSequence e = s.connectSequence e)
    (hunique : e ∈ s'.uniquePeerEndpoints ↔ e ∈ s.uniquePeerEndpoints)
    (hactive : s'.activePeerKeyByEndpoint[e]? = s.activePeerKeyByEndpoint[e]?)
    (hpeers : ∀ n, s'.peersByKey[numberedPeerKey e n]? = s.peersByKey[numberedPeerKey e n]?) :
    Stores s' e g where
  sequence := by rw [hseq, h.sequence]
  unique := by rw [hunique, h.unique]
  active := by rw [hactive, h.active]
  record n := by rw [hpeers, h.record]
  named := h.named

namespace Represents

variable {s s' : SessionStats} {v : String → Generations PeerStats}

theorem of_maps_eq (h : Represents s v)
    (hseq : s'.connectSequenceByEndpoint = s.connectSequenceByEndpoint)
    (hunique : s'.uniquePeerEndpoints = s.uniquePeerEndpoints)
    (hactive : s'.activePeerKeyByEndpoint = s.activePeerKeyByEndpoint)
    (hpeers : s'.peersByKey = s.peersByKey) : Represents s' v where
  stores e := by
    apply (h.stores e).frame
    · rw [SessionStats.connectSequence, hseq]
      rfl
    · rw [hunique]
    · rw [hactive]
    · intro n
      rw [hpeers]
  numbered k hk := h.numbered k (by rwa [hpeers] at hk)

/-- The generations of one endpoint change, those of the others stay. -/
theorem update {e : String} {g : Generations PeerStats} (hstores : Stores s' e g)
    (hframe : ∀ e', e' ≠ e → Stores s' e' (v e'))
    (hnumbered : ∀ k, k ∈ s'.peersByKey → ∃ e n, k = numberedPeerKey e n) :
    Represents s' (Function.update v e g) where
  stores e' := by
    by_cases he : e' = e
    · subst he
      rw [Function.update_self]
      exact hstores
    · rw [Function.update_of_ne he]
      exact hframe e' he
  numbered := hnumbered

/-- A record is stored under its own key. -/
theorem key_eq (h : Represents s v) {k : String} {p : PeerStats}
    (hk : s.peersByKey[k]? = some p) :
    ∃ n, k = numberedPeerKey p.endpointKey n ∧ p.peerKey = k ∧
      (v p.endpointKey).get? n = some (p.setPiecesFinished 0) := by
  have hmem : k ∈ s.peersByKey := Std.ExtTreeMap.mem_iff_isSome_getElem?.mpr (by simp [hk])
  obtain ⟨e, n, rfl⟩ := h.numbered k hmem
  have hget : (v e).get? n = some (p.setPiecesFinished 0) := by
    rw [← (h.stores e).record, hk]
    rfl
  obtain ⟨hpeer, hendpoint⟩ := (h.stores e).named n _ hget
  have he : p.endpointKey = e := hendpoint
  subst he
  exact ⟨n, rfl, hpeer, hget⟩

/-- The record number `n` of an endpoint, if it is there, is stored under its
numbered key. -/
theorem getElem?_of_get? (h : Represents s v) {e : String} {n : ℕ} {r : PeerStats}
    (hr : (v e).get? n = some r) :
    ∃ p, s.peersByKey[numberedPeerKey e n]? = some p ∧ p.setPiecesFinished 0 = r := by
  rw [← (h.stores e).record] at hr
  exact Option.map_eq_some_iff.mp hr

/-- The keys in use for an endpoint are those numbered up to the count. -/
theorem mem_iff (h : Represents s v) (e : String) (n : ℕ) :
    numberedPeerKey e n ∈ s.peersByKey ↔ 1 ≤ n ∧ n ≤ (v e).count := by
  rw [← Generations.isSome_get?, ← (h.stores e).record, Option.isSome_map,
    Std.ExtTreeMap.mem_iff_isSome_getElem?]

end Represents

theorem represents_new (runId sessionId : ByteString) (start : TimestampPair) :
    Represents (SessionStats.new runId sessionId start) (fun _ => Generations.empty) where
  stores e :=
    { sequence := by simp [SessionStats.new, SessionStats.connectSequence]
      unique := by simp [SessionStats.new]
      active := by simp [SessionStats.new]
      record n := by cases n <;> simp [SessionStats.new, Generations.get?]
      named n r h := by cases n <;> simp [Generations.get?] at h }
  numbered k hk := by simp [SessionStats.new] at hk

/-! ### Changes of one record -/

/-- A change that keeps the record's keys and does not look at its finished
pieces. -/
structure KeepsKeys (f : PeerStats → PeerStats) : Prop where
  pieces : ∀ p, f (p.setPiecesFinished 0) = (f p).setPiecesFinished 0
  core : ∀ p, (f p).core.peerKey = p.core.peerKey ∧ (f p).core.endpointKey = p.core.endpointKey

namespace KeepsKeys

theorem peerKey {f : PeerStats → PeerStats} (hf : KeepsKeys f) (p : PeerStats) :
    (f p).peerKey = p.peerKey := (hf.core p).1

theorem endpointKey {f : PeerStats → PeerStats} (hf : KeepsKeys f) (p : PeerStats) :
    (f p).endpointKey = p.endpointKey := (hf.core p).2

theorem markSeen (ts : TimestampPair) : KeepsKeys (PeerStats.markSeen ts) where
  pieces _ := rfl
  core _ := ⟨rfl, rfl⟩

theorem notePeerId (pid : PeerId) : KeepsKeys (PeerStats.notePeerId pid) where
  pieces _ := rfl
  core _ := ⟨rfl, rfl⟩

theorem noteConnect (ts : TimestampPair) (direction transport : String) :
    KeepsKeys (PeerStats.noteConnect ts direction transport true) where
  pieces p := PeerStats.noteConnect_setPiecesFinished ts direction transport 0 p
  core p := by simp

theorem noteDisconnect (ts : TimestampPair) : KeepsKeys (PeerStats.noteDisconnect ts) where
  pieces p := PeerStats.noteDisconnect_setPiecesFinished ts 0 p
  core p := by simp

theorem call (ts : TimestampPair) (c : PeerCall) : KeepsKeys (PeerStats.call ts c) where
  pieces p := PeerStats.call_setPiecesFinished ts c 0 p
  core p := by simp [PeerCore.bump]

theorem updateFromSnapshot {A : Type} (peer : PeerInfo A) (ts : TimestampPair)
    (snapshotIntervalMs : Int) :
    KeepsKeys (PeerStats.updateFromSnapshot peer ts snapshotIntervalMs) where
  pieces p := PeerStats.updateFromSnapshot_setPiecesFinished peer ts snapshotIntervalMs 0 p
  core p := by simp

end KeepsKeys

/-! ### References to the current record -/

theorem PeerHandle.getElem?_key (h : PeerHandle) :
    h.stats.peersByKey[h.key]? = some h.peer :=
  Std.ExtTreeMap.getElem?_eq_some_getElem h.valid

@[simp] theorem PeerHandle.peer_modify (f : PeerStats → PeerStats) (h : PeerHandle) :
    (h.modify f).peer = f h.peer := by
  have hself : (h.stats.peersByKey.insert h.key (f h.peer))[h.key]? = some (f h.peer) :=
    Std.ExtTreeMap.getElem?_insert_self
  have hget := (h.modify f).getElem?_key
  exact Option.some.inj (hget.symm.trans hself)

namespace Refers

variable {h : PeerHandle} {v : String → Generations PeerStats} {e : String}

/-- A change through the handle changes the current record of the endpoint. -/
theorem modify (href : Refers h v e) {f : PeerStats → PeerStats} (hf : KeepsKeys f) :
    Refers (h.modify f) (Function.update v e ((v e).update f)) e := by
  have hcur := href.current
  have hstore := href.represents.stores e
  have hlookup : ∀ e' n, (h.modify f).stats.peersByKey[numberedPeerKey e' n]? =
      if e = e' ∧ (v e).count = n then some (f h.peer)
      else h.stats.peersByKey[numberedPeerKey e' n]? := by
    intro e' n
    simp only [PeerHandle.modify, Std.ExtTreeMap.getElem?_insert, href.key_eq,
      Std.LawfulEqCmp.compare_eq_iff_eq, numberedPeerKey_inj]
  refine ⟨Represents.update ⟨?_, ?_, ?_, ?_, ?_⟩ ?_ ?_, ?_, ?_⟩
  · rw [Generations.count_update]
    exact hstore.sequence
  · rw [Generations.count_update]
    exact hstore.unique
  · rw [Generations.count_update, Generations.current_update, Option.map_map]
    exact hstore.active
  · intro n
    rw [hlookup, Generations.get?_update hcur, hf.pieces]
    by_cases hn : n = (v e).count
    · simp [hn]
    · rw [if_neg hn, if_neg fun hand => hn hand.2.symm]
      exact hstore.record n
  · intro n r hr
    rw [Generations.get?_update hcur] at hr
    split at hr
    · next hn =>
        subst hn
        rw [← Option.some.inj hr, hf.peerKey, hf.endpointKey]
        exact hstore.named _ _ (Generations.get?_count hcur)
    · exact hstore.named n r hr
  · intro e' he
    apply (href.represents.stores e').frame
    · rfl
    · rfl
    · rfl
    · intro n
      rw [hlookup, if_neg fun hand => he hand.1.symm]
  · intro k hk
    rcases Std.ExtTreeMap.mem_insert.mp hk with heq | hmem
    · rw [Std.LawfulEqCmp.compare_eq_iff_eq] at heq
      exact ⟨e, _, heq ▸ href.key_eq⟩
    · exact href.represents.numbered k hmem
  · rw [Function.update_self, Generations.count_update]
    exact href.key_eq
  · rw [Function.update_self, Generations.current_update, hcur, PeerHandle.peer_modify,
      Option.map_some, hf.pieces]

/-- The same for generations that were already changed at the endpoint. -/
theorem modify_update {g : Generations PeerStats} (href : Refers h (Function.update v e g) e)
    {f : PeerStats → PeerStats} (hf : KeepsKeys f) :
    Refers (h.modify f) (Function.update v e (g.update f)) e := by
  have hmodify := href.modify hf
  rwa [Function.update_idem, Function.update_self] at hmodify

theorem countConnect (href : Refers h v e) : Refers h.countConnect v e where
  represents := href.represents.of_maps_eq rfl rfl rfl rfl
  key_eq := href.key_eq
  current := href.current

theorem creditPiece (href : Refers h v e) (pieceIndex : Int) :
    Refers (h.creditPiece pieceIndex) v e where
  represents := href.represents.of_maps_eq rfl rfl rfl rfl
  key_eq := href.key_eq
  current := href.current

theorem endpointKey_eq (href : Refers h v e) : h.peer.endpointKey = e :=
  ((href.represents.stores e).named _ _ (Generations.get?_count href.current)).2

/-- Erasing the active entry closes the current record. -/
theorem eraseActive (href : Refers h v e) :
    Represents h.eraseActive.stats (Function.update v e (v e).close) := by
  have hstore := href.represents.stores e
  have hlookup : ∀ e' : String, h.eraseActive.stats.activePeerKeyByEndpoint[e']? =
      if e = e' then none else h.stats.activePeerKeyByEndpoint[e']? := by
    intro e'
    simp only [PeerHandle.eraseActive, Std.ExtTreeMap.getElem?_erase, href.endpointKey_eq,
      Std.LawfulEqCmp.compare_eq_iff_eq]
  refine Represents.update ⟨?_, ?_, ?_, ?_, ?_⟩ ?_ href.represents.numbered
  · rw [Generations.count_close]
    exact hstore.sequence
  · rw [Generations.count_close]
    exact hstore.unique
  · rw [hlookup, if_pos rfl]
    rfl
  · intro n
    rw [Generations.get?_close]
    exact hstore.record n
  · intro n r hr
    rw [Generations.get?_close] at hr
    exact hstore.named n r hr
  · intro e' he
    apply (href.represents.stores e').frame
    · rfl
    · rfl
    · rw [hlookup, if_neg fun heq => he heq.symm]
    · intro n
      rfl

end Refers

/-! ### Opening a record -/

section Opening

variable {A : Type} [Address A] {s : SessionStats} {v : String → Generations PeerStats}

/-- An endpoint with a record is known already. -/
theorem Represents.insertUniqueEndpoint (h : Represents s v) {e : String}
    (hpos : 0 < (v e).count) : Represents (s.insertUniqueEndpoint e) v := by
  have hmem : e ∈ s.uniquePeerEndpoints := (h.stores e).unique.mpr hpos
  have hinsert : (s.insertUniqueEndpoint e).uniquePeerEndpoints = s.uniquePeerEndpoints :=
    Finset.insert_eq_of_mem hmem
  exact h.of_maps_eq rfl hinsert rfl rfl

/-- A record is created under the next number of its endpoint. -/
theorem key_createPeer (endpoint : Endpoint A) (ts : TimestampPair)
    (direction transport : String) :
    (s.createPeer endpoint ts direction transport).key =
      numberedPeerKey (endpointToString endpoint)
        (s.connectSequence (endpointToString endpoint) + 1) := rfl

theorem getElem?_peersByKey_createPeer (endpoint : Endpoint A) (ts : TimestampPair)
    (direction transport : String) (k : String)
    (hfresh : (s.createPeer endpoint ts direction transport).key ∉ s.peersByKey) :
    (s.createPeer endpoint ts direction transport).stats.peersByKey[k]? =
      if (s.createPeer endpoint ts direction transport).key = k then
        some (PeerOp.newRecord endpoint ts direction transport
          (s.connectSequence (endpointToString endpoint) + 1))
      else s.peersByKey[k]? := by
  rw [key_createPeer] at hfresh ⊢
  simp only [SessionStats.createPeer, Std.ExtTreeMap.getElem?_insertIfNew,
    Std.LawfulEqCmp.compare_eq_iff_eq]
  by_cases hk : numberedPeerKey (endpointToString endpoint)
      (s.connectSequence (endpointToString endpoint) + 1) = k
  · rw [if_pos ⟨hk, hfresh⟩, if_pos hk]
    rfl
  · rw [if_neg fun hand => hk hand.1, if_neg hk]

theorem getElem?_active_createPeer (endpoint : Endpoint A) (ts : TimestampPair)
    (direction transport : String) (e : String) :
    (s.createPeer endpoint ts direction transport).stats.activePeerKeyByEndpoint[e]? =
      if endpointToString endpoint = e then
        some (s.createPeer endpoint ts direction transport).key
      else s.activePeerKeyByEndpoint[e]? := by
  simp only [SessionStats.createPeer, Std.ExtTreeMap.getElem?_insert,
    Std.LawfulEqCmp.compare_eq_iff_eq]

theorem connectSequence_createPeer (endpoint : Endpoint A) (ts : TimestampPair)
    (direction transport : String) (e : String) :
    (s.createPeer endpoint ts direction transport).stats.connectSequence e =
      if endpointToString endpoint = e then s.connectSequence (endpointToString endpoint) + 1
      else s.connectSequence e := by
  simp only [SessionStats.createPeer, SessionStats.connectSequence,
    Std.ExtTreeMap.getElem?_insert, Std.LawfulEqCmp.compare_eq_iff_eq]
  split <;> rfl

/-- The branch that creates a record opens the next generation. -/
theorem refers_createPeer (h : Represents s v) (endpoint : Endpoint A) (ts : TimestampPair)
    (direction transport : String) {e : String} (he : endpointToString endpoint = e)
    (hnone : (v e).current = none) :
    Refers ((s.insertUniqueEndpoint e).createPeer endpoint ts direction transport)
      (Function.update v e ((v e).ensureOpen (PeerOp.newRecord endpoint ts direction transport)))
      e := by
  have hseq : (s.insertUniqueEndpoint e).connectSequence e = (v e).count := by
    rw [← (h.stores e).sequence]
    rfl
  have hkey := key_createPeer (s := s.insertUniqueEndpoint e) endpoint ts direction transport
  have hlookup := getElem?_peersByKey_createPeer (s := s.insertUniqueEndpoint e) endpoint ts
    direction transport
  have hactive := getElem?_active_createPeer (s := s.insertUniqueEndpoint e) endpoint ts
    direction transport
  have hsequence := connectSequence_createPeer (s := s.insertUniqueEndpoint e) endpoint ts
    direction transport
  have hunique : ((s.insertUniqueEndpoint e).createPeer endpoint ts direction
      transport).stats.uniquePeerEndpoints = insert e s.uniquePeerEndpoints := rfl
  have hpieces : ∀ n, (PeerOp.newRecord endpoint ts direction transport n).setPiecesFinished 0 =
    PeerOp.newRecord endpoint ts direction transport n := fun n => rfl
  have hnamed : ∀ n, (PeerOp.newRecord endpoint ts direction transport n).peerKey =
      numberedPeerKey (endpointToString endpoint) n ∧
      (PeerOp.newRecord endpoint ts direction transport n).endpointKey =
        endpointToString endpoint := fun n => ⟨rfl, rfl⟩
  generalize PeerOp.newRecord endpoint ts direction transport = new at hlookup hpieces hnamed ⊢
  generalize (s.insertUniqueEndpoint e).createPeer endpoint ts direction transport = h' at *
  simp only [he, hseq] at hkey hactive hsequence hlookup hnamed
  have hcount : ((v e).ensureOpen new).count = (v e).count + 1 :=
    Generations.count_ensureOpen_of_none hnone
  have hcurrent : ((v e).ensureOpen new).current = some (new ((v e).count + 1)) := by
    rw [Generations.ensureOpen_of_none hnone]
  have hfresh : h'.key ∉ (s.insertUniqueEndpoint e).peersByKey := by
    intro hmem
    rw [hkey] at hmem
    have hle := (h.mem_iff e _).mp hmem
    omega
  have hnumbered : ∀ e' n, h'.stats.peersByKey[numberedPeerKey e' n]? =
      if e = e' ∧ (v e).count + 1 = n then some (new ((v e).count + 1))
      else s.peersByKey[numberedPeerKey e' n]? := by
    intro e' n
    rw [hlookup _ hfresh, hkey]
    simp only [numberedPeerKey_inj]
    rfl
  have hpeer : h'.peer = new ((v e).count + 1) := by
    have hget := h'.getElem?_key
    rw [hlookup _ hfresh, if_pos rfl] at hget
    exact (Option.some.inj hget).symm
  refine ⟨Represents.update ⟨?_, ?_, ?_, ?_, ?_⟩ ?_ ?_, ?_, ?_⟩
  · rw [hsequence, if_pos rfl, hcount]
  · rw [hunique, hcount]
    simp
  · rw [hactive, if_pos rfl, hcurrent, hcount, hkey]
    rfl
  · intro n
    rw [hnumbered, Generations.get?_ensureOpen_of_none hnone]
    by_cases hn : n = (v e).count + 1
    · rw [if_pos ⟨rfl, hn.symm⟩, if_pos hn, Option.map_some, hpieces]
    · rw [if_neg fun hand => hn hand.2.symm, if_neg hn]
      exact (h.stores e).record n
  · intro n r hr
    rw [Generations.get?_ensureOpen_of_none hnone] at hr
    split at hr
    · next hn =>
        rw [← Option.some.inj hr, hn]
        exact hnamed _
    · exact (h.stores e).named n r hr
  · intro e' he'
    apply (h.stores e').frame
    · rw [hsequence, if_neg fun heq => he' heq.symm]
      rfl
    · rw [hunique]
      simp [he']
    · rw [hactive, if_neg fun heq => he' heq.symm]
      rfl
    · intro n
      rw [hnumbered, if_neg fun hand => he' hand.1.symm]
  · intro k hk
    by_cases hkk : h'.key = k
    · exact ⟨e, _, by rw [← hkk, hkey]⟩
    · rw [Std.ExtTreeMap.mem_iff_isSome_getElem?, hlookup _ hfresh, if_neg hkk] at hk
      exact h.numbered k (Std.ExtTreeMap.mem_iff_isSome_getElem?.mpr hk)
  · rw [Function.update_self, hcount, hkey]
  · rw [Function.update_self, hcurrent, hpeer, hpieces]

/-- `ensure_peer_for_endpoint` opens a generation unless one is current, and the
reference it returns is to the current record. -/
theorem refers_ensure (h : Represents s v) (endpoint : Endpoint A) (ts : TimestampPair)
    (direction transport : String) {e : String} (he : endpointToString endpoint = e) :
    Refers (s.ensurePeerForEndpoint endpoint ts direction transport)
      (Function.update v e ((v e).ensureOpen (PeerOp.newRecord endpoint ts direction transport)))
      e := by
  have hactive := (h.stores e).active
  subst he
  unfold SessionStats.ensurePeerForEndpoint
  simp only
  split
  · next key hkey =>
      have hsome : s.activePeerKeyByEndpoint[endpointToString endpoint]? = some key := hkey
      rw [hsome] at hactive
      obtain ⟨r, hr, hnum⟩ := Option.map_eq_some_iff.mp hactive.symm
      have hpos : 0 < (v (endpointToString endpoint)).count := by
        rw [Generations.count_of_current hr]
        exact Nat.succ_pos _
      rw [Generations.ensureOpen_of_current hr, Function.update_eq_self]
      refine ⟨h.insertUniqueEndpoint hpos, hnum.symm, ?_⟩
      obtain ⟨p, hp, hpr⟩ := h.getElem?_of_get? (Generations.get?_count hr)
      rw [hnum] at hp
      rw [hr, ← hpr]
      congr 2
      have hvalid : key ∈ (s.insertUniqueEndpoint (endpointToString endpoint)).peersByKey :=
        (s.insertUniqueEndpoint (endpointToString endpoint)).active_known _ _ hkey
      have hget := (PeerHandle.mk _ key hvalid).getElem?_key
      exact Option.some.inj (hp.symm.trans hget)
  · next hnone =>
      have hnone' : s.activePeerKeyByEndpoint[endpointToString endpoint]? = none := hnone
      rw [hnone'] at hactive
      exact refers_createPeer h endpoint ts direction transport rfl
        (Option.map_eq_none_iff.mp hactive.symm)

end Opening

/-! ### Every operation acts on the history of its endpoint -/

section Operations

variable {A : Type} [Address A] {s : SessionStats} {v : String → Generations PeerStats}

/-- The operation up to the point where a disconnect closes the record: the record
is there, and it has been changed. -/
def PeerOp.changed (op : PeerOp A) (g : Generations PeerStats) : Generations PeerStats :=
  (g.ensureOpen op.opened).update op.change

theorem refers_notePeerConnect (h : Represents s v) (endpoint : Endpoint A) (pid : PeerId)
    (ts : TimestampPair) (direction transport : String) {e : String}
    (he : endpointToString endpoint = e) :
    Refers (s.notePeerConnect endpoint pid ts direction transport)
      (Function.update v e ((PeerOp.connect endpoint pid ts direction transport).changed (v e)))
      e := by
  have hensure := refers_ensure h endpoint ts direction transport he
  unfold SessionStats.notePeerConnect
  simp only
  generalize s.ensurePeerForEndpoint endpoint ts direction transport = h' at *
  have hconnect :=
    (Refers.modify_update (h := if h'.peer.sawConnectAlert = true then h' else h'.countConnect)
      (by split; exacts [hensure, hensure.countConnect])
      (KeepsKeys.noteConnect ts direction transport)).modify_update (KeepsKeys.notePeerId pid)
  rwa [Generations.update_update] at hconnect

theorem refers_notePeerEvent (h : Represents s v) (endpoint : Endpoint A) (pid : PeerId)
    (ts : TimestampPair) {e : String} (he : endpointToString endpoint = e) :
    Refers (s.notePeerEvent endpoint pid ts "unknown" "unknown")
      (Function.update v e ((PeerOp.event endpoint pid ts none).changed (v e))) e := by
  have hensure := refers_ensure h endpoint ts "unknown" "unknown" he
  have hevent := (hensure.modify_update (KeepsKeys.markSeen ts)).modify_update
    (KeepsKeys.notePeerId pid)
  rwa [Generations.update_update] at hevent

/-- After the operation, but before a disconnect erases the active entry, the
result refers to the changed record. -/
theorem PeerOp.refers_apply (op : PeerOp A) (h : Represents s v) (hop : op.closes = false) :
    Refers (op.apply s) (Function.update v op.endpointKey (op.changed (v op.endpointKey)))
      op.endpointKey := by
  cases op with
  | connect endpoint pid ts direction transport =>
      exact refers_notePeerConnect h endpoint pid ts direction transport rfl
  | event endpoint pid ts call =>
      have hevent := refers_notePeerEvent h endpoint pid ts rfl
      cases call with
      | none => exact hevent
      | some c =>
          have hcall := hevent.modify_update (KeepsKeys.call ts c)
          have hchanged : (PeerOp.event endpoint pid ts (some c)).changed =
              fun g => ((PeerOp.event endpoint pid ts none).changed g).update
                (PeerStats.call ts c) := by
            funext g
            simp only [changed, Generations.update_update]
            rfl
          rw [hchanged]
          cases c with
          | blockResponse pieceIndex blockIndex => exact hcall.creditPiece pieceIndex
          | requestSent pieceIndex blockIndex => exact hcall
          | timeout pieceIndex blockIndex => exact hcall
          | drop pieceIndex blockIndex => exact hcall
          | incomingRequest request => exact hcall
          | blockUploaded pieceIndex blockIndex => exact hcall
          | snubbed => exact hcall
          | unsnubbed => exact hcall
  | disconnect endpoint pid ts => cases hop
  | snapshot peer ts snapshotIntervalMs =>
      have hensure := refers_ensure h peer.ip ts (PeerStats.directionFromPeerInfo peer)
        (transportFromPeerInfo peer) rfl
      exact hensure.modify_update (KeepsKeys.updateFromSnapshot peer ts snapshotIntervalMs)

theorem PeerOp.history_eq (op : PeerOp A) (g : Generations PeerStats) :
    op.history g = if op.closes then (op.changed g).close else op.changed g := rfl

theorem PeerOp.count_history (op : PeerOp A) (g : Generations PeerStats) :
    (op.history g).count = (op.changed g).count := by
  rw [history_eq]
  split <;> simp

theorem refers_disconnect_before_erase (h : Represents s v) (endpoint : Endpoint A)
    (pid : PeerId) (ts : TimestampPair) {e : String} (he : endpointToString endpoint = e) :
    Refers ((s.notePeerEvent endpoint pid ts "unknown" "unknown").modify
        (PeerStats.noteDisconnect ts))
      (Function.update v e ((PeerOp.disconnect endpoint pid ts).changed (v e))) e := by
  have hevent := refers_notePeerEvent h endpoint pid ts he
  have hdisconnect := hevent.modify_update (KeepsKeys.noteDisconnect ts)
  simp only [PeerOp.changed, Generations.update_update] at hdisconnect
  exact hdisconnect

/-- An operation about a peer acts on the history of its endpoint, and on no other
endpoint. -/
theorem PeerOp.represents_apply (op : PeerOp A) (h : Represents s v) :
    Represents (op.apply s).stats
      (Function.update v op.endpointKey (op.history (v op.endpointKey))) := by
  cases hop : op.closes with
  | false =>
      rw [PeerOp.history_eq, hop]
      exact (op.refers_apply h hop).represents
  | true =>
      cases op with
      | disconnect endpoint pid ts =>
          have herase := (refers_disconnect_before_erase h endpoint pid ts rfl).eraseActive
          rw [Function.update_idem, Function.update_self] at herase
          exact herase.of_maps_eq rfl rfl rfl rfl
      | connect endpoint pid ts direction transport => cases hop
      | event endpoint pid ts call => cases hop
      | snapshot peer ts snapshotIntervalMs => cases hop

/-- The result of an operation refers to the newest record of the endpoint. -/
theorem PeerOp.key_apply (op : PeerOp A) (h : Represents s v) :
    (op.apply s).key =
      numberedPeerKey op.endpointKey (op.history (v op.endpointKey)).count := by
  cases hop : op.closes with
  | false =>
      have hkey := (op.refers_apply h hop).key_eq
      rwa [Function.update_self, ← PeerOp.count_history] at hkey
  | true =>
      cases op with
      | disconnect endpoint pid ts =>
          have hkey := (refers_disconnect_before_erase h endpoint pid ts rfl).key_eq
          rwa [Function.update_self, ← PeerOp.count_history] at hkey
      | connect endpoint pid ts direction transport => cases hop
      | event endpoint pid ts call => cases hop
      | snapshot peer ts snapshotIntervalMs => cases hop

/-- The record that an operation returns carries the key it is stored under. -/
theorem PeerOp.peerKey_apply (op : PeerOp A) (h : Represents s v) :
    (op.apply s).peer.peerKey = (op.apply s).key := by
  obtain ⟨n, -, hpeer, -⟩ := (op.represents_apply h).key_eq (op.apply s).getElem?_key
  exact hpeer

/-- A pass over all records is a pass over all histories. -/
theorem Represents.mapPeers (h : Represents s v) {f : PeerStats → PeerStats}
    (hf : KeepsKeys f) : Represents (s.mapPeers f) (fun e => (v e).map f) where
  stores e :=
    { sequence := by
        rw [Generations.count_map]
        exact (h.stores e).sequence
      unique := by
        rw [Generations.count_map]
        exact (h.stores e).unique
      active := by
        rw [Generations.count_map, Generations.current_map, Option.map_map]
        exact (h.stores e).active
      record := by
        intro n
        rw [Generations.get?_map, ← (h.stores e).record, SessionStats.mapPeers,
          Std.ExtTreeMap.getElem?_map, Option.map_map, Option.map_map]
        congr 1
        funext p
        exact (hf.pieces p).symm
      named := by
        intro n r hr
        rw [Generations.get?_map] at hr
        obtain ⟨q, hq, rfl⟩ := Option.map_eq_some_iff.mp hr
        rw [hf.peerKey, hf.endpointKey]
        exact (h.stores e).named n q hq }
  numbered k hk := h.numbered k (Std.ExtTreeMap.mem_map.mp hk)

/-- A finished piece is credited outside the histories. -/
theorem Represents.creditFinishedPiece (h : Represents s v) (key : String) :
    Represents (s.creditFinishedPiece key) v := by
  unfold SessionStats.creditFinishedPiece
  split
  · next p hp =>
      refine ⟨fun e => ?_, fun k hk => ?_⟩
      · refine ⟨(h.stores e).sequence, (h.stores e).unique, (h.stores e).active, ?_,
          (h.stores e).named⟩
        intro n
        rw [← (h.stores e).record]
        simp only [PeerHandle.modify, Std.ExtTreeMap.getElem?_insert,
          Std.LawfulEqCmp.compare_eq_iff_eq]
        split
        · next heq =>
            rw [← heq, hp]
            rfl
        · rfl
      · rcases Std.ExtTreeMap.mem_insert.mp hk with heq | hmem
        · rw [Std.LawfulEqCmp.compare_eq_iff_eq] at heq
          rw [← heq]
          exact h.numbered key (Std.ExtTreeMap.mem_iff_isSome_getElem?.mpr (by rw [hp]; rfl))
        · exact h.numbered k hmem
  · exact h

theorem Represents.notePieceFinished (h : Represents s v) (pieceIndex : Int) :
    Represents (s.notePieceFinished pieceIndex) v := by
  unfold SessionStats.notePieceFinished
  split
  · exact h.of_maps_eq rfl rfl rfl rfl
  · simp only
    split
    · exact h.of_maps_eq rfl rfl rfl rfl
    · next key hkey =>
        apply Represents.creditFinishedPiece
        exact h.of_maps_eq rfl rfl rfl rfl

theorem KeepsKeys.resetOutstandingRequests : KeepsKeys PeerStats.resetOutstandingRequests where
  pieces _ := rfl
  core _ := ⟨rfl, rfl⟩

theorem KeepsKeys.finalize (sessionEnd : TimestampPair) :
    KeepsKeys (PeerStats.finalize sessionEnd) where
  pieces p := PeerStats.finalize_setPiecesFinished sessionEnd 0 p
  core p := by simp

/-- One operation acts on the history of every endpoint as `SessionOp.history`
says. -/
theorem SessionOp.represents_apply (op : SessionOp A) (h : Represents s v) :
    Represents (op.apply s) (fun e => op.history e (v e)) := by
  cases op with
  | peer op =>
      have hv : (fun e => (SessionOp.peer op).history e (v e)) =
          Function.update v op.endpointKey (op.history (v op.endpointKey)) := by
        funext e
        by_cases he : e = op.endpointKey
        · subst he
          simp [SessionOp.history]
        · rw [Function.update_of_ne he]
          exact if_neg fun heq => he heq.symm
      rw [hv]
      exact op.represents_apply h
  | pieceFinished pieceIndex => exact h.notePieceFinished pieceIndex
  | torrentState state => exact h.of_maps_eq rfl rfl rfl rfl
  | sessionSnapshot status => exact h.of_maps_eq rfl rfl rfl rfl
  | alertLoss bits =>
      exact (h.mapPeers KeepsKeys.resetOutstandingRequests).of_maps_eq rfl rfl rfl rfl
  | initialTotals status => exact h.of_maps_eq rfl rfl rfl rfl

/-- The history of the endpoint `e` over a sequence of operations. -/
def historyOf (e : String) (ops : List (SessionOp A)) (g : Generations PeerStats) :
    Generations PeerStats :=
  ops.foldl (fun g op => op.history e g) g

theorem represents_run (ops : List (SessionOp A)) (h : Represents s v) :
    Represents (s.run ops) (fun e => historyOf e ops (v e)) := by
  induction ops generalizing s v with
  | nil => exact h
  | cons op ops ih => exact ih (op.represents_apply h)

end Operations

end BtClient
