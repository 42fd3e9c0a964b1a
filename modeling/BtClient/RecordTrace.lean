import BtClient.RecordOps
import BtClient.Representation

/-!
# The operations behind each record

A `RecordTrace` is a record as it was created together with the operations that it has
gone through since. `tracesOf e ops` are the traces of the successive connections of the
endpoint key `e`; replaying them gives the records that the session stores, so a property
of all traces is a property of all records.
-/

namespace BtClient

structure RecordTrace (A : Type) where
  created : PeerStats
  ops : List (RecordOp A)

namespace RecordTrace

variable {A : Type}

/-- The record after its operations. -/
def replay (t : RecordTrace A) : PeerStats := t.created.run t.ops

/-- More operations on the record. -/
def extend (ops : List (RecordOp A)) (t : RecordTrace A) : RecordTrace A :=
  { t with ops := t.ops ++ ops }

@[simp] theorem replay_extend (ops : List (RecordOp A)) (t : RecordTrace A) :
    (t.extend ops).replay = t.replay.run ops :=
  PeerStats.run_append _ _ _

end RecordTrace

namespace PeerOp

variable {A : Type}

/-- The operations on the record that a call about a peer consists of. -/
def recordOps : PeerOp A → List (RecordOp A)
  | .connect _ pid ts direction transport => [.connect ts direction transport true, .peerId pid]
  | .event _ pid ts none => [.seen ts, .peerId pid]
  | .event _ pid ts (some c) => [.seen ts, .peerId pid, .call ts c]
  | .disconnect _ pid ts => [.seen ts, .peerId pid, .disconnect ts]
  | .snapshot peer ts snapshotIntervalMs => [.snapshot peer ts snapshotIntervalMs]

theorem run_recordOps (op : PeerOp A) (p : PeerStats) : p.run op.recordOps = op.change p := by
  cases op with
  | event endpoint pid ts call => cases call <;> rfl
  | _ => rfl

/-- The time at which the operation is called. -/
def monoNs : PeerOp A → Int
  | .connect _ _ ts _ _ | .event _ _ ts _ | .disconnect _ _ ts | .snapshot _ ts _ => ts.monoNs

variable [Address A]

/-- What the operation does to the traces of its endpoint. -/
def traces (op : PeerOp A) (g : Generations (RecordTrace A)) : Generations (RecordTrace A) :=
  let g := (g.ensureOpen fun n => ⟨op.opened n, []⟩).update (RecordTrace.extend op.recordOps)
  if op.closes then g.close else g

theorem map_replay_traces (op : PeerOp A) (g : Generations (RecordTrace A)) :
    (op.traces g).map RecordTrace.replay = op.history (g.map RecordTrace.replay) := by
  have hopen : ((g.ensureOpen fun n => ⟨op.opened n, []⟩).update
      (RecordTrace.extend op.recordOps)).map RecordTrace.replay =
      ((g.map RecordTrace.replay).ensureOpen op.opened).update op.change := by
    have hchange : ∀ t : RecordTrace A,
        (t.extend op.recordOps).replay = op.change t.replay := by
      intro t
      rw [RecordTrace.replay_extend, op.run_recordOps]
    rw [Generations.map_update _ _ hchange, Generations.map_ensureOpen]
    rfl
  simp only [traces, history]
  split
  · rw [Generations.map_close, hopen]
  · exact hopen

end PeerOp

namespace SessionOp

variable {A : Type} [Address A]

/-- What the operation does to the traces of the endpoint `e`. -/
def traces (e : String) (op : SessionOp A) (g : Generations (RecordTrace A)) :
    Generations (RecordTrace A) :=
  match op with
  | .peer op => if op.endpointKey = e then op.traces g else g
  | .alertLoss _ => g.map (RecordTrace.extend [.reset])
  | _ => g

theorem map_replay_traces (e : String) (op : SessionOp A) (g : Generations (RecordTrace A)) :
    (op.traces e g).map RecordTrace.replay = op.history e (g.map RecordTrace.replay) := by
  cases op with
  | peer op =>
      simp only [traces, history]
      split
      · exact op.map_replay_traces g
      · rfl
  | alertLoss bits =>
      have hreset : RecordTrace.replay ∘ RecordTrace.extend [RecordOp.reset (A := A)] =
          PeerStats.resetOutstandingRequests ∘ RecordTrace.replay := by
        funext t
        exact t.replay_extend _
      simp [traces, history, Generations.map, hreset]
  | pieceFinished pieceIndex => rfl
  | torrentState state => rfl
  | sessionSnapshot status => rfl
  | initialTotals status => rfl

end SessionOp

section Traces

variable {A : Type} [Address A]

/-- The traces of the connections of the endpoint `e` over a sequence of operations. -/
def tracesOf (e : String) (ops : List (SessionOp A)) : Generations (RecordTrace A) :=
  ops.foldl (fun g op => op.traces e g) Generations.empty

theorem tracesOf_append_singleton (e : String) (ops : List (SessionOp A)) (op : SessionOp A) :
    tracesOf e (ops ++ [op]) = op.traces e (tracesOf e ops) := by
  simp [tracesOf]

theorem map_replay_tracesOf (e : String) (ops : List (SessionOp A)) :
    (tracesOf e ops).map RecordTrace.replay = historyOf e ops Generations.empty := by
  induction ops using List.reverseRecOn with
  | nil => rfl
  | append_singleton ops op ih =>
      rw [tracesOf_append_singleton, op.map_replay_traces, ih]
      simp [historyOf]

/-- What one operation does to a property of the closed traces and one of the open ones. -/
theorem SessionOp.splits_traces (op : SessionOp A) (e : String)
    {g : Generations (RecordTrace A)} {P Q : RecordTrace A → Prop} (h : g.Splits P Q)
    (hnew : ∀ pop, op = .peer pop → ∀ n, Q ⟨pop.opened n, []⟩)
    (hkeep : ∀ pop, op = .peer pop → pop.closes = false →
      ∀ t, Q t → Q (t.extend pop.recordOps))
    (hclose : ∀ pop, op = .peer pop → pop.closes = true →
      ∀ t, Q t → P (t.extend pop.recordOps))
    (hreset : ∀ t, Q t → Q (t.extend [.reset])) (hresetClosed : ∀ t, P t → P (t.extend [.reset])) :
    (op.traces e g).Splits P Q := by
  cases op with
  | peer op =>
      simp only [SessionOp.traces]
      split
      · have hopen := h.ensureOpen (hnew op rfl)
        cases hop : op.closes with
        | false =>
            simp only [PeerOp.traces, hop, Bool.false_eq_true, if_false]
            exact hopen.update (hkeep op rfl hop)
        | true =>
            simp only [PeerOp.traces, hop, if_true]
            exact (hopen.update (hclose op rfl hop)).close
      · exact h
  | alertLoss bits => exact h.map hresetClosed hreset
  | pieceFinished pieceIndex => exact h
  | torrentState state => exact h
  | sessionSnapshot status => exact h
  | initialTotals status => exact h

/-- A property of the traces that holds of new ones and that every operation keeps. The
traces of open connections have the property `Q`, those of closed ones `P`. -/
theorem splits_tracesOf {P Q : RecordTrace A → Prop} (e : String)
    (hnew : ∀ (op : PeerOp A) n, Q ⟨op.opened n, []⟩)
    (hkeep : ∀ (op : PeerOp A) t, Q t → op.closes = false → Q (t.extend op.recordOps))
    (hclose : ∀ (op : PeerOp A) t, Q t → op.closes = true → P (t.extend op.recordOps))
    (hreset : ∀ t, Q t → Q (t.extend [.reset])) (hresetClosed : ∀ t, P t → P (t.extend [.reset]))
    (ops : List (SessionOp A)) : (tracesOf e ops).Splits P Q := by
  induction ops using List.reverseRecOn with
  | nil => exact Generations.Splits.empty
  | append_singleton ops op ih =>
      rw [tracesOf_append_singleton]
      exact op.splits_traces e ih (fun op _ n => hnew op n)
        (fun op _ hop t ht => hkeep op t ht hop) (fun op _ hop t ht => hclose op t ht hop)
        hreset hresetClosed

/-- A property of new traces that the given operations keep. -/
theorem tracesOf_induction_of_mem {P : RecordTrace A → Prop} {e : String}
    {ops : List (SessionOp A)}
    (hnew : ∀ op : PeerOp A, .peer op ∈ ops → ∀ n, P ⟨op.opened n, []⟩)
    (hpeer : ∀ op : PeerOp A, .peer op ∈ ops → ∀ t, P t → P (t.extend op.recordOps))
    (hreset : ∀ t, P t → P (t.extend [.reset])) {n : ℕ} {t : RecordTrace A}
    (ht : (tracesOf e ops).get? n = some t) : P t := by
  have hsplits : (tracesOf e ops).Splits P P := by
    clear ht
    induction ops using List.reverseRecOn with
    | nil => exact Generations.Splits.empty
    | append_singleton ops op ih =>
        have hbefore := ih (fun pop hpop => hnew pop (List.mem_append_left _ hpop))
          (fun pop hpop => hpeer pop (List.mem_append_left _ hpop))
        rw [tracesOf_append_singleton]
        exact op.splits_traces e hbefore
          (fun pop hop n => hnew pop (by rw [hop]; simp) n)
          (fun pop hop _ t h => hpeer pop (by rw [hop]; simp) t h)
          (fun pop hop _ t h => hpeer pop (by rw [hop]; simp) t h) hreset hreset
  rcases List.mem_append.mp (Generations.mem_records_of_get? ht) with hclosed | hcurrent
  · exact hsplits.closed t hclosed
  · exact hsplits.current t (Option.mem_toList.mp hcurrent)

/-- A property of new traces that more operations keep. -/
theorem tracesOf_induction {P : RecordTrace A → Prop}
    (hnew : ∀ (op : PeerOp A) n, P ⟨op.opened n, []⟩)
    (hextend : ∀ t ops, P t → P (t.extend ops)) {e : String} {ops : List (SessionOp A)} {n : ℕ}
    {t : RecordTrace A} (ht : (tracesOf e ops).get? n = some t) : P t :=
  tracesOf_induction_of_mem (fun op _ n => hnew op n) (fun op _ t h => hextend t op.recordOps h)
    (fun t h => hextend t _ h) ht

omit [Address A] in
/-- The time at which an operation on the session is called, if it is given one. -/
def SessionOp.time? : SessionOp A → Option Int
  | .peer op => some op.monoNs
  | _ => none

omit [Address A] in
/-- The operations have positive times that do not decrease, and `finish` is not before
them. -/
structure SessionOp.InOrder (ops : List (SessionOp A)) (finish : Int) : Prop where
  positive : ∀ t ∈ ops.filterMap SessionOp.time?, 0 < t
  ordered : (ops.filterMap SessionOp.time? ++ [finish]).Pairwise (· ≤ ·)

/-- The same for properties that depend on the time reached, for operations in order. -/
theorem splits_tracesOf_inOrder {P Q : Int → RecordTrace A → Prop} (e : String)
    (hP : ∀ {b b' t}, b ≤ b' → P b t → P b' t) (hQ : ∀ {b b' t}, b ≤ b' → Q b t → Q b' t)
    (hnew : ∀ (op : PeerOp A) n, 0 < op.monoNs → Q op.monoNs ⟨op.opened n, []⟩)
    (hkeep : ∀ (op : PeerOp A) t, Q op.monoNs t → op.closes = false →
      Q op.monoNs (t.extend op.recordOps))
    (hclose : ∀ (op : PeerOp A) t, Q op.monoNs t → op.closes = true →
      P op.monoNs (t.extend op.recordOps))
    (hreset : ∀ {b t}, Q b t → Q b (t.extend [.reset]))
    (hresetClosed : ∀ {b t}, P b t → P b (t.extend [.reset]))
    {ops : List (SessionOp A)} {b : Int} (h : SessionOp.InOrder ops b) :
    (tracesOf e ops).Splits (P b) (Q b) := by
  induction ops using List.reverseRecOn generalizing b with
  | nil => exact Generations.Splits.empty
  | append_singleton ops op ih =>
      have hpositive := h.positive
      have hordered := h.ordered
      rw [tracesOf_append_singleton]
      cases htime : op.time? with
      | none =>
          rw [List.filterMap_append, List.filterMap_cons_none htime, List.filterMap_nil,
            List.append_nil] at hpositive hordered
          have hpeer : ∀ pop, op ≠ .peer pop := by
            rintro pop rfl
            cases htime
          exact op.splits_traces e (ih ⟨hpositive, hordered⟩) (fun pop hop => absurd hop (hpeer pop))
            (fun pop hop => absurd hop (hpeer pop)) (fun pop hop => absurd hop (hpeer pop))
            (fun _ => hreset) (fun _ => hresetClosed)
      | some τ =>
          rw [List.filterMap_append, List.filterMap_cons_some htime, List.filterMap_nil]
            at hpositive hordered
          have hτ : ∀ pop, op = .peer pop → pop.monoNs = τ := by
            rintro pop rfl
            exact Option.some.inj htime
          have hbefore := ih ⟨fun t ht => hpositive t (List.mem_append_left _ ht),
            hordered.sublist (List.sublist_append_left _ _)⟩
          have hτb : τ ≤ b := by
            rw [List.pairwise_append] at hordered
            exact hordered.2.2 τ (by simp) b (by simp)
          have hstep := op.splits_traces e hbefore
            (fun pop hop n => by
              rw [← hτ pop hop]
              exact hnew pop n (hτ pop hop ▸ hpositive τ (by simp)))
            (fun pop hop hcloses t ht => by
              rw [← hτ pop hop] at ht ⊢
              exact hkeep pop t ht hcloses)
            (fun pop hop hcloses t ht => by
              rw [← hτ pop hop] at ht ⊢
              exact hclose pop t ht hcloses)
            (fun _ => hreset) (fun _ => hresetClosed)
          exact hstep.imp (fun _ => hP hτb) (fun _ => hQ hτb)

/-- The record was created at a positive time, and the times of its operations do not
decrease from there on and up to `b`. -/
structure RecordTrace.InOrder (b : Int) (t : RecordTrace A) : Prop where
  positive : 0 < t.created.connectedMonoNs
  ordered : (t.created.connectedMonoNs :: t.ops.filterMap RecordOp.time?).Pairwise (· ≤ ·)
  bounded : ∀ τ ∈ t.created.connectedMonoNs :: t.ops.filterMap RecordOp.time?, τ ≤ b

omit [Address A] in
theorem RecordTrace.InOrder.mono {b b' : Int} {t : RecordTrace A} (h : t.InOrder b)
    (hb : b ≤ b') : t.InOrder b' :=
  ⟨h.positive, h.ordered, fun τ hτ => (h.bounded τ hτ).trans hb⟩

omit [Address A] in
/-- More operations that are called at the time reached. -/
theorem RecordTrace.InOrder.extend {b : Int} {t : RecordTrace A} (h : t.InOrder b)
    {ops : List (RecordOp A)} (hops : ∀ o ∈ ops, ∀ τ, o.time? = some τ → τ = b) :
    (t.extend ops).InOrder b := by
  have htimes : ∀ τ ∈ ops.filterMap RecordOp.time?, τ = b := by
    intro τ hτ
    obtain ⟨o, ho, htime⟩ := List.mem_filterMap.mp hτ
    exact hops o ho τ htime
  refine ⟨h.positive, ?_, ?_⟩
  · rw [RecordTrace.extend, List.filterMap_append, ← List.cons_append, List.pairwise_append]
    refine ⟨h.ordered, ?_, ?_⟩
    · exact List.pairwise_of_forall_mem_list fun τ hτ τ' hτ' => by
        rw [htimes τ hτ, htimes τ' hτ']
    · intro τ hτ τ' hτ'
      rw [htimes τ' hτ']
      exact h.bounded τ hτ
  · rw [RecordTrace.extend, List.filterMap_append, ← List.cons_append]
    intro τ hτ
    rcases List.mem_append.mp hτ with hold | hnew
    · exact h.bounded τ hold
    · exact (htimes τ hnew).le

omit [Address A] in
theorem PeerOp.time?_recordOps (op : PeerOp A) :
    ∀ o ∈ op.recordOps, ∀ τ, o.time? = some τ → τ = op.monoNs := by
  cases op with
  | event endpoint pid ts call =>
      cases call <;> simp [recordOps, RecordOp.time?, monoNs, eq_comm]
  | _ => simp [recordOps, RecordOp.time?, monoNs, eq_comm]

theorem PeerOp.connectedMonoNs_opened (op : PeerOp A) (n : ℕ) :
    (op.opened n).connectedMonoNs = op.monoNs := by
  cases op <;> rfl

/-- In a session in order every trace is in order. -/
theorem inOrder_tracesOf {e : String} {ops : List (SessionOp A)} {b : Int}
    (h : SessionOp.InOrder ops b) {n : ℕ} {t : RecordTrace A}
    (ht : (tracesOf e ops).get? n = some t) : t.InOrder b := by
  have hsplits := splits_tracesOf_inOrder (P := fun b t => t.InOrder b)
    (Q := fun b t => t.InOrder b) e (fun hb ht => ht.mono hb) (fun hb ht => ht.mono hb)
    (fun op n hpositive => by
      refine ⟨?_, ?_, ?_⟩
      · rw [op.connectedMonoNs_opened]
        exact hpositive
      · exact List.pairwise_singleton _ _
      · intro τ hτ
        rw [List.mem_singleton.mp hτ, op.connectedMonoNs_opened])
    (fun op t ht _ => ht.extend op.time?_recordOps)
    (fun op t ht _ => ht.extend op.time?_recordOps)
    (fun ht => ht.extend (by simp [RecordOp.time?]))
    (fun ht => ht.extend (by simp [RecordOp.time?])) h
  rcases List.mem_append.mp (Generations.mem_records_of_get? ht) with hclosed | hcurrent
  · exact hsplits.closed t hclosed
  · exact hsplits.current t (Option.mem_toList.mp hcurrent)

/-- The record under `key` has gone through the trace. -/
def IsTraceOf (ops : List (SessionOp A)) (key : String) (t : RecordTrace A) : Prop :=
  ∃ e n, key = numberedPeerKey e n ∧ (tracesOf e ops).get? n = some t

/-- Every record has one trace. -/
theorem IsTraceOf.unique {ops : List (SessionOp A)} {key : String} {t t' : RecordTrace A}
    (h : IsTraceOf ops key t) (h' : IsTraceOf ops key t') : t = t' := by
  obtain ⟨e, n, rfl, ht⟩ := h
  obtain ⟨e', n', hkey, ht'⟩ := h'
  obtain ⟨rfl, rfl⟩ := numberedPeerKey_inj.mp hkey
  exact Option.some.inj (ht.symm.trans ht')

/-- The trace of an inactive record is closed. -/
theorem mem_closed_of_inactive {e : String} {ops : List (SessionOp A)} {n : ℕ}
    {t : RecordTrace A} (ht : (tracesOf e ops).get? n = some t)
    (hinactive : t.replay.activeConnection = false) : t ∈ (tracesOf e ops).closed := by
  have hactive : ActiveLast (historyOf e ops Generations.empty) :=
    activeLast_historyOf e ops Generations.Splits.empty
  rw [← map_replay_tracesOf] at hactive
  rcases List.mem_append.mp (Generations.mem_records_of_get? ht) with hclosed | hcurrent
  · exact hclosed
  · rw [Option.mem_toList] at hcurrent
    have htrue := hactive.current t.replay (by
      rw [Generations.current_map, hcurrent]
      rfl)
    cases hinactive.symm.trans htrue

end Traces

section Replays

variable {A : Type}

/-- The records of a session that represents the replayed traces are replays. -/
theorem Represents.exists_trace {s : SessionStats} {g : String → Generations (RecordTrace A)}
    (h : Represents s fun e => (g e).map RecordTrace.replay) {key : String} {p : PeerStats}
    (hp : s.peersByKey[key]? = some p) :
    ∃ n t, key = numberedPeerKey p.endpointKey n ∧ (g p.endpointKey).get? n = some t ∧
      p.setPiecesFinished 0 = t.replay := by
  obtain ⟨n, hkey, -, hget⟩ := h.key_eq hp
  rw [Generations.get?_map, Option.map_eq_some_iff] at hget
  obtain ⟨t, ht, hreplay⟩ := hget
  exact ⟨n, t, hkey, ht, hreplay.symm⟩

variable [Address A]

theorem represents_traces (runId sessionId : ByteString) (start : TimestampPair)
    (ops : List (SessionOp A)) :
    Represents ((SessionStats.new runId sessionId start).run ops)
      fun e => (tracesOf e ops).map RecordTrace.replay := by
  have hrun := represents_run ops (represents_new runId sessionId start)
  simpa only [map_replay_tracesOf] using hrun

/-- The records after `finalize` are the finalized replays. -/
theorem represents_finalize (runId sessionId : ByteString) (start finish : TimestampPair)
    (ops : List (SessionOp A)) :
    Represents (((SessionStats.new runId sessionId start).run ops).finalize finish)
      fun e => ((tracesOf e ops).map (RecordTrace.extend [.finalize finish])).map
        RecordTrace.replay := by
  have hrun := represents_traces runId sessionId start ops
  have hmap : Represents (((SessionStats.new runId sessionId start).run ops).finalize finish) _ :=
    (hrun.mapPeers (KeepsKeys.finalize finish)).of_maps_eq rfl rfl rfl rfl
  have hcomp : RecordTrace.replay ∘ RecordTrace.extend [RecordOp.finalize (A := A) finish] =
      PeerStats.finalize finish ∘ RecordTrace.replay := by
    funext t
    exact t.replay_extend _
  simpa [Generations.map, hcomp] using hmap

end Replays

end BtClient
