import BtClient.AlertOps

/-!
# Connections and records

What the alerts of libtorrent say about the connections of an endpoint: a connect
alert opens one, further alerts are events of the open connection, and a
disconnect or an error closes it. `connectionsOf` follows a sequence of alerts
with one list of connections for each endpoint and is undefined when the alerts do
not come in this order.

The dispatcher closes a record on the disconnect only. Up to the first error the
records follow the connections one for one; after it they lag behind for good.
-/

namespace BtClient

/-- The events of one connection, counted by kind. -/
abbrev EventCounts := CounterKind → ℕ

/-- One more event, if it is one that is counted. -/
def EventCounts.bump (kind : Option CounterKind) (c : EventCounts) : EventCounts :=
  fun k => c k + if kind = some k then 1 else 0

/-- What an alert says about the connection it belongs to. -/
inductive ConnectionAlert where
  | opens
  | event (kind : Option CounterKind)
  | closes

namespace ConnectionAlert

def kind? : ConnectionAlert → Option CounterKind
  | .event kind => kind
  | _ => none

def isCloses : ConnectionAlert → Bool
  | .closes => true
  | _ => false

/-- A connection opens when none is open; events and closing need an open one. -/
def step (g : Generations EventCounts) : ConnectionAlert → Option (Generations EventCounts)
  | .opens => if g.current.isNone then some (g.ensureOpen fun _ _ => 0) else none
  | .event kind => if g.current.isSome then some (g.update (EventCounts.bump kind)) else none
  | .closes => if g.current.isSome then some g.close else none

end ConnectionAlert

namespace AlertBody

variable {A : Type}

/-- The endpoint an alert is about and what it says of the connection. An error
means that the peer is being disconnected. -/
def connectionAlert : AlertBody A → Option (Endpoint A × ConnectionAlert)
  | .peerConnect endpoint _ _ _ => some (endpoint, .opens)
  | .peerError endpoint _ _ _ => some (endpoint, .closes)
  | .peerDisconnected endpoint _ _ _ _ _ => some (endpoint, .closes)
  | .peerSnubbed endpoint _ => some (endpoint, .event (some .snubbed))
  | .peerUnsnubbed endpoint _ => some (endpoint, .event (some .unsnubbed))
  | .blockDownloading endpoint _ _ _ => some (endpoint, .event (some .requestSent))
  | .blockFinished endpoint _ _ _ => some (endpoint, .event (some .blockResponse))
  | .blockTimeout endpoint _ _ _ => some (endpoint, .event (some .timeout))
  | .requestDropped endpoint _ _ _ => some (endpoint, .event (some .drop))
  | .incomingRequest endpoint _ _ => some (endpoint, .event (some .incomingRequest))
  | .blockUploaded endpoint _ _ _ => some (endpoint, .event (some .blockUploaded))
  | .peerLog endpoint _ _ _ _ => some (endpoint, .event none)
  | _ => none

def isPeerError : AlertBody A → Bool
  | .peerError _ _ _ _ => true
  | _ => false

def isPeerConnect : AlertBody A → Bool
  | .peerConnect _ _ _ _ => true
  | _ => false

variable [DecidableEq A]

/-- The connections of the endpoint after the alert. -/
def connectionStep (endpoint : Endpoint A) (g : Generations EventCounts) (body : AlertBody A) :
    Option (Generations EventCounts) :=
  match body.connectionAlert with
  | some (e, c) => if e = endpoint then c.step g else some g
  | none => some g

end AlertBody

/-- The connections of the endpoint, if its alerts come in the order that libtorrent
promises. -/
def connectionsFrom {A : Type} [DecidableEq A] (endpoint : Endpoint A)
    (g : Generations EventCounts) (alerts : List (TimedAlert A)) :
    Option (Generations EventCounts) :=
  alerts.foldlM (fun g timed => timed.alert.body.connectionStep endpoint g) g

def connectionsOf {A : Type} [DecidableEq A] (endpoint : Endpoint A)
    (alerts : List (TimedAlert A)) : Option (Generations EventCounts) :=
  connectionsFrom endpoint Generations.empty alerts

/-- The records of the session are the connections: connection `i` of an endpoint
is the record number `i`, it has counted the events of that connection, and it is
inactive once the connection is closed. -/
structure OneRecordPerConnection {A : Type} [Address A]
    (connections : Endpoint A → Generations EventCounts) (connects : ℕ)
    (s : SessionStats) : Prop where
  records : ∀ k : String, k ∈ s.peersByKey ↔ ∃ (e : Endpoint A) (n : ℕ),
    1 ≤ n ∧ n ≤ (connections e).count ∧ k = numberedPeerKey (endpointToString e) n
  connects : s.successfulPeerConnects = connects
  counted : ∀ (e : Endpoint A) (n : ℕ) (c : EventCounts) (p : PeerStats),
    (connections e).get? n = some c →
      s.peersByKey[numberedPeerKey (endpointToString e) n]? = some p → p.counter = c
  closed : ∀ (e : Endpoint A) (n : ℕ) (p : PeerStats), n ≤ (connections e).closed.length →
    s.peersByKey[numberedPeerKey (endpointToString e) n]? = some p → p.activeConnection = false

/-! ### The operation of an alert, seen from the connection -/

namespace PeerOp

variable {A : Type}

theorem counter_change_eq_bump (op : PeerOp A) (p : PeerStats) :
    (op.change p).counter = EventCounts.bump op.kind? p.counter := by
  funext k
  exact op.counter_change p k

variable [Address A]

/-- An operation on the records, seen on the counters alone. -/
theorem counter_history (op : PeerOp A) (g : Generations PeerStats) :
    (op.history g).map PeerStats.counter =
      let g' := ((g.map PeerStats.counter).ensureOpen fun _ _ => 0).update
        (EventCounts.bump op.kind?)
      if op.closes then g'.close else g' := by
  have hopened : PeerStats.counter ∘ op.opened = fun _ _ => 0 := by
    funext n
    exact congrArg PeerCore.counter (op.core_opened n)
  have hchanged : (op.changed g).map PeerStats.counter =
      ((g.map PeerStats.counter).ensureOpen fun _ _ => 0).update
        (EventCounts.bump op.kind?) := by
    rw [changed, Generations.map_update _ _ op.counter_change_eq_bump, Generations.map_ensureOpen,
      hopened]
  rw [history_eq]
  split
  · rw [Generations.map_close, hchanged]
  · exact hchanged

end PeerOp

theorem EventCounts.bump_none : EventCounts.bump none = id := by
  funext c k
  simp [EventCounts.bump]

section Alerts

variable {A : Type}

/-- An alert about a connection makes an operation on its endpoint; the operation
counts the event and closes the record exactly on a disconnect. -/
theorem AlertBody.op?_of_connectionAlert {body : AlertBody A} {e : Endpoint A}
    {c : ConnectionAlert} (h : body.connectionAlert = some (e, c)) (ts : TimestampPair) :
    ∃ op : PeerOp A, body.op? ts = some (.peer op) ∧ op.endpoint = e ∧ op.kind? = c.kind? ∧
      op.closes = (c.isCloses && !body.isPeerError) := by
  cases body <;> cases h <;> exact ⟨_, rfl, rfl, rfl, rfl⟩

/-- The other alerts leave the counters and the numbers of records alone. -/
theorem AlertBody.historyOption_of_connectionAlert_none [Address A] {body : AlertBody A}
    (h : body.connectionAlert = none) (ts : TimestampPair) (e : String)
    (g : Generations PeerStats) :
    SessionOp.historyOption e (body.op? ts) g = g ∨
      SessionOp.historyOption e (body.op? ts) g = g.map PeerStats.resetOutstandingRequests := by
  cases body <;> first | exact Or.inl rfl | exact Or.inr rfl | cases h

section Step

variable [DecidableEq A] {body : AlertBody A} {endpoint : Endpoint A}

theorem AlertBody.connectionStep_of_other
    (h : ∀ c, body.connectionAlert ≠ some (endpoint, c)) (g : Generations EventCounts) :
    body.connectionStep endpoint g = some g := by
  unfold connectionStep
  split
  · next e c hbody =>
      rw [if_neg]
      rintro rfl
      exact h c hbody
  · rfl

theorem AlertBody.connectionStep_of_own {c : ConnectionAlert}
    (h : body.connectionAlert = some (endpoint, c)) (g : Generations EventCounts) :
    body.connectionStep endpoint g = c.step g := by
  simp only [connectionStep, h, if_true]

end Step

variable [Address A] {body : AlertBody A} {endpoint : Endpoint A}

/-- An alert about another endpoint, or about no connection, does not show in the
counters of this endpoint's records. -/
theorem counter_historyOption_of_other
    (h : ∀ c, body.connectionAlert ≠ some (endpoint, c)) (ts : TimestampPair)
    (g : Generations PeerStats) :
    (SessionOp.historyOption (endpointToString endpoint) (body.op? ts) g).map PeerStats.counter =
      g.map PeerStats.counter := by
  cases hbody : body.connectionAlert with
  | none =>
      rcases body.historyOption_of_connectionAlert_none hbody ts (endpointToString endpoint) g with
        heq | heq
      · rw [heq]
      · rw [heq]
        exact Generations.map_map_of_eq _ _ fun _ => rfl
  | some ec =>
      obtain ⟨e, c⟩ := ec
      obtain ⟨op, hop, he, -, -⟩ := AlertBody.op?_of_connectionAlert hbody ts
      have hne : op.endpointKey ≠ endpointToString endpoint := by
        intro heq
        have hendpoint : op.endpoint = endpoint := endpointToString_injective heq
        rw [he] at hendpoint
        exact h c (by rw [hbody, hendpoint])
      rw [hop]
      simp only [SessionOp.historyOption, SessionOp.history, if_neg hne]

/-- An alert about a connection of the endpoint, on the counters of its records. -/
theorem counter_historyOption_of_own {c : ConnectionAlert}
    (h : body.connectionAlert = some (endpoint, c)) (ts : TimestampPair)
    (g : Generations PeerStats) :
    (SessionOp.historyOption (endpointToString endpoint) (body.op? ts) g).map PeerStats.counter =
      let g' := ((g.map PeerStats.counter).ensureOpen fun _ _ => 0).update
        (EventCounts.bump c.kind?)
      if c.isCloses && !body.isPeerError then g'.close else g' := by
  obtain ⟨op, hop, he, hkind, hcloses⟩ := AlertBody.op?_of_connectionAlert h ts
  have hkey : op.endpointKey = endpointToString endpoint := by
    rw [PeerOp.endpointKey, he]
  rw [hop]
  simp only [SessionOp.historyOption, SessionOp.history, if_pos hkey]
  rw [op.counter_history, hkind, hcloses]

variable [DecidableEq A]

/-- Without an error of this endpoint, the counters of the records take the same step
as the connections. -/
theorem counter_historyOption_of_step {g : Generations PeerStats}
    {g' : Generations EventCounts} (ts : TimestampPair)
    (hstep : body.connectionStep endpoint (g.map PeerStats.counter) = some g')
    (herror : body.isPeerError = false ∨ ∀ c, body.connectionAlert ≠ some (endpoint, c)) :
    (SessionOp.historyOption (endpointToString endpoint) (body.op? ts) g).map PeerStats.counter =
      g' := by
  by_cases hown : ∃ c, body.connectionAlert = some (endpoint, c)
  · obtain ⟨c, hc⟩ := hown
    have hno : body.isPeerError = false := herror.resolve_right fun hother => hother c hc
    rw [AlertBody.connectionStep_of_own hc] at hstep
    rw [counter_historyOption_of_own hc, hno]
    cases c with
    | opens =>
        simp only [ConnectionAlert.step] at hstep
        split at hstep
        · cases hstep
          simp [ConnectionAlert.kind?, ConnectionAlert.isCloses, EventCounts.bump_none,
            Generations.update_id]
        · cases hstep
    | event kind =>
        simp only [ConnectionAlert.step] at hstep
        split at hstep
        · next hsome =>
            obtain ⟨r, hr⟩ := Option.isSome_iff_exists.mp hsome
            cases hstep
            rw [Generations.ensureOpen_of_current hr]
            simp [ConnectionAlert.kind?, ConnectionAlert.isCloses]
        · cases hstep
    | closes =>
        simp only [ConnectionAlert.step] at hstep
        split at hstep
        · next hsome =>
            obtain ⟨r, hr⟩ := Option.isSome_iff_exists.mp hsome
            cases hstep
            rw [Generations.ensureOpen_of_current hr]
            simp [ConnectionAlert.kind?, ConnectionAlert.isCloses, EventCounts.bump_none,
              Generations.update_id]
        · cases hstep
  · have hother : ∀ c, body.connectionAlert ≠ some (endpoint, c) := fun c hc => hown ⟨c, hc⟩
    rw [AlertBody.connectionStep_of_other hother] at hstep
    rw [counter_historyOption_of_other hother, Option.some.inj hstep]

/-- The records of an endpoint lag behind its connections: a connection has no
record of its own, or the latest one is closed while its record is active. -/
structure Lags (g h : Generations EventCounts) : Prop where
  current : g.current.isSome → h.current.isSome
  behind : h.count < g.count ∨ (g.current = none ∧ h.current.isSome ∧ h.count ≤ g.count)

theorem Lags.step {g g' h : Generations EventCounts} (hlag : Lags g h) {c : ConnectionAlert}
    (hstep : c.step g = some g') (closes : Bool) (hcloses : closes = true → c = .closes) :
    let h' := (h.ensureOpen fun _ _ => 0).update (EventCounts.bump c.kind?)
    Lags g' (if closes then h'.close else h') := by
  cases c with
  | opens =>
      have hfalse : closes = false := by
        cases closes with
        | false => rfl
        | true => cases hcloses rfl
      simp only [ConnectionAlert.step] at hstep
      split at hstep
      · next hnone =>
          cases hstep
          have hnone' : g.current = none := Option.isNone_iff_eq_none.mp hnone
          have hcount : (g.ensureOpen fun _ _ => 0).count = g.count + 1 :=
            Generations.count_ensureOpen_of_none hnone'
          rw [hfalse]
          refine ⟨fun _ => by simp, Or.inl ?_⟩
          simp only [Bool.false_eq_true, if_false, Generations.count_update]
          rw [hcount]
          cases hcur : h.current with
          | some r =>
              rw [Generations.ensureOpen_of_current hcur]
              rcases hlag.behind with hlt | ⟨-, -, hle⟩
              · omega
              · omega
          | none =>
              rw [Generations.count_ensureOpen_of_none hcur]
              rcases hlag.behind with hlt | ⟨-, hsome, -⟩
              · omega
              · rw [hcur] at hsome
                cases hsome
      · cases hstep
  | event kind =>
      have hfalse : closes = false := by
        cases closes with
        | false => rfl
        | true => cases hcloses rfl
      simp only [ConnectionAlert.step] at hstep
      split at hstep
      · next hsome =>
          cases hstep
          obtain ⟨r, hr⟩ := Option.isSome_iff_exists.mp (hlag.current hsome)
          rw [hfalse, Generations.ensureOpen_of_current hr]
          refine ⟨fun _ => by simp [hr], Or.inl ?_⟩
          simp only [Bool.false_eq_true, if_false, Generations.count_update]
          rcases hlag.behind with hlt | ⟨hnone, -, -⟩
          · exact hlt
          · rw [hnone] at hsome
            cases hsome
      · cases hstep
  | closes =>
      simp only [ConnectionAlert.step] at hstep
      split at hstep
      · next hsome =>
          cases hstep
          obtain ⟨r, hr⟩ := Option.isSome_iff_exists.mp (hlag.current hsome)
          rw [Generations.ensureOpen_of_current hr]
          refine ⟨fun hcur => by simp at hcur, Or.inl ?_⟩
          have hcount : (if closes then (h.update (EventCounts.bump none)).close
              else h.update (EventCounts.bump none)).count = h.count := by
            split <;> simp
          rcases hlag.behind with hlt | ⟨hnone, -, -⟩
          · rw [Generations.count_close]
            exact hcount.trans_lt hlt
          · rw [hnone] at hsome
            cases hsome
      · cases hstep

theorem Lags.historyOption {g g' : Generations EventCounts} {h : Generations PeerStats}
    (hlag : Lags g (h.map PeerStats.counter)) (ts : TimestampPair)
    (hstep : body.connectionStep endpoint g = some g') :
    Lags g' ((SessionOp.historyOption (endpointToString endpoint) (body.op? ts) h).map
      PeerStats.counter) := by
  by_cases hown : ∃ c, body.connectionAlert = some (endpoint, c)
  · obtain ⟨c, hc⟩ := hown
    rw [AlertBody.connectionStep_of_own hc] at hstep
    rw [counter_historyOption_of_own hc]
    apply hlag.step hstep
    intro hcloses
    cases c with
    | closes => rfl
    | opens => cases hcloses
    | event kind => cases hcloses
  · have hother : ∀ c, body.connectionAlert ≠ some (endpoint, c) := fun c hc => hown ⟨c, hc⟩
    rw [AlertBody.connectionStep_of_other hother] at hstep
    rw [counter_historyOption_of_other hother, ← Option.some.inj hstep]
    exact hlag

/-- An error makes the records lag behind. -/
theorem lags_of_error {g : Generations PeerStats} {g' : Generations EventCounts}
    {c : ConnectionAlert} (hown : body.connectionAlert = some (endpoint, c))
    (herror : body.isPeerError = true) (ts : TimestampPair)
    (hstep : body.connectionStep endpoint (g.map PeerStats.counter) = some g') :
    Lags g' ((SessionOp.historyOption (endpointToString endpoint) (body.op? ts) g).map
      PeerStats.counter) := by
  have hc : c = .closes := by
    cases body <;> cases herror
    cases hown
    rfl
  subst hc
  rw [AlertBody.connectionStep_of_own hown] at hstep
  rw [counter_historyOption_of_own hown, herror]
  simp only [ConnectionAlert.step] at hstep
  split at hstep
  · next hsome =>
      cases hstep
      obtain ⟨r, hr⟩ := Option.isSome_iff_exists.mp hsome
      rw [Generations.ensureOpen_of_current hr]
      refine ⟨fun hcur => by simp at hcur, Or.inr ⟨by simp, ?_, ?_⟩⟩
      · have hcur : (g.map PeerStats.counter).current.isSome := by rw [hr]; rfl
        simpa [ConnectionAlert.kind?] using hcur
      · simp [ConnectionAlert.kind?]
  · cases hstep

/-! ### Sequences of alerts -/

theorem counter_alertHistory {alerts : List (TimedAlert A)} {g : Generations PeerStats}
    {g' : Generations EventCounts}
    (hfrom : connectionsFrom endpoint (g.map PeerStats.counter) alerts = some g')
    (herror : ∀ timed ∈ alerts, timed.alert.body.isPeerError = false) :
    (alertHistory (endpointToString endpoint) alerts g).map PeerStats.counter = g' := by
  induction alerts generalizing g with
  | nil => exact Option.some.inj hfrom
  | cons timed rest ih =>
      rw [connectionsFrom, List.foldlM_cons] at hfrom
      obtain ⟨g₁, hstep, hrest⟩ := Option.bind_eq_some_iff.mp hfrom
      have hcounter := counter_historyOption_of_step timed.ts hstep
        (Or.inl (herror timed List.mem_cons_self))
      apply ih
      · rw [hcounter]
        exact hrest
      · exact fun t ht => herror t (List.mem_cons_of_mem _ ht)

theorem Lags.alertHistory {alerts : List (TimedAlert A)} {g g' : Generations EventCounts}
    {h : Generations PeerStats} (hlag : Lags g (h.map PeerStats.counter))
    (hfrom : connectionsFrom endpoint g alerts = some g') :
    Lags g' ((alertHistory (endpointToString endpoint) alerts h).map PeerStats.counter) := by
  induction alerts generalizing g h with
  | nil =>
      cases hfrom
      exact hlag
  | cons timed rest ih =>
      rw [connectionsFrom, List.foldlM_cons] at hfrom
      obtain ⟨g₁, hstep, hrest⟩ := Option.bind_eq_some_iff.mp hfrom
      exact ih (hlag.historyOption timed.ts hstep) hrest

/-- After an error of the endpoint its records lag behind, whatever follows. -/
theorem lags_alertHistory {alerts : List (TimedAlert A)} {g : Generations PeerStats}
    {g' : Generations EventCounts}
    (hfrom : connectionsFrom endpoint (g.map PeerStats.counter) alerts = some g')
    (herror : ∃ timed ∈ alerts, ∃ c, timed.alert.body.isPeerError = true ∧
      timed.alert.body.connectionAlert = some (endpoint, c)) :
    Lags g' ((alertHistory (endpointToString endpoint) alerts g).map PeerStats.counter) := by
  induction alerts generalizing g with
  | nil =>
      obtain ⟨timed, hmem, -⟩ := herror
      cases hmem
  | cons timed rest ih =>
      rw [connectionsFrom, List.foldlM_cons] at hfrom
      obtain ⟨g₁, hstep, hrest⟩ := Option.bind_eq_some_iff.mp hfrom
      by_cases hthis : ∃ c, timed.alert.body.isPeerError = true ∧
          timed.alert.body.connectionAlert = some (endpoint, c)
      · obtain ⟨c, hthis, hown⟩ := hthis
        exact (lags_of_error hown hthis timed.ts hstep).alertHistory hrest
      · have hlater : ∃ t ∈ rest, ∃ c, t.alert.body.isPeerError = true ∧
            t.alert.body.connectionAlert = some (endpoint, c) := by
          obtain ⟨t, hmem, ht⟩ := herror
          rcases List.mem_cons.mp hmem with rfl | hmem
          · exact absurd ht hthis
          · exact ⟨t, hmem, ht⟩
        have hno : timed.alert.body.isPeerError = false ∨
            ∀ c, timed.alert.body.connectionAlert ≠ some (endpoint, c) := by
          cases hpeer : timed.alert.body.isPeerError with
          | false => exact Or.inl rfl
          | true => exact Or.inr fun c hc => hthis ⟨c, hpeer, hc⟩
        have hcounter := counter_historyOption_of_step timed.ts hstep hno
        apply ih
        · rw [hcounter]
          exact hrest
        · exact hlater

/-! ### The number of connect alerts -/

omit [DecidableEq A] in
/-- A record that an operation has to open has not been reached by a connect alert. -/
theorem PeerOp.sawConnectAlert_ensured (op : PeerOp A) {s : SessionStats}
    {v : String → Generations PeerStats} (h : Represents s v)
    (hnone : (v op.endpointKey).current = none) :
    (op.ensured s).peer.sawConnectAlert = false := by
  have hcur := (op.refers_ensured h).current
  rw [Function.update_self, Generations.ensureOpen_of_none hnone] at hcur
  have hsaw := congrArg PeerCore.sawConnectAlert
    (op.core_opened ((v op.endpointKey).count + 1))
  rw [Option.some.inj hcur] at hsaw
  exact hsaw

theorem SessionStats.counts_notePieceFinished (s : SessionStats) (pieceIndex : Int) :
    (s.notePieceFinished pieceIndex).counts = s.counts := by
  unfold notePieceFinished
  split
  · rfl
  · simp only
    split
    · rfl
    · unfold creditFinishedPiece
      split <;> rfl

omit [Address A] [DecidableEq A] in
/-- Connect alerts, and no others, make connect operations. -/
theorem AlertBody.isPeerConnect_eq (body : AlertBody A) (ts : TimestampPair) :
    body.isPeerConnect = match body.op? ts with
      | some (.peer op) => op.isConnect
      | _ => false := by
  cases body <;> rfl

omit [DecidableEq A] in
theorem SessionOp.counts_apply_of_not_peer (op : SessionOp A) (s : SessionStats)
    (h : ∀ op', op ≠ .peer op') : (op.apply s).counts = s.counts := by
  cases op with
  | peer op => exact absurd rfl (h op)
  | pieceFinished pieceIndex => exact s.counts_notePieceFinished pieceIndex
  | torrentState state => rfl
  | sessionSnapshot status => rfl
  | alertLoss bits => rfl
  | initialTotals status => rfl

omit [DecidableEq A] in
/-- Connect alerts are counted when they open a record; other alerts never are. -/
theorem connects_handleAlert (s : SessionStats) (ts : TimestampPair) (alert : Alert A)
    (hfresh : ∀ op : PeerOp A, alert.body.op? ts = some (.peer op) → op.isConnect = true →
      (op.ensured (s.countAlert alert.body)).peer.sawConnectAlert = false) :
    (handleAlert s ts alert).1.counts.2 =
      s.counts.2 + if alert.body.isPeerConnect then 1 else 0 := by
  rw [handleAlert_stats, ← counts_countAlert s alert.body, alert.body.isPeerConnect_eq ts]
  cases hop : alert.body.op? ts with
  | none => rfl
  | some sop =>
      cases sop with
      | peer op =>
          have hcount := congrArg Prod.snd (op.counts_apply (s.countAlert alert.body))
          cases hconnect : op.isConnect with
          | false => simpa [hconnect, SessionOp.applyOption, SessionOp.apply] using hcount
          | true =>
              have hsaw := hfresh op hop hconnect
              simpa [hconnect, hsaw, SessionOp.applyOption, SessionOp.apply] using hcount
      | _ => exact congrArg Prod.snd (SessionOp.counts_apply_of_not_peer _ _ (by simp))

omit [Address A] in
/-- A connect operation comes when no connection is open. -/
theorem AlertBody.current_of_opens {op : PeerOp A} {ts : TimestampPair}
    (hop : body.op? ts = some (.peer op)) (hconnect : op.isConnect = true)
    {g : Generations PeerStats} {g' : Generations EventCounts}
    (hstep : body.connectionStep op.endpoint (g.map PeerStats.counter) = some g') :
    g.current = none := by
  have hopens : body.connectionAlert = some (op.endpoint, .opens) := by
    cases body <;> cases hop <;> first | rfl | cases hconnect
  rw [connectionStep_of_own hopens] at hstep
  simp only [ConnectionAlert.step] at hstep
  split at hstep
  · next hnone => simpa using hnone
  · cases hstep

/-- While the records follow the connections, every connect alert is counted. -/
theorem connects_handleAlerts {s : SessionStats} {v : String → Generations PeerStats}
    (h : Represents s v) (alerts : List (TimedAlert A))
    (hfrom : ∀ endpoint : Endpoint A, (connectionsFrom endpoint
      ((v (endpointToString endpoint)).map PeerStats.counter) alerts).isSome)
    (herror : ∀ timed ∈ alerts, timed.alert.body.isPeerError = false) :
    (s.handleAlerts alerts).counts.2 =
      s.counts.2 + alerts.countP (fun timed => timed.alert.body.isPeerConnect) := by
  induction alerts generalizing s v with
  | nil => rfl
  | cons timed rest ih =>
      have hsteps : ∀ endpoint : Endpoint A, ∃ g₁,
          timed.alert.body.connectionStep endpoint
            ((v (endpointToString endpoint)).map PeerStats.counter) = some g₁ ∧
          (connectionsFrom endpoint g₁ rest).isSome := by
        intro endpoint
        obtain ⟨g', hg'⟩ := Option.isSome_iff_exists.mp (hfrom endpoint)
        rw [connectionsFrom, List.foldlM_cons] at hg'
        obtain ⟨g₁, hstep, hrest⟩ := Option.bind_eq_some_iff.mp hg'
        exact ⟨g₁, hstep, Option.isSome_iff_exists.mpr ⟨g', hrest⟩⟩
      have hno := herror timed List.mem_cons_self
      have hcount := connects_handleAlert s timed.ts timed.alert (by
        intro op hop hconnect
        apply op.sawConnectAlert_ensured (h.countAlert timed.alert.body)
        obtain ⟨g₁, hstep, -⟩ := hsteps op.endpoint
        exact AlertBody.current_of_opens hop hconnect hstep)
      have hrest := ih (represents_handleAlert h timed.ts timed.alert)
        (by
          intro endpoint
          obtain ⟨g₁, hstep, hrest⟩ := hsteps endpoint
          rw [counter_historyOption_of_step timed.ts hstep (Or.inl hno)]
          exact hrest)
        (fun t ht => herror t (List.mem_cons_of_mem _ ht))
      have hcons : s.handleAlerts (timed :: rest) =
          (handleAlert s timed.ts timed.alert).1.handleAlerts rest := rfl
      rw [hcons, hrest, hcount, List.countP_cons]
      omega

omit [DecidableEq A] in
/-- Only texts of endpoints have records. -/
theorem endpoint_of_count_pos {alerts : List (TimedAlert A)} {e : String}
    {g : Generations PeerStats} (hg : 0 < g.count → ∃ endpoint : Endpoint A,
      endpointToString endpoint = e)
    (hpos : 0 < (alertHistory e alerts g).count) :
    ∃ endpoint : Endpoint A, endpointToString endpoint = e := by
  induction alerts generalizing g with
  | nil => exact hg hpos
  | cons timed rest ih =>
      refine ih ?_ hpos
      intro hcount
      beta_reduce at hcount
      cases hop : timed.alert.body.op? timed.ts with
      | none =>
          rw [hop] at hcount
          exact hg hcount
      | some sop =>
          rw [hop] at hcount
          cases sop with
          | peer op =>
              by_cases hkey : op.endpointKey = e
              · exact ⟨op.endpoint, hkey⟩
              · simp only [SessionOp.historyOption, SessionOp.history, if_neg hkey] at hcount
                exact hg hcount
          | alertLoss bits =>
              simp only [SessionOp.historyOption, SessionOp.history,
                Generations.count_map] at hcount
              exact hg hcount
          | pieceFinished pieceIndex => exact hg hcount
          | torrentState state => exact hg hcount
          | sessionSnapshot status => exact hg hcount
          | initialTotals status => exact hg hcount

/-! ### The records are the connections exactly when no error occurs -/

section Result

variable {alerts : List (TimedAlert A)} {connections : Endpoint A → Generations EventCounts}
  {s : SessionStats}

theorem oneRecordPerConnection_of_noError
    (hrep : Represents s (fun e => alertHistory e alerts Generations.empty))
    (hcount : s.successfulPeerConnects =
      alerts.countP fun timed => timed.alert.body.isPeerConnect)
    (hconn : ∀ e, connectionsOf e alerts = some (connections e))
    (herror : ∀ timed ∈ alerts, timed.alert.body.isPeerError = false) :
    OneRecordPerConnection connections
      (alerts.countP fun timed => timed.alert.body.isPeerConnect) s := by
  have hcounter : ∀ e : Endpoint A, (alertHistory (endpointToString e) alerts
      Generations.empty).map PeerStats.counter = connections e := fun e =>
    counter_alertHistory (hconn e) herror
  have hactive : ∀ e : String, ActiveLast (alertHistory e alerts Generations.empty) := fun e =>
    activeLast_alertHistory e alerts Generations.Splits.empty
  have hget : ∀ (e : Endpoint A) (n : ℕ) (p : PeerStats),
      s.peersByKey[numberedPeerKey (endpointToString e) n]? = some p →
      (alertHistory (endpointToString e) alerts Generations.empty).get? n =
        some (p.setPiecesFinished 0) := by
    intro e n p hp
    rw [← (hrep.stores _).record, hp]
    rfl
  refine ⟨?_, hcount, ?_, ?_⟩
  · intro k
    constructor
    · intro hk
      obtain ⟨es, n, rfl⟩ := hrep.numbered k hk
      obtain ⟨hpos, hle⟩ := (hrep.mem_iff es n).mp hk
      obtain ⟨e, rfl⟩ := endpoint_of_count_pos (A := A) (fun h => absurd h (by simp))
        (lt_of_lt_of_le hpos hle)
      refine ⟨e, n, hpos, ?_, rfl⟩
      rw [← hcounter, Generations.count_map]
      exact hle
    · rintro ⟨e, n, hpos, hle, rfl⟩
      rw [← hcounter, Generations.count_map] at hle
      exact (hrep.mem_iff _ n).mpr ⟨hpos, hle⟩
  · intro e n c p hc hp
    rw [← hcounter, Generations.get?_map, hget e n p hp] at hc
    exact Option.some.inj hc
  · intro e n p hn hp
    have hmem := hget e n p hp
    rw [← hcounter, Generations.closed_map, List.length_map] at hn
    have hfalse := (hactive _).closed _ (Generations.mem_closed_of_get? hmem hn)
    exact hfalse

theorem not_oneRecordPerConnection_of_error {connects : ℕ}
    (hrep : Represents s (fun e => alertHistory e alerts Generations.empty))
    (hconn : ∀ e, connectionsOf e alerts = some (connections e))
    {timed : TimedAlert A} (hmem : timed ∈ alerts)
    (herror : timed.alert.body.isPeerError = true) :
    ¬ OneRecordPerConnection connections connects s := by
  intro hone
  obtain ⟨e, c, hown⟩ : ∃ e c, timed.alert.body.connectionAlert = some (e, c) := by
    cases hbody : timed.alert.body <;> rw [hbody] at herror <;> cases herror
    exact ⟨_, _, rfl⟩
  have hlag := lags_alertHistory (g := Generations.empty) (hconn e)
    ⟨timed, hmem, c, herror, hown⟩
  have hactive : ActiveLast (alertHistory (endpointToString e) alerts Generations.empty) :=
    activeLast_alertHistory _ alerts Generations.Splits.empty
  have hall : ∀ n, 1 ≤ n → n ≤ (connections e).count →
      n ≤ (alertHistory (endpointToString e) alerts Generations.empty).count := by
    intro n hpos hle
    have hkey := (hone.records _).mpr ⟨e, n, hpos, hle, rfl⟩
    exact ((hrep.mem_iff _ n).mp hkey).2
  rcases hlag.behind with hlt | ⟨hnone, hsome, hle⟩
  · rw [Generations.count_map] at hlt
    have hcount := hall (connections e).count (by omega) le_rfl
    omega
  · rw [Generations.count_map] at hle
    rw [Generations.current_map, Option.isSome_map] at hsome
    obtain ⟨r, hr⟩ := Option.isSome_iff_exists.mp hsome
    have hpos : 1 ≤ (alertHistory (endpointToString e) alerts Generations.empty).count := by
      rw [Generations.count_of_current hr]
      omega
    have hcount : (alertHistory (endpointToString e) alerts Generations.empty).count =
        (connections e).closed.length := by
      have hge := hall (connections e).count (by omega) le_rfl
      rw [Generations.count_of_none hnone] at hle hge
      omega
    obtain ⟨p, hp, hpr⟩ := hrep.getElem?_of_get? (Generations.get?_count hr)
    have hfalse := hone.closed e _ p hcount.le hp
    have htrue := hactive.current r hr
    rw [← hpr] at htrue
    exact Bool.false_ne_true (hfalse.symm.trans htrue)

end Result

/-- For alerts in the order that libtorrent promises, however they are split into
batches, the records are the connections if and only if no connection was closed by
an error. -/
theorem oneRecordPerConnection_iff (runId sessionId : ByteString) (start : TimestampPair)
    (writer : EventWriter) (batches : List (List (TimedAlert A)))
    (connections : Endpoint A → Generations EventCounts) (r : Recording)
    (hconn : ∀ e, connectionsOf e batches.flatten = some (connections e))
    (hdrain : (Recording.mk (SessionStats.new runId sessionId start) writer).drainBatches batches =
      .ok r) :
    OneRecordPerConnection connections
        (batches.flatten.countP fun timed => timed.alert.body.isPeerConnect) r.stats ↔
      ∀ timed ∈ batches.flatten, timed.alert.body.isPeerError = false := by
  have hstats := drainBatches_stats hdrain
  have hrep := represents_handleAlerts (represents_new runId sessionId start) batches.flatten
  rw [← hstats] at hrep
  constructor
  · intro hone timed hmem
    cases herror : timed.alert.body.isPeerError with
    | false => rfl
    | true => exact absurd hone (not_oneRecordPerConnection_of_error hrep hconn hmem herror)
  · intro herror
    apply oneRecordPerConnection_of_noError hrep _ hconn herror
    have hconnects := connects_handleAlerts (represents_new runId sessionId start)
      batches.flatten (fun e => by
        have hsome := hconn e
        rw [connectionsOf] at hsome
        rw [Generations.map_empty, hsome]
        rfl) herror
    rw [← hstats] at hconnects
    simpa [SessionStats.counts, SessionStats.new] using hconnects

end Alerts

section Examples

/-- The connections of the sample peer, and none of any other. -/
def sampleConnections (g : Generations EventCounts) (e : Endpoint AddressV4) :
    Generations EventCounts :=
  if e = samplePeer then g else Generations.empty

theorem connectionsOf_samplePeer_error (e : Endpoint AddressV4) :
    connectionsOf e [sampleConnect 10, sampleError 20, sampleConnect 30] =
      some (sampleConnections ⟨[fun _ => 0], some fun _ => 0⟩ e) := by
  by_cases he : e = samplePeer
  · subst he
    rfl
  · have hne : samplePeer ≠ e := fun h => he h.symm
    simp [connectionsOf, connectionsFrom, AlertBody.connectionStep, AlertBody.connectionAlert,
      sampleConnect, sampleError, sampleAlert, sampleConnections, he, hne]

/-- A peer that connects again after an error: its second connection goes on the
record of the first. -/
theorem oneRecordPerConnection_false_after_error :
    ∃ r, sampleStart.drainBatches [[sampleConnect 10, sampleError 20, sampleConnect 30]] =
        .ok r ∧
      (∀ e, connectionsOf e [sampleConnect 10, sampleError 20, sampleConnect 30] =
        some (sampleConnections ⟨[fun _ => 0], some fun _ => 0⟩ e)) ∧
      ¬ OneRecordPerConnection
        (sampleConnections ⟨[fun _ => 0], some fun _ => 0⟩) 2 r.stats := by
  refine ⟨_, rfl, connectionsOf_samplePeer_error, ?_⟩
  intro hone
  have hmem := (hone.records "10.0.0.1:6881#2").mpr ⟨samplePeer, 2, by decide, by decide, rfl⟩
  exact absurd hmem (by decide)

theorem connectionsOf_samplePeer_reconnect (e : Endpoint AddressV4) :
    connectionsOf e
        [[sampleConnect 10, sampleRequest 20], [sampleDisconnect 30, sampleConnect 40]].flatten =
      some (sampleConnections
        ⟨[EventCounts.bump (some .requestSent) fun _ => 0], some fun _ => 0⟩ e) := by
  by_cases he : e = samplePeer
  · subst he
    rfl
  · have hne : samplePeer ≠ e := fun h => he h.symm
    simp [connectionsOf, connectionsFrom, AlertBody.connectionStep, AlertBody.connectionAlert,
      sampleConnect, sampleRequest, sampleDisconnect, sampleAlert, sampleConnections, he, hne]

/-- A peer that connects again after a disconnect. -/
theorem oneRecordPerConnection_reconnect :
    ∃ r, sampleStart.drainBatches
        [[sampleConnect 10, sampleRequest 20], [sampleDisconnect 30, sampleConnect 40]] = .ok r ∧
      OneRecordPerConnection (sampleConnections
        ⟨[EventCounts.bump (some .requestSent) fun _ => 0], some fun _ => 0⟩) 2 r.stats := by
  obtain ⟨r, hr⟩ := exists_of_isOk (x := sampleStart.drainBatches
    [[sampleConnect 10, sampleRequest 20], [sampleDisconnect 30, sampleConnect 40]])
    (by decide +kernel)
  exact ⟨r, hr, (oneRecordPerConnection_iff _ _ _ _ _ _ r
    connectionsOf_samplePeer_reconnect hr).mpr (by decide)⟩

end Examples

end BtClient
