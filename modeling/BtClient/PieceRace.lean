import BtClient.AlertOps
import BtClient.Library.Mailbox
import BtClient.Library.Runs

/-!
# Finished pieces and the state of the torrent

libtorrent posts `state_changed` and `piece_finished` alerts to a queue and tells
`status()` its current state at once. The client files a finished piece under
downloads or under verification by `latest_torrent_state`, which both the queued
alerts and the snapshots write. A snapshot that is ahead of a queued change of state
files the pieces that were finished before that change under the wrong heading.
-/

namespace BtClient

/-- libtorrent with the state of its torrent, and the client with the alerts it has
not drained. The two numbers count the pieces that libtorrent finished while it was
downloading or done, and those it finished in any other state. -/
structure PieceSystem (A : Type) where
  torrentState : TorrentState
  client : Mailbox SessionStats (TimedAlert A)
  networkPosted : ℕ
  verificationPosted : ℕ

/-- What either party may do next. An alert carries the timestamps of its later
handling. -/
inductive PieceAction where
  | changeState (state : TorrentState) (ts writeTs : TimestampPair) (message : ByteString)
  | finishPiece (pieceIndex : Int) (ts writeTs : TimestampPair) (message : ByteString)
  | drainAlerts
  | snapshot (status : TorrentStatus)

section System

variable {A : Type} [Address A]

/-- Handling a queued alert. -/
def handleTimed (s : SessionStats) (timed : TimedAlert A) : SessionStats :=
  (handleAlert s timed.ts timed.alert).1

namespace PieceSystem

/-- A new session after `set_initial_totals`. -/
def start (runId sessionId : ByteString) (startTs : TimestampPair) (status : TorrentStatus) :
    PieceSystem A where
  torrentState := status.state
  client := ⟨(SessionStats.new runId sessionId startTs).setInitialTotals status, []⟩
  networkPosted := 0
  verificationPosted := 0

def step (σ : PieceSystem A) : PieceAction → PieceSystem A
  | .changeState state ts writeTs message =>
      { σ with
        torrentState := state
        client := σ.client.post
          ⟨ts, writeTs, ⟨"state_changed", message, .stateChanged state σ.torrentState⟩⟩ }
  | .finishPiece pieceIndex ts writeTs message =>
      { σ with
        client := σ.client.post
          ⟨ts, writeTs, ⟨"piece_finished", message, .pieceFinished pieceIndex⟩⟩
        networkPosted := σ.networkPosted +
          if stateImpliesNetworkPieceCompletion σ.torrentState then 1 else 0
        verificationPosted := σ.verificationPosted +
          if stateImpliesNetworkPieceCompletion σ.torrentState then 0 else 1 }
  | .drainAlerts => { σ with client := σ.client.drain handleTimed }
  | .snapshot status =>
      { σ with
        client := σ.client.bypass fun s =>
          s.recordSessionSnapshot { status with state := σ.torrentState } }

def run (σ : PieceSystem A) (actions : List PieceAction) : PieceSystem A :=
  actions.foldl step σ

/-- The client's counts are those of libtorrent. -/
def Agrees (σ : PieceSystem A) : Prop :=
  σ.client.state.pieceCompletions = σ.networkPosted ∧
    σ.client.state.verificationPieceCompletions = σ.verificationPosted

end PieceSystem

end System

/-! ### The part of the state that files pieces -/

/-- What the filing of pieces depends on and produces. -/
@[ext]
structure PieceView where
  network : Bool
  pieceCompletions : ℕ
  verificationPieceCompletions : ℕ

def SessionStats.pieceView (s : SessionStats) : PieceView where
  network := stateImpliesNetworkPieceCompletion s.latestTorrentState
  pieceCompletions := s.pieceCompletions
  verificationPieceCompletions := s.verificationPieceCompletions

namespace PieceView

def finishPiece (w : PieceView) : PieceView :=
  if w.network then { w with pieceCompletions := w.pieceCompletions + 1 }
  else { w with verificationPieceCompletions := w.verificationPieceCompletions + 1 }

def setState (state : TorrentState) (w : PieceView) : PieceView :=
  { w with network := stateImpliesNetworkPieceCompletion state }

@[simp] theorem network_finishPiece (w : PieceView) :
    w.finishPiece.network = w.network := by
  unfold finishPiece
  split <;> rfl

theorem pieceCompletions_finishPiece (w : PieceView) :
    w.finishPiece.pieceCompletions = w.pieceCompletions + if w.network then 1 else 0 := by
  unfold finishPiece
  split <;> rfl

/-- What handling an alert does to the view. -/
def follow {A : Type} (w : PieceView) : AlertBody A → PieceView
  | .stateChanged state _ => w.setState state
  | .pieceFinished _ => w.finishPiece
  | _ => w

@[simp] theorem setState_setState (state state' : TorrentState) (w : PieceView) :
    (w.setState state).setState state' = w.setState state' := rfl

theorem setState_of_network {state : TorrentState} {w : PieceView}
    (h : w.network = stateImpliesNetworkPieceCompletion state) : w.setState state = w := by
  rw [setState, ← h]

end PieceView

@[simp] theorem pieceView_modify (h : PeerHandle) (f : PeerStats → PeerStats) :
    (h.modify f).stats.pieceView = h.stats.pieceView := rfl

theorem pieceView_call (h : PeerHandle) (ts : TimestampPair) (c : PeerCall) :
    (h.call ts c).stats.pieceView = h.stats.pieceView := by
  cases c <;> rfl

theorem pieceView_closing (h : PeerHandle) :
    h.eraseActive.countDisconnect.stats.pieceView = h.stats.pieceView := rfl

@[simp] theorem pieceView_creditFinishedPiece (s : SessionStats) (key : String) :
    (s.creditFinishedPiece key).pieceView = s.pieceView := by
  unfold SessionStats.creditFinishedPiece
  split <;> rfl

theorem pieceView_notePieceFinished (s : SessionStats) (pieceIndex : Int) :
    (s.notePieceFinished pieceIndex).pieceView = s.pieceView.finishPiece := by
  unfold SessionStats.notePieceFinished PieceView.finishPiece
  cases hnet : stateImpliesNetworkPieceCompletion s.latestTorrentState with
  | false =>
      have hview : s.pieceView.network = false := hnet
      rw [hview, if_pos (by rfl), if_neg Bool.false_ne_true]
      exact PieceView.ext hnet rfl rfl
  | true =>
      have hview : s.pieceView.network = true := hnet
      rw [hview, if_neg (by decide), if_pos rfl]
      dsimp only
      split
      · exact PieceView.ext hnet rfl rfl
      · rw [pieceView_creditFinishedPiece]
        exact PieceView.ext hnet rfl rfl

section Alerts

variable {A : Type} [Address A]

@[simp] theorem pieceView_ensurePeerForEndpoint (s : SessionStats) (endpoint : Endpoint A)
    (ts : TimestampPair) (direction transport : String) :
    (s.ensurePeerForEndpoint endpoint ts direction transport).stats.pieceView =
      s.pieceView := by
  unfold SessionStats.ensurePeerForEndpoint
  dsimp only
  split <;> rfl

@[simp] theorem pieceView_notePeerEvent (s : SessionStats) (endpoint : Endpoint A)
    (pid : PeerId) (ts : TimestampPair) (direction transport : String) :
    (s.notePeerEvent endpoint pid ts direction transport).stats.pieceView = s.pieceView := by
  unfold SessionStats.notePeerEvent
  rw [pieceView_modify, pieceView_modify, pieceView_ensurePeerForEndpoint]

/-- What happens to the peers does not touch the filing of pieces. -/
theorem pieceView_apply (op : PeerOp A) (s : SessionStats) :
    (op.apply s).stats.pieceView = s.pieceView := by
  cases op with
  | connect endpoint pid ts direction transport =>
      unfold PeerOp.apply SessionStats.notePeerConnect
      dsimp only
      rw [pieceView_modify, pieceView_modify]
      split
      · exact pieceView_ensurePeerForEndpoint s endpoint ts direction transport
      · exact pieceView_ensurePeerForEndpoint s endpoint ts direction transport
  | event endpoint pid ts call =>
      cases call with
      | none => exact pieceView_notePeerEvent s endpoint pid ts _ _
      | some c =>
          unfold PeerOp.apply
          rw [pieceView_call, pieceView_notePeerEvent]
  | disconnect endpoint pid ts =>
      unfold PeerOp.apply SessionStats.notePeerDisconnect
      dsimp only
      rw [pieceView_closing, pieceView_modify, pieceView_notePeerEvent]
  | snapshot peer ts snapshotIntervalMs =>
      unfold PeerOp.apply SessionStats.notePeerSnapshot
      dsimp only
      rw [pieceView_modify, pieceView_ensurePeerForEndpoint]

omit [Address A] in
theorem pieceView_countAlert (s : SessionStats) (body : AlertBody A) :
    (s.countAlert body).pieceView = s.pieceView := by
  cases body <;> rfl

theorem pieceView_handleAlert (s : SessionStats) (ts : TimestampPair) (alert : Alert A) :
    (handleAlert s ts alert).1.pieceView = s.pieceView.follow alert.body := by
  have hcount := pieceView_countAlert s alert.body
  rw [handleAlert_stats, ← hcount]
  generalize s.countAlert alert.body = s
  cases alert.body <;>
    first
    | rfl
    | exact pieceView_apply _ s
    | exact pieceView_notePieceFinished s _

theorem pieceView_handleTimed (s : SessionStats) (timed : TimedAlert A) :
    (handleTimed s timed).pieceView = s.pieceView.follow timed.alert.body :=
  pieceView_handleAlert s timed.ts timed.alert

theorem pieceView_settled (m : Mailbox SessionStats (TimedAlert A)) :
    (m.settled handleTimed).pieceView =
      (m.queue.map fun timed => timed.alert.body).foldl PieceView.follow m.state.pieceView := by
  have hview := Mailbox.view_settled handleTimed SessionStats.pieceView
    (fun w timed => w.follow timed.alert.body) pieceView_handleTimed m
  rw [hview, List.foldl_map]
  rfl

end Alerts

/-! ### Which snapshots keep the filing right -/

section Snapshots

variable {A : Type}

/-- No piece is queued ahead of the first queued change of state. -/
def NoPieceAhead : List (AlertBody A) → Prop
  | [] => True
  | .stateChanged _ _ :: _ => True
  | .pieceFinished _ :: _ => False
  | _ :: rest => NoPieceAhead rest

/-- If no piece is ahead of the first change of state, nothing is filed by the state
that a snapshot wrote. -/
theorem foldl_follow_setState {bodies : List (AlertBody A)} (h : NoPieceAhead bodies)
    {state : TorrentState} {w : PieceView}
    (hnet : (bodies.foldl PieceView.follow w).network =
      stateImpliesNetworkPieceCompletion state) :
    bodies.foldl PieceView.follow (w.setState state) =
      bodies.foldl PieceView.follow w := by
  induction bodies generalizing w with
  | nil => exact PieceView.setState_of_network hnet
  | cons body rest ih =>
      rw [List.foldl_cons, List.foldl_cons]
      rw [List.foldl_cons] at hnet
      cases body with
      | stateChanged state' prevState => rfl
      | pieceFinished pieceIndex => exact h.elim
      | _ => exact ih h hnet

namespace PieceView

/-- `w` has filed fewer pieces under downloads and will not catch up. -/
def Behind (w w' : PieceView) : Prop :=
  w.pieceCompletions < w'.pieceCompletions ∧ (w.network = true → w'.network = true)

theorem Behind.follow {w w' : PieceView} (h : w.Behind w') (body : AlertBody A) :
    (w.follow body).Behind (w'.follow body) := by
  obtain ⟨hlt, hnet⟩ := h
  cases body with
  | stateChanged state prevState => exact ⟨hlt, id⟩
  | pieceFinished pieceIndex =>
      refine ⟨?_, by simpa [PieceView.follow] using hnet⟩
      simp only [PieceView.follow, pieceCompletions_finishPiece]
      cases hw : w.network with
      | true =>
          rw [hnet hw]
          exact Nat.add_lt_add_right hlt _
      | false => exact Nat.lt_of_lt_of_le hlt (Nat.le_add_right _ _)
  | _ => exact ⟨hlt, hnet⟩

theorem Behind.foldl {w w' : PieceView} (h : w.Behind w') (bodies : List (AlertBody A)) :
    (bodies.foldl PieceView.follow w).Behind (bodies.foldl PieceView.follow w') := by
  induction bodies generalizing w w' with
  | nil => exact h
  | cons body rest ih => exact ih (h.follow body)

/-- A piece that is ahead of the first change of state is filed by whatever the
session believes its state to be. -/
theorem behind_of_pieceAhead {bodies : List (AlertBody A)} (h : ¬ NoPieceAhead bodies)
    {w z : PieceView} (hw : w.network = false) (hw' : z.network = true)
    (hcount : w.pieceCompletions = z.pieceCompletions) :
    (bodies.foldl PieceView.follow w).Behind (bodies.foldl PieceView.follow z) := by
  induction bodies with
  | nil => exact absurd trivial h
  | cons body rest ih =>
      rw [List.foldl_cons, List.foldl_cons]
      cases body with
      | stateChanged state prevState => exact absurd trivial h
      | pieceFinished pieceIndex =>
          refine Behind.foldl ⟨?_, ?_⟩ rest
          · simp only [follow, pieceCompletions_finishPiece, hw, hw', hcount]
            exact Nat.lt_succ_self _
          · simp [follow, hw']
      | _ => exact ih h

end PieceView

end Snapshots

/-! ### Runs -/

namespace PieceSystem

variable {A : Type} [Address A]

/-- A snapshot does not file a queued piece under another heading: either it tells the
session nothing new, or no piece is queued ahead of the first change of state. -/
def Safe (σ : PieceSystem A) : PieceAction → Prop
  | .snapshot _ =>
      stateImpliesNetworkPieceCompletion σ.client.state.latestTorrentState =
          stateImpliesNetworkPieceCompletion σ.torrentState ∨
        NoPieceAhead (σ.client.queue.map fun timed => timed.alert.body)
  | _ => True

/-- Once everything that is queued has been handled, the session will have filed every
piece as libtorrent did. -/
def Filed (σ : PieceSystem A) : Prop :=
  (σ.client.settled handleTimed).pieceView =
    ⟨stateImpliesNetworkPieceCompletion σ.torrentState, σ.networkPosted, σ.verificationPosted⟩

theorem filed_start (runId sessionId : ByteString) (startTs : TimestampPair)
    (status : TorrentStatus) : (start runId sessionId startTs status : PieceSystem A).Filed :=
  rfl

theorem filed_step {σ : PieceSystem A} (h : σ.Filed) {action : PieceAction}
    (hsafe : σ.Safe action) : (σ.step action).Filed := by
  unfold Filed at h
  cases action with
  | changeState state ts writeTs message =>
      simp only [Filed, step]
      rw [Mailbox.settled_post, pieceView_handleTimed, h]
      rfl
  | finishPiece pieceIndex ts writeTs message =>
      simp only [Filed, step]
      rw [Mailbox.settled_post, pieceView_handleTimed, h]
      simp only [PieceView.follow, PieceView.finishPiece]
      split <;> rfl
  | drainAlerts => exact h
  | snapshot status =>
      simp only [Filed, step]
      rw [pieceView_settled] at h ⊢
      rw [← h]
      have hwrite : (σ.client.state.recordSessionSnapshot
          { status with state := σ.torrentState }).pieceView =
            σ.client.state.pieceView.setState σ.torrentState := rfl
      simp only [Mailbox.bypass]
      rw [hwrite]
      rcases hsafe with hsame | hahead
      · rw [PieceView.setState_of_network hsame]
      · exact foldl_follow_setState hahead (by rw [h])

theorem filed_run {σ : PieceSystem A} (h : σ.Filed) {actions : List PieceAction}
    (hsafe : Runs.Along step Safe σ actions) : (σ.run actions).Filed :=
  Runs.Along.invariant (I := Filed) (fun _ _ hσ haction => filed_step hσ haction) h hsafe

theorem Filed.agrees {σ : PieceSystem A} (h : σ.Filed) (hempty : σ.client.queue = []) :
    σ.Agrees := by
  unfold Filed at h
  rw [Mailbox.settled_of_empty handleTimed hempty] at h
  exact ⟨congrArg PieceView.pieceCompletions h,
    congrArg PieceView.verificationPieceCompletions h⟩

/-- After a snapshot that is not safe, the next drain files a piece under the wrong
heading. -/
theorem Filed.not_agrees_of_not_safe {σ : PieceSystem A} (h : σ.Filed)
    {status : TorrentStatus} (hnot : ¬ σ.Safe (.snapshot status)) :
    ¬ ((σ.step (.snapshot status)).step .drainAlerts).Agrees := by
  rintro ⟨hcount, -⟩
  obtain ⟨hclass, hahead⟩ := not_or.mp hnot
  unfold Filed at h
  rw [pieceView_settled] at h
  have hfiled := congrArg PieceView.pieceCompletions h
  have hdrained := congrArg PieceView.pieceCompletions
    (pieceView_settled (σ.step (.snapshot status)).client)
  have hwrong := hdrained.symm.trans (hcount.trans hfiled.symm)
  cases hstate : stateImpliesNetworkPieceCompletion σ.torrentState with
  | true =>
      rw [hstate, Bool.not_eq_true] at hclass
      have hbehind := PieceView.behind_of_pieceAhead hahead (w := σ.client.state.pieceView)
        (z := σ.client.state.pieceView.setState σ.torrentState) hclass hstate rfl
      exact absurd hwrong (Nat.ne_of_gt hbehind.1)
  | false =>
      rw [hstate, Bool.not_eq_false] at hclass
      have hbehind := PieceView.behind_of_pieceAhead hahead
        (w := σ.client.state.pieceView.setState σ.torrentState)
        (z := σ.client.state.pieceView) hstate hclass rfl
      exact absurd hwrong (Nat.ne_of_lt hbehind.1)

/-- In a run whose snapshots are safe, an empty queue means that the session has filed
every piece as libtorrent did; the first snapshot that is not safe makes the next drain
miscount. -/
theorem agrees_run (runId sessionId : ByteString) (startTs : TimestampPair)
    (status : TorrentStatus) (actions : List PieceAction)
    (hsafe : Runs.Along step Safe
      (start runId sessionId startTs status : PieceSystem A) actions) :
    let σ : PieceSystem A := (start runId sessionId startTs status).run actions
    (σ.client.queue = [] → σ.Agrees) ∧
      ∀ status', ¬ σ.Safe (.snapshot status') →
        ¬ (σ.run [.snapshot status', .drainAlerts]).Agrees := by
  have hfiled := filed_run (filed_start runId sessionId startTs status) hsafe
  exact ⟨fun hempty => hfiled.agrees hempty,
    fun status' hnot => hfiled.not_agrees_of_not_safe hnot⟩

/-- A snapshot before anything is queued, then a change of state and a piece that are
drained together. -/
theorem agrees_run_download :
    let actions : List PieceAction :=
      [.snapshot {}, .changeState .downloading ⟨"2024-01-01T00:00:01Z", 1⟩
        ⟨"2024-01-01T00:00:01Z", 2⟩ "downloading", .finishPiece 3 ⟨"2024-01-01T00:00:02Z", 3⟩
        ⟨"2024-01-01T00:00:02Z", 4⟩ "piece 3", .drainAlerts]
    let σ : PieceSystem AddressV4 := (start "run" "session" ⟨"2024-01-01T00:00:00Z", 0⟩
      { state := .checkingFiles }).run actions
    σ.client.queue = [] ∧ σ.Agrees := by
  intro actions σ
  have hempty : σ.client.queue = [] := rfl
  have hsafe : Runs.Along step Safe (start "run" "session" ⟨"2024-01-01T00:00:00Z", 0⟩
      { state := .checkingFiles } : PieceSystem AddressV4) actions :=
    ⟨Or.inr trivial, trivial, trivial, trivial, trivial⟩
  exact ⟨hempty, (agrees_run "run" "session" _ _ actions hsafe).1 hempty⟩

/-- A piece is verified while the files are checked; the torrent starts to download, and a
snapshot sees that before either alert has been drained. -/
theorem agrees_false_of_early_snapshot :
    ¬ ∀ (runId sessionId : ByteString) (startTs : TimestampPair) (status : TorrentStatus)
        (actions : List PieceAction),
      let σ : PieceSystem AddressV4 := (start runId sessionId startTs status).run actions
      σ.client.queue = [] → σ.Agrees := by
  intro h
  have hagrees := h "run" "session" ⟨"2024-01-01T00:00:00Z", 0⟩ { state := .checkingFiles }
    [.finishPiece 3 ⟨"2024-01-01T00:00:01Z", 1⟩ ⟨"2024-01-01T00:00:01Z", 2⟩ "piece 3",
      .changeState .downloading ⟨"2024-01-01T00:00:01Z", 3⟩ ⟨"2024-01-01T00:00:01Z", 4⟩
        "downloading",
      .snapshot {}, .drainAlerts] rfl
  exact absurd hagrees.1 (by decide +kernel)

end PieceSystem

end BtClient
