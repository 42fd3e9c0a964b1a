import BtClient.Library.MapTotal
import BtClient.PeerKeys

/-!
# Finished pieces are credited to the latest answer

A finished piece is credited to the record that last answered a request for one of its
blocks. `CreditedTo` is this look-back over the operations so far: the latest answer for the
piece since the alerts were last complete. The map `lastPiecePeerKey` of the session is that
look-back at every moment, its keys are those of records, and so the finished pieces of each
record are the completions credited to it.
-/

namespace BtClient

section Lookbacks

variable {A : Type}

/-- The operation answers a request for a block of the piece. -/
def SessionOp.answersPiece (pieceIndex : Int) : SessionOp A → Bool
  | .peer (.event _ _ _ (some (.blockResponse piece _))) => piece == pieceIndex
  | _ => false

def SessionOp.losesAlerts : SessionOp A → Bool
  | .alertLoss _ => true
  | _ => false

/-- The state of the torrent that the operation reports. -/
def SessionOp.state? : SessionOp A → Option TorrentState
  | .torrentState state => some state
  | .sessionSnapshot status => some status.state
  | .initialTotals status => some status.state
  | _ => none

/-- The latest state of the torrent. -/
def latestState (ops : List (SessionOp A)) : TorrentState :=
  (ops.filterMap SessionOp.state?).getLast?.getD .checkingResumeData

variable [Address A]

/-- The connection that last answered for the piece, where `ops` starts with the newest
operation; a loss of alerts forgets it. -/
def creditedBackwards (pieceIndex : Int) : List (SessionOp A) → Option (Connection A)
  | [] => none
  | op :: before =>
      if op.losesAlerts then none
      else if op.answersPiece pieceIndex then op.connection? before.reverse
      else creditedBackwards pieceIndex before

/-- The connection to which the piece is credited after the operations. -/
def credited (ops : List (SessionOp A)) (pieceIndex : Int) : Option (Connection A) :=
  creditedBackwards pieceIndex ops.reverse

theorem credited_concat (ops : List (SessionOp A)) (op : SessionOp A) (pieceIndex : Int) :
    credited (ops ++ [op]) pieceIndex =
      if op.losesAlerts then none
      else if op.answersPiece pieceIndex then op.connection? ops
      else credited ops pieceIndex := by
  rw [credited, List.reverse_append, List.reverse_singleton, List.singleton_append,
    creditedBackwards, List.reverse_reverse]
  rfl

/-- The piece is credited to a connection if this connection made the latest answer for the
piece and no alerts were lost since. -/
structure CreditedTo (ops : List (SessionOp A)) (pieceIndex : Int) (c : Connection A)
    (before : List (SessionOp A)) (op : SessionOp A) (after : List (SessionOp A)) : Prop where
  split : ops = before ++ op :: after
  answers : op.answersPiece pieceIndex = true
  connection : op.connection? before = some c
  latest : ∀ later ∈ after,
    later.losesAlerts = false ∧ later.answersPiece pieceIndex = false

theorem credited_eq_some_iff {ops : List (SessionOp A)} {pieceIndex : Int} {c : Connection A} :
    credited ops pieceIndex = some c ↔
      ∃ before op after, CreditedTo ops pieceIndex c before op after := by
  induction ops using List.reverseRecOn with
  | nil =>
      constructor
      · intro h
        cases h
      · rintro ⟨before, op, after, h⟩
        exact absurd h.split (by simp)
  | append_singleton ops last ih =>
      rw [credited_concat]
      constructor
      · intro h
        split at h
        · cases h
        · next hloss =>
            split at h
            · next hanswers => exact ⟨ops, last, [], rfl, hanswers, h, by simp⟩
            · next hanswers =>
                obtain ⟨before, op, after, hcredited⟩ := ih.mp h
                refine ⟨before, op, after ++ [last], ?_, hcredited.answers,
                  hcredited.connection, ?_⟩
                · rw [hcredited.split]
                  simp
                · intro later hlater
                  rcases List.mem_append.mp hlater with hold | hnew
                  · exact hcredited.latest later hold
                  · rw [List.mem_singleton.mp hnew]
                    exact ⟨by simpa using hloss, by simpa using hanswers⟩
      · rintro ⟨before, op, after, hcredited⟩
        have hsplit := hcredited.split
        rcases after.eq_nil_or_concat with rfl | ⟨after, last', rfl⟩
        · obtain ⟨rfl, hlast⟩ := List.append_inj' hsplit rfl
          obtain rfl := (List.cons.inj hlast).1
          have hloss : last.losesAlerts = false := by
            have hanswers := hcredited.answers
            cases last with
            | peer op => rfl
            | _ => cases hanswers
          simp only [hloss, hcredited.answers, Bool.false_eq_true, if_false, if_true]
          exact hcredited.connection
        · rw [List.concat_eq_append, ← List.cons_append, ← List.append_assoc] at hsplit
          obtain ⟨rfl, hlast⟩ := List.append_inj' hsplit rfl
          obtain rfl := (List.cons.inj hlast).1
          obtain ⟨hloss, hanswers⟩ := hcredited.latest last (by simp)
          simp only [hloss, hanswers, Bool.false_eq_true, if_false]
          exact ih.mpr ⟨before, op, after, rfl, hcredited.answers, hcredited.connection,
            fun later hlater => hcredited.latest later (by simp [hlater])⟩

/-- What the operation completes: a piece that is downloaded is credited to a connection or
to none. -/
def SessionOp.completion? (before : List (SessionOp A)) :
    SessionOp A → Option (Option (Connection A))
  | .pieceFinished pieceIndex =>
      if stateImpliesNetworkPieceCompletion (latestState before) then
        some (credited before pieceIndex)
      else none
  | _ => none

/-- The completions of downloaded pieces, one after the other. -/
def completions (ops : List (SessionOp A)) : List (Option (Connection A)) :=
  lookback SessionOp.completion? ops

end Lookbacks

/-! ### What the operations do to the attribution -/

section Steps

variable {A : Type} [Address A]

/-- The parts of the session that the attribution reads, besides the records. -/
structure PieceBook where
  state : TorrentState
  lastPiecePeerKey : Std.ExtTreeMap Int String
  pieceCompletions : ℕ

def SessionStats.pieceBook (s : SessionStats) : PieceBook where
  state := s.latestTorrentState
  lastPiecePeerKey := s.lastPiecePeerKey
  pieceCompletions := s.pieceCompletions

theorem pieceBook_ensure (s : SessionStats) (endpoint : Endpoint A) (ts : TimestampPair)
    (direction transport : String) :
    (s.ensurePeerForEndpoint endpoint ts direction transport).stats.pieceBook = s.pieceBook := by
  unfold SessionStats.ensurePeerForEndpoint
  simp only
  split <;> rfl

omit [Address A] in
@[simp] theorem PeerHandle.pieceBook_modify (f : PeerStats → PeerStats) (h : PeerHandle) :
    (h.modify f).stats.pieceBook = h.stats.pieceBook := rfl

omit [Address A] in
/-- An answer names its record for the piece. -/
theorem PeerHandle.pieceBook_call (ts : TimestampPair) (c : PeerCall) (h : PeerHandle) :
    (h.call ts c).stats.pieceBook =
      match c with
      | .blockResponse pieceIndex _ =>
          { h.stats.pieceBook with
            lastPiecePeerKey := h.stats.pieceBook.lastPiecePeerKey.insert pieceIndex
              (h.call ts c).peer.peerKey }
      | _ => h.stats.pieceBook := by
  cases c <;> rfl

/-- The other operations about a peer leave the attribution alone. -/
theorem PeerOp.pieceBook_apply (op : PeerOp A) (s : SessionStats) :
    (op.apply s).stats.pieceBook =
      match op with
      | .event _ _ _ (some (.blockResponse pieceIndex _)) =>
          { s.pieceBook with
            lastPiecePeerKey := s.pieceBook.lastPiecePeerKey.insert pieceIndex
              (op.apply s).peer.peerKey }
      | _ => s.pieceBook := by
  cases op with
  | connect endpoint pid ts direction transport =>
      have hensure := pieceBook_ensure s endpoint ts direction transport
      simp only [apply, SessionStats.notePeerConnect, PeerHandle.pieceBook_modify]
      split
      · exact hensure
      · exact hensure
  | event endpoint pid ts call =>
      have hevent : (s.notePeerEvent endpoint pid ts "unknown" "unknown").stats.pieceBook =
          s.pieceBook := pieceBook_ensure s endpoint ts "unknown" "unknown"
      cases call with
      | none => exact hevent
      | some c =>
          have hcall := PeerHandle.pieceBook_call ts c
            (s.notePeerEvent endpoint pid ts "unknown" "unknown")
          rw [hevent] at hcall
          cases c <;> exact hcall
  | disconnect endpoint pid ts =>
      have hevent : (s.notePeerEvent endpoint pid ts "unknown" "unknown").stats.pieceBook =
          s.pieceBook := pieceBook_ensure s endpoint ts "unknown" "unknown"
      have hclose : ∀ h : PeerHandle, h.eraseActive.countDisconnect.stats.pieceBook =
          h.stats.pieceBook := fun h => rfl
      simp only [apply, SessionStats.notePeerDisconnect]
      rw [hclose, PeerHandle.pieceBook_modify, hevent]
  | snapshot peer ts snapshotIntervalMs =>
      simp only [apply, SessionStats.notePeerSnapshot, PeerHandle.pieceBook_modify]
      exact pieceBook_ensure s _ _ _ _

omit [Address A] in
/-- No operation about a peer touches its finished pieces. -/
theorem PeerOp.piecesFinished_change (op : PeerOp A) (p : PeerStats) :
    (op.change p).piecesFinished = p.piecesFinished := by
  have hset := op.change_setPiecesFinished p.piecesFinished p
  have hsame : p.setPiecesFinished p.piecesFinished = p := rfl
  rw [hsame] at hset
  have hpieces := congrArg PeerStats.piecesFinished hset
  exact hpieces

theorem PeerOp.piecesFinished_opened (op : PeerOp A) (n : ℕ) :
    (op.opened n).piecesFinished = 0 := by
  cases op <;> rfl

/-- A credited record gets one more finished piece, and nothing else changes. -/
theorem getElem?_creditFinishedPiece (s : SessionStats) {key : String} {p : PeerStats}
    (hp : s.peersByKey[key]? = some p) (k : String) :
    (s.creditFinishedPiece key).peersByKey[k]? =
      if key = k then some { p with piecesFinished := p.piecesFinished + 1 }
      else s.peersByKey[k]? := by
  unfold SessionStats.creditFinishedPiece
  split
  · next q hq =>
      rw [hp] at hq
      obtain rfl := Option.some.inj hq
      simp only [PeerHandle.modify, Std.ExtTreeMap.getElem?_insert,
        Std.LawfulEqCmp.compare_eq_iff_eq]
  · next hnone =>
      rw [hp] at hnone
      cases hnone

theorem pieceBook_creditFinishedPiece (s : SessionStats) (key : String) :
    (s.creditFinishedPiece key).pieceBook = s.pieceBook := by
  unfold SessionStats.creditFinishedPiece
  split <;> rfl

omit [Address A] in
theorem latestState_concat (ops : List (SessionOp A)) (op : SessionOp A) :
    latestState (ops ++ [op]) = op.state?.getD (latestState ops) := by
  rw [latestState, List.filterMap_append]
  cases h : op.state? with
  | none =>
      rw [List.filterMap_cons_none h, List.filterMap_nil, List.append_nil]
      rfl
  | some state =>
      rw [List.filterMap_cons_some h, List.filterMap_nil, List.getLast?_concat]
      rfl

/-- The completion was credited to the record under the key. -/
def creditsKey (key : String) (completion : Option (Connection A)) : Bool :=
  completion.any fun c => c.key == key

/-- The session agrees with the look-back over the operations: the attribution of pieces, the
state of the torrent, and the completions that were counted and credited. -/
structure Credits (s : SessionStats) (ops : List (SessionOp A)) : Prop where
  state : s.pieceBook.state = latestState ops
  last : ∀ pieceIndex : Int,
    s.pieceBook.lastPiecePeerKey[pieceIndex]? = (credited ops pieceIndex).map Connection.key
  known : ∀ pieceIndex c, credited ops pieceIndex = some c → c.key ∈ s.peersByKey
  count : s.pieceBook.pieceCompletions = (completions ops).length
  creditedKnown : ∀ c, some c ∈ completions ops → c.key ∈ s.peersByKey
  finished : ∀ (key : String) (p : PeerStats), s.peersByKey[key]? = some p →
    p.piecesFinished = (completions ops).countP (creditsKey key)

namespace Credits

variable {s s' : SessionStats} {ops : List (SessionOp A)}

theorem new (runId sessionId : ByteString) (start : TimestampPair) :
    Credits (SessionStats.new runId sessionId start) ([] : List (SessionOp A)) where
  state := rfl
  last pieceIndex := by simp [SessionStats.pieceBook, SessionStats.new, credited,
    creditedBackwards]
  known pieceIndex c h := by cases h
  count := rfl
  creditedKnown c h := by cases h
  finished key p hp := by simp [SessionStats.new] at hp

/-- No completion was credited to a key that is not in use. -/
theorem countP_eq_zero (h : Credits s ops) {key : String} (hkey : s.peersByKey[key]? = none) :
    (completions ops).countP (creditsKey key) = 0 := by
  rw [List.countP_eq_zero]
  intro completion hmem
  cases completion with
  | none => simp [creditsKey]
  | some c =>
      have hknown := h.creditedKnown c hmem
      rw [Std.ExtTreeMap.mem_iff_isSome_getElem?] at hknown
      simp only [creditsKey, Option.any_some, beq_iff_eq]
      rintro rfl
      rw [hkey] at hknown
      cases hknown

/-- An operation that completes no piece keeps the agreement if it leaves the finished pieces
alone and answers as the look-back says. -/
theorem of_no_completion (h : Credits s ops) {op : SessionOp A}
    (hcompletion : op.completion? ops = none)
    (hstate : s'.pieceBook.state = op.state?.getD s.pieceBook.state)
    (hcount : s'.pieceBook.pieceCompletions = s.pieceBook.pieceCompletions)
    (hlast : ∀ pieceIndex : Int, s'.pieceBook.lastPiecePeerKey[pieceIndex]? =
      (credited (ops ++ [op]) pieceIndex).map Connection.key)
    (hknown : ∀ pieceIndex c, credited (ops ++ [op]) pieceIndex = some c →
      c.key ∈ s'.peersByKey)
    (hkeys : ∀ key, key ∈ s.peersByKey → key ∈ s'.peersByKey)
    (hfinished : ∀ (key : String) (p : PeerStats), s'.peersByKey[key]? = some p →
      p.piecesFinished = (s.peersByKey[key]?.map PeerStats.piecesFinished).getD 0) :
    Credits s' (ops ++ [op]) where
  state := by rw [latestState_concat, hstate, h.state]
  last := hlast
  known := hknown
  count := by
    rw [completions, lookback_concat, hcompletion, Option.toList_none, List.append_nil, hcount]
    exact h.count
  creditedKnown c hc := by
    rw [completions, lookback_concat, hcompletion, Option.toList_none, List.append_nil] at hc
    exact hkeys c.key (h.creditedKnown c hc)
  finished key p hp := by
    rw [completions, lookback_concat, hcompletion, Option.toList_none, List.append_nil,
      hfinished key p hp]
    cases hold : s.peersByKey[key]? with
    | none => exact (h.countP_eq_zero hold).symm
    | some q => exact h.finished key q hold

/-- The attribution stays as it is. -/
theorem last_of_same (h : Credits s ops) (s' : SessionStats) (op : SessionOp A)
    (hloss : op.losesAlerts = false) (hanswers : ∀ pieceIndex, op.answersPiece pieceIndex = false)
    (hbook : s'.pieceBook.lastPiecePeerKey = s.pieceBook.lastPiecePeerKey)
    (hkeys : ∀ key, key ∈ s.peersByKey → key ∈ s'.peersByKey) :
    (∀ pieceIndex : Int, s'.pieceBook.lastPiecePeerKey[pieceIndex]? =
        (credited (ops ++ [op]) pieceIndex).map Connection.key) ∧
      ∀ pieceIndex c, credited (ops ++ [op]) pieceIndex = some c → c.key ∈ s'.peersByKey := by
  have hsame : ∀ pieceIndex, credited (ops ++ [op]) pieceIndex = credited ops pieceIndex := by
    intro pieceIndex
    rw [credited_concat, hloss, hanswers]
    rfl
  refine ⟨fun pieceIndex => ?_, fun pieceIndex c hc => ?_⟩
  · rw [hbook, hsame, h.last]
  · rw [hsame] at hc
    exact hkeys c.key (h.known pieceIndex c hc)

end Credits

/-- An operation about a peer keeps all records. -/
theorem PeerOp.mem_apply (op : PeerOp A) {v : String → Generations PeerStats}
    {s : SessionStats} (h : Represents s v) {key : String} (hkey : key ∈ s.peersByKey) :
    key ∈ (op.apply s).stats.peersByKey := by
  by_cases hsame : (op.apply s).key = key
  · exact hsame ▸ (op.apply s).valid
  · rw [Std.ExtTreeMap.mem_iff_isSome_getElem?, op.getElem?_apply_of_ne h hsame,
      ← Std.ExtTreeMap.mem_iff_isSome_getElem?]
    exact hkey

/-- An operation about a peer leaves the finished pieces of all records as they are; a new
record has none. -/
theorem PeerOp.piecesFinished_apply (op : PeerOp A) {v : String → Generations PeerStats}
    {s : SessionStats} (h : Represents s v) {key : String} {p : PeerStats}
    (hp : (op.apply s).stats.peersByKey[key]? = some p) :
    p.piecesFinished = (s.peersByKey[key]?.map PeerStats.piecesFinished).getD 0 := by
  by_cases hsame : (op.apply s).key = key
  · subst hsame
    rw [op.getElem?_apply_key] at hp
    rw [← Option.some.inj hp, op.piecesFinished_change, op.key_ensured]
    rcases op.ensured_cases h with ⟨hsome, -⟩ | ⟨hnone, ⟨n, hpeer⟩, -⟩
    · rw [hsome]
      rfl
    · rw [hnone, hpeer, op.piecesFinished_opened]
      rfl
  · rw [op.getElem?_apply_of_ne h hsame] at hp
    rw [hp]
    rfl

theorem Credits.peer {s : SessionStats} {ops : List (SessionOp A)} (h : Credits s ops)
    (hrep : Represents s fun e => (tracesOf e ops).map RecordTrace.replay) (op : PeerOp A) :
    Credits (op.apply s).stats (ops ++ [.peer op]) := by
  have hbook := op.pieceBook_apply s
  have hkeys : ∀ key, key ∈ s.peersByKey → key ∈ (op.apply s).stats.peersByKey :=
    fun key hkey => op.mem_apply hrep hkey
  have hfinished : ∀ (key : String) (p : PeerStats),
      (op.apply s).stats.peersByKey[key]? = some p →
        p.piecesFinished = (s.peersByKey[key]?.map PeerStats.piecesFinished).getD 0 :=
    fun key p hp => op.piecesFinished_apply hrep hp
  by_cases hresponse : ∃ pieceIndex, SessionOp.answersPiece pieceIndex (.peer op) = true
  · obtain ⟨pieceIndex, hanswers⟩ := hresponse
    cases op with
    | event endpoint pid ts call =>
        cases call with
        | none => cases hanswers
        | some c =>
            cases c with
            | blockResponse piece blockIndex =>
                have hkey := PeerOp.key_apply_connection
                  (.event endpoint pid ts (some (.blockResponse piece blockIndex))) hrep
                have hpeerKey := PeerOp.peerKey_apply
                  (.event endpoint pid ts (some (.blockResponse piece blockIndex))) hrep
                have hcredited : ∀ i, credited (ops ++ [.peer (.event endpoint pid ts
                    (some (.blockResponse piece blockIndex)))]) i =
                    if piece = i then some ⟨endpoint, ops.countP
                      (SessionOp.disconnects (endpointToString endpoint)) + 1⟩
                    else credited ops i := by
                  intro i
                  rw [credited_concat]
                  simp only [SessionOp.losesAlerts, SessionOp.answersPiece,
                    SessionOp.connection?, Bool.false_eq_true, if_false, beq_iff_eq]
                  rfl
                simp only at hbook
                apply h.of_no_completion rfl
                · rw [hbook]
                  rfl
                · rw [hbook]
                · intro i
                  rw [hbook, hcredited, Std.ExtTreeMap.getElem?_insert, hpeerKey, hkey]
                  simp only [Std.LawfulEqCmp.compare_eq_iff_eq]
                  split
                  · rfl
                  · exact h.last i
                · intro i c hc
                  rw [hcredited] at hc
                  split at hc
                  · have hvalid := (PeerOp.apply s (.event endpoint pid ts
                      (some (.blockResponse piece blockIndex)))).valid
                    rw [hkey] at hvalid
                    rw [← Option.some.inj hc]
                    exact hvalid
                  · exact hkeys c.key (h.known i c hc)
                · exact hkeys
                · exact hfinished
            | _ => cases hanswers
    | _ => cases hanswers
  · have hanswers : ∀ pieceIndex, SessionOp.answersPiece pieceIndex (.peer op) = false := by
      intro pieceIndex
      by_contra hne
      exact hresponse ⟨pieceIndex, by simpa using hne⟩
    have hsame : (op.apply s).stats.pieceBook = s.pieceBook := by
      rw [hbook]
      split
      · next endpoint pid ts pieceIndex blockIndex =>
          have hno := hanswers pieceIndex
          simp [SessionOp.answersPiece] at hno
      · rfl
    obtain ⟨hlast, hknown⟩ := h.last_of_same (op.apply s).stats (.peer op) rfl hanswers
      (by rw [hsame]) hkeys
    exact h.of_no_completion rfl (by rw [hsame]; rfl) (by rw [hsame]) hlast hknown hkeys hfinished

/-- What finishing a piece does to the records: while the torrent is downloaded or complete
exactly the credited record gets one more finished piece, if the piece is credited at all;
otherwise no record changes. -/
structure PieceStep (ops : List (SessionOp A)) (s s' : SessionStats) (pieceIndex : Int) :
    Prop where
  credited : stateImpliesNetworkPieceCompletion s.latestTorrentState = true →
    ∀ c before op after, CreditedTo ops pieceIndex c before op after →
      ∃ p, s.peersByKey[c.key]? = some p ∧ ∀ key : String, s'.peersByKey[key]? =
        if c.key = key then some { p with piecesFinished := p.piecesFinished + 1 }
        else s.peersByKey[key]?
  uncredited : stateImpliesNetworkPieceCompletion s.latestTorrentState = true →
    (¬ ∃ c before op after, CreditedTo ops pieceIndex c before op after) →
      s'.peersByKey = s.peersByKey
  verified : stateImpliesNetworkPieceCompletion s.latestTorrentState = false →
    s'.peersByKey = s.peersByKey

theorem Credits.pieceStep {s : SessionStats} {ops : List (SessionOp A)} (h : Credits s ops)
    (pieceIndex : Int) : PieceStep ops s (s.notePieceFinished pieceIndex) pieceIndex := by
  have hlast := h.last pieceIndex
  refine ⟨?_, ?_, ?_⟩
  · intro hnetwork c before op after hcredited
    have hc := credited_eq_some_iff.mpr ⟨before, op, after, hcredited⟩
    have hkey : s.lastPiecePeerKey[pieceIndex]? = some c.key := by
      rw [hc] at hlast
      exact hlast
    obtain ⟨p, hp⟩ := Option.isSome_iff_exists.mp
      (Std.ExtTreeMap.mem_iff_isSome_getElem?.mp (h.known pieceIndex c hc))
    refine ⟨p, hp, fun key => ?_⟩
    simp only [SessionStats.notePieceFinished, hnetwork, hkey, Bool.not_true,
      Bool.false_eq_true, if_false]
    exact getElem?_creditFinishedPiece
      { s with pieceCompletions := s.pieceCompletions + 1 } hp key
  · intro hnetwork hnone
    have hkey : s.lastPiecePeerKey[pieceIndex]? = none := by
      cases hc : credited ops pieceIndex with
      | none =>
          rw [hc] at hlast
          exact hlast
      | some c => exact absurd ⟨c, credited_eq_some_iff.mp hc⟩ hnone
    simp only [SessionStats.notePieceFinished, hnetwork, hkey, Bool.not_true,
      Bool.false_eq_true, if_false]
  · intro hverified
    simp only [SessionStats.notePieceFinished, hverified, Bool.not_false, if_true]

theorem SessionStats.pieceBook_notePieceFinished (s : SessionStats) (pieceIndex : Int) :
    (s.notePieceFinished pieceIndex).pieceBook =
      { s.pieceBook with
        pieceCompletions := s.pieceCompletions +
          (stateImpliesNetworkPieceCompletion s.latestTorrentState).toNat } := by
  cases hnetwork : stateImpliesNetworkPieceCompletion s.latestTorrentState with
  | false =>
      simp only [notePieceFinished, hnetwork, Bool.not_false, if_true]
      rfl
  | true =>
      simp only [notePieceFinished, hnetwork, Bool.not_true, Bool.false_eq_true, if_false]
      split
      · rfl
      · rw [pieceBook_creditFinishedPiece]
        rfl

theorem Credits.pieceFinished {s : SessionStats} {ops : List (SessionOp A)} (h : Credits s ops)
    (pieceIndex : Int) :
    Credits (s.notePieceFinished pieceIndex) (ops ++ [.pieceFinished pieceIndex]) := by
  have hstep := h.pieceStep pieceIndex
  have hbook := s.pieceBook_notePieceFinished pieceIndex
  have hstate : s.latestTorrentState = latestState ops := h.state
  cases hnetwork : stateImpliesNetworkPieceCompletion s.latestTorrentState with
  | false =>
      have hsame := hstep.verified hnetwork
      have hcompletion : SessionOp.completion? ops (.pieceFinished pieceIndex) = none := by
        rw [SessionOp.completion?, ← hstate, hnetwork]
        rfl
      rw [hnetwork] at hbook
      obtain ⟨hlast, hknown⟩ := h.last_of_same (s.notePieceFinished pieceIndex)
        (.pieceFinished pieceIndex) rfl (fun _ => rfl) (by rw [hbook])
        (fun key hkey => by rw [hsame]; exact hkey)
      exact h.of_no_completion hcompletion (by rw [hbook]; rfl) (by rw [hbook]; rfl) hlast
        hknown (fun key hkey => by rw [hsame]; exact hkey)
        (fun key p hp => by rw [hsame] at hp; rw [hp]; rfl)
  | true =>
      have hcompletions : completions (ops ++ [.pieceFinished pieceIndex]) =
          completions ops ++ [credited ops pieceIndex] := by
        rw [completions, lookback_concat, SessionOp.completion?, ← hstate, hnetwork]
        rfl
      rw [hnetwork] at hbook
      have hlookup : ∀ key : String,
          ((s.notePieceFinished pieceIndex).peersByKey[key]?).map PeerStats.piecesFinished =
            (s.peersByKey[key]?).map fun p =>
              p.piecesFinished + (creditsKey key (credited ops pieceIndex)).toNat := by
        intro key
        cases hc : credited ops pieceIndex with
        | none =>
            have hnone : ¬ ∃ c before op after, CreditedTo ops pieceIndex c before op after := by
              rintro ⟨c, hcredited⟩
              rw [credited_eq_some_iff.mpr hcredited] at hc
              cases hc
            rw [hstep.uncredited hnetwork hnone]
            rfl
        | some c =>
            obtain ⟨before, op, after, hcredited⟩ := credited_eq_some_iff.mp hc
            obtain ⟨p, hp, hget⟩ := hstep.credited hnetwork c before op after hcredited
            rw [hget]
            by_cases hkey : c.key = key
            · subst hkey
              simp [creditsKey, hp]
            · have hother : creditsKey key (some c) = false := by simp [creditsKey, hkey]
              rw [if_neg hkey, hother]
              cases s.peersByKey[key]? <;> rfl
      have hkeys : ∀ key : String, key ∈ s.peersByKey →
          key ∈ (s.notePieceFinished pieceIndex).peersByKey := by
        intro key hkey
        rw [Std.ExtTreeMap.mem_iff_isSome_getElem?] at hkey ⊢
        have hmap := congrArg Option.isSome (hlookup key)
        rw [Option.isSome_map, Option.isSome_map] at hmap
        rw [hmap]
        exact hkey
      obtain ⟨hlast, hknown⟩ := h.last_of_same (s.notePieceFinished pieceIndex)
        (.pieceFinished pieceIndex) rfl (fun _ => rfl) (by rw [hbook]) hkeys
      refine ⟨?_, hlast, hknown, ?_, ?_, ?_⟩
      · rw [latestState_concat, hbook]
        exact h.state
      · rw [hcompletions, hbook, List.length_append, ← h.count]
        rfl
      · intro c hc
        rw [hcompletions] at hc
        rcases List.mem_append.mp hc with hold | hnew
        · exact hkeys c.key (h.creditedKnown c hold)
        · exact hkeys c.key (h.known pieceIndex c (List.mem_singleton.mp hnew).symm)
      · intro key p hp
        have hmap := hlookup key
        rw [hp] at hmap
        obtain ⟨q, hq, hpq⟩ := Option.map_eq_some_iff.mp hmap.symm
        rw [hcompletions, List.countP_append, ← h.finished key q hq, ← hpq,
          List.countP_singleton]
        cases creditsKey key (credited ops pieceIndex) <;> rfl

/-- Every operation keeps the agreement. -/
theorem followsOps_credits : FollowsOps fun s (ops : List (SessionOp A)) _ =>
    (Represents s fun e => (tracesOf e ops).map RecordTrace.replay) ∧ Credits s ops where
  count body h := by
    refine ⟨h.1.countAlert body, ?_⟩
    obtain ⟨hstate, hlast, hknown, hcount, hcredited, hfinished⟩ := h.2
    cases body <;> exact ⟨hstate, hlast, hknown, hcount, hcredited, hfinished⟩
  apply {s ops keys} op h := by
    refine ⟨op.represents_append h.1, ?_⟩
    obtain ⟨hrep, hcredits⟩ := h
    cases op with
    | peer op => exact hcredits.peer hrep op
    | pieceFinished pieceIndex => exact hcredits.pieceFinished pieceIndex
    | alertLoss bits =>
        have hforget : ∀ pieceIndex,
            credited (ops ++ [.alertLoss bits]) pieceIndex = none := by
          intro pieceIndex
          rw [credited_concat]
          rfl
        refine hcredits.of_no_completion rfl rfl rfl ?_ ?_ ?_ ?_
        · intro pieceIndex
          rw [hforget]
          simp [SessionOp.apply, SessionStats.noteAlertLoss, SessionStats.pieceBook]
        · intro pieceIndex c hc
          rw [hforget] at hc
          cases hc
        · intro key hkey
          exact Std.ExtTreeMap.mem_map.mpr hkey
        · intro key p hp
          simp only [SessionOp.apply, SessionStats.noteAlertLoss, SessionStats.mapPeers,
            Std.ExtTreeMap.getElem?_map, Option.map_eq_some_iff] at hp
          obtain ⟨q, hq, rfl⟩ := hp
          rw [hq]
          rfl
    | torrentState state =>
        obtain ⟨hlast, hknown⟩ := hcredits.last_of_same (s.noteTorrentState state)
          (.torrentState state) rfl (fun _ => rfl) rfl (fun _ hkey => hkey)
        exact hcredits.of_no_completion rfl rfl rfl hlast hknown (fun _ hkey => hkey)
          (fun key p hp => by
            have hold : s.peersByKey[key]? = some p := hp
            rw [hold]
            rfl)
    | sessionSnapshot status =>
        obtain ⟨hlast, hknown⟩ := hcredits.last_of_same (s.recordSessionSnapshot status)
          (.sessionSnapshot status) rfl (fun _ => rfl) rfl (fun _ hkey => hkey)
        exact hcredits.of_no_completion rfl rfl rfl hlast hknown (fun _ hkey => hkey)
          (fun key p hp => by
            have hold : s.peersByKey[key]? = some p := hp
            rw [hold]
            rfl)
    | initialTotals status =>
        obtain ⟨hlast, hknown⟩ := hcredits.last_of_same (s.setInitialTotals status)
          (.initialTotals status) rfl (fun _ => rfl) rfl (fun _ hkey => hkey)
        exact hcredits.of_no_completion rfl rfl rfl hlast hknown (fun _ hkey => hkey)
          (fun key p hp => by
            have hold : s.peersByKey[key]? = some p := hp
            rw [hold]
            rfl)

/-- Every credited completion belongs to one of the keys. -/
theorem sum_countP_creditsKey {keys : Finset String} {l : List (Option (Connection A))}
    (hknown : ∀ c, some c ∈ l → c.key ∈ keys) :
    ∑ key ∈ keys, l.countP (creditsKey key) = l.countP Option.isSome := by
  induction l with
  | nil => simp
  | cons completion rest ih =>
      simp only [List.countP_cons, Finset.sum_add_distrib]
      rw [ih fun c hc => hknown c (List.mem_cons_of_mem completion hc)]
      congr 1
      cases completion with
      | none => simp [creditsKey]
      | some c =>
          have hmem : c.key ∈ keys := hknown c List.mem_cons_self
          simp [creditsKey, hmem]

/-- The finished pieces of all records together are the credited completions. -/
theorem Credits.total {s : SessionStats} {ops : List (SessionOp A)} (h : Credits s ops) :
    MapTotal.total PeerStats.piecesFinished s.peersByKey =
      (completions ops).countP Option.isSome := by
  have hkeys : ∀ key, key ∈ s.peersByKey.keys.toFinset ↔ key ∈ s.peersByKey := by
    intro key
    rw [List.mem_toFinset, Std.ExtTreeMap.mem_keys]
  have hvalue : ∀ key ∈ s.peersByKey.keys.toFinset,
      (s.peersByKey[key]?.map PeerStats.piecesFinished).getD 0 =
        (completions ops).countP (creditsKey key) := by
    intro key hkey
    obtain ⟨p, hp⟩ := Option.isSome_iff_exists.mp
      (Std.ExtTreeMap.mem_iff_isSome_getElem?.mp ((hkeys key).mp hkey))
    rw [hp]
    exact h.finished key p hp
  rw [MapTotal.total_eq_sum _ _ hkeys, Finset.sum_congr rfl hvalue]
  exact sum_countP_creditsKey fun c hc => (hkeys c.key).mpr (h.creditedKnown c hc)

/-- The piece was answered before it was completed, and no alerts were lost. -/
theorem isSome_credited {ops : List (SessionOp A)} {pieceIndex : Int}
    (hloss : ∀ op ∈ ops, op.losesAlerts = false)
    (hanswered : ∃ op ∈ ops, op.answersPiece pieceIndex = true) :
    (credited ops pieceIndex).isSome := by
  induction ops using List.reverseRecOn with
  | nil =>
      obtain ⟨op, hop, -⟩ := hanswered
      cases hop
  | append_singleton ops last ih =>
      rw [credited_concat, hloss last (by simp)]
      simp only [Bool.false_eq_true, if_false]
      split
      · next hlast =>
          cases last with
          | peer op => rfl
          | _ => cases hlast
      · next hlast =>
          obtain ⟨op, hop, hanswers⟩ := hanswered
          apply ih fun op hop => hloss op (List.mem_append_left _ hop)
          rcases List.mem_append.mp hop with hold | hnew
          · exact ⟨op, hold, hanswers⟩
          · rw [List.mem_singleton.mp hnew] at hanswers
            exact absurd hanswers hlast

/-- With all alerts, and an answer before each completion, every completion is credited. -/
theorem countP_completions {ops : List (SessionOp A)}
    (hloss : ∀ op ∈ ops, op.losesAlerts = false)
    (hanswered : ∀ before pieceIndex after, ops = before ++ .pieceFinished pieceIndex :: after →
      stateImpliesNetworkPieceCompletion (latestState before) = true →
        ∃ op ∈ before, op.answersPiece pieceIndex = true) :
    (completions ops).countP Option.isSome = (completions ops).length := by
  rw [List.countP_eq_length]
  intro completion hmem
  obtain ⟨before, op, after, hsplit, hcompletion⟩ := (mem_lookback _).mp hmem
  cases op with
  | pieceFinished pieceIndex =>
      simp only [SessionOp.completion?] at hcompletion
      split at hcompletion
      · next hnetwork =>
          obtain rfl := Option.some.inj hcompletion
          apply isSome_credited
          · intro op hop
            exact hloss op (by rw [hsplit]; exact List.mem_append_left _ hop)
          · exact hanswered before pieceIndex after hsplit hnetwork
      · cases hcompletion
  | _ => cases hcompletion

/-- Piece attribution is exact. In every run a finished piece changes the records as
`PieceStep` says, the finished pieces of each record are the completions credited to it, and
their sum is at most the number of completions, with equality if no alerts were lost and each
completed piece was answered before. -/
theorem pieceCredit_run (runId sessionId infoHash : ByteString) (start : TimestampPair)
    (config : RuntimeConfig) (steps : List (RunStep A)) (r : Recording)
    (hrun : (Recording.start runId sessionId start config infoHash).run steps = .ok r) :
    let ops := opsOf config.snapshotIntervalMs steps
    (∀ (timed : TimedAlert A) (pieceIndex : Int) (r' : Recording),
      timed.alert.body = .pieceFinished pieceIndex → r.recordAlert timed = .ok r' →
        PieceStep ops r.stats r'.stats pieceIndex) ∧
      (∀ (key : String) (p : PeerStats), r.stats.peersByKey[key]? = some p →
        p.piecesFinished = (completions ops).countP (creditsKey key)) ∧
      MapTotal.total PeerStats.piecesFinished r.stats.peersByKey ≤ r.stats.pieceCompletions ∧
      ((∀ op ∈ ops, op.losesAlerts = false) →
        (∀ before pieceIndex after, ops = before ++ .pieceFinished pieceIndex :: after →
          stateImpliesNetworkPieceCompletion (latestState before) = true →
            ∃ op ∈ before, op.answersPiece pieceIndex = true) →
        MapTotal.total PeerStats.piecesFinished r.stats.peersByKey = r.stats.pieceCompletions) := by
  intro ops
  have hnew : Represents (Recording.start runId sessionId start config infoHash).stats
      fun e => (tracesOf e ([] : List (SessionOp A))).map RecordTrace.replay :=
    represents_new runId sessionId start
  have hcredits : Credits r.stats ops :=
    (followsOps_credits.run ⟨hnew, Credits.new runId sessionId start⟩ hrun).2
  have hcount : r.stats.pieceCompletions = (completions ops).length := hcredits.count
  refine ⟨?_, hcredits.finished, ?_, ?_⟩
  · intro timed pieceIndex r' hbody hr'
    have hstats := recordAlert_stats hr'
    rw [handleAlert_stats, hbody] at hstats
    rw [hstats]
    exact hcredits.pieceStep pieceIndex
  · rw [hcredits.total, hcount]
    exact List.countP_le_length
  · intro hloss hanswered
    rw [hcredits.total, hcount]
    exact countP_completions hloss hanswered

end Steps

/-- A piece that is downloaded from the sample peer. -/
def samplePieceSteps : List (RunStep AddressV4) :=
  [.drainAlerts [
    ⟨⟨"", 10⟩, {}, ⟨"", "", .stateChanged .downloading .checkingFiles⟩⟩,
    ⟨⟨"", 20⟩, {}, ⟨"", "", .blockFinished samplePeer samplePid 3 0⟩⟩,
    ⟨⟨"", 30⟩, {}, ⟨"", "", .pieceFinished 3⟩⟩]]

theorem pieceCredit_run_samplePieceSteps : ∃ r, sampleStart.run samplePieceSteps = .ok r ∧
    MapTotal.total PeerStats.piecesFinished r.stats.peersByKey ≤ r.stats.pieceCompletions := by
  obtain ⟨r, hr⟩ := exists_of_isOk (x := sampleStart.run samplePieceSteps) (by decide +kernel)
  exact ⟨r, hr, (pieceCredit_run _ _ _ _ _ samplePieceSteps r hr).2.2.1⟩

end BtClient
