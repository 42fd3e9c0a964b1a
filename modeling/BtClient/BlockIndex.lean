import BtClient.UploadMatching

/-!
# The block number of an incoming request

An incoming request is filed under the quotient of its start and its own length, and the
upload that answers it is looked up under the block number of libtorrent, the quotient of
the start and the block size. The two agree for full blocks, and for a short last block
only as long as it is not too short.
-/

namespace BtClient

open QueueEvent

/-- The request for block `k` of a piece of length `pieceLength`: the last block may be
shorter than the others. -/
def blockRequest (blockSize pieceLength piece k : Int) : PeerRequest :=
  ⟨piece, k * blockSize, min blockSize (pieceLength - k * blockSize)⟩

/-- Block `k` is not too short for the number that `block_index_from_request` computes. -/
def LongEnough (blockSize pieceLength k : Int) : Prop :=
  k = 0 ∨ k * blockSize < (k + 1) * min blockSize (pieceLength - k * blockSize)

instance (blockSize pieceLength k : Int) : Decidable (LongEnough blockSize pieceLength k) :=
  inferInstanceAs (Decidable (_ ∨ _))

section BlockIndex

variable {blockSize pieceLength piece k : Int}

theorem length_blockRequest_pos (hsize : 0 < blockSize) (hlast : k * blockSize < pieceLength) :
    0 < min blockSize (pieceLength - k * blockSize) := by
  rw [lt_min_iff]
  exact ⟨hsize, by omega⟩

theorem blockIndexFromRequest_blockRequest (hsize : 0 < blockSize) (hk : 0 ≤ k)
    (hlast : k * blockSize < pieceLength) :
    blockIndexFromRequest (blockRequest blockSize pieceLength piece k) =
      k * blockSize / min blockSize (pieceLength - k * blockSize) := by
  have hpos := length_blockRequest_pos hsize hlast
  have hstart : 0 ≤ k * blockSize := mul_nonneg hk hsize.le
  rw [blockIndexFromRequest, blockRequest, if_neg (by simpa using hpos)]
  exact Int.tdiv_eq_ediv_of_nonneg hstart

/-- A request is never filed under a number that is too small. -/
theorem le_blockIndexFromRequest (hsize : 0 < blockSize) (hk : 0 ≤ k)
    (hlast : k * blockSize < pieceLength) :
    k ≤ blockIndexFromRequest (blockRequest blockSize pieceLength piece k) := by
  rw [blockIndexFromRequest_blockRequest hsize hk hlast,
    Int.le_ediv_iff_mul_le (length_blockRequest_pos hsize hlast)]
  exact mul_le_mul_of_nonneg_left (min_le_left _ _) hk

/-- The request is filed under its block number exactly if its block is long enough. -/
theorem blockIndexFromRequest_eq_iff (hsize : 0 < blockSize) (hk : 0 ≤ k)
    (hlast : k * blockSize < pieceLength) :
    blockIndexFromRequest (blockRequest blockSize pieceLength piece k) = k ↔
      LongEnough blockSize pieceLength k := by
  have hpos := length_blockRequest_pos hsize hlast
  have hle : k ≤ blockIndexFromRequest (blockRequest blockSize pieceLength piece k) :=
    le_blockIndexFromRequest hsize hk hlast
  rw [blockIndexFromRequest_blockRequest hsize hk hlast] at hle ⊢
  have hlt : k * blockSize / min blockSize (pieceLength - k * blockSize) < k + 1 ↔
      k * blockSize < (k + 1) * min blockSize (pieceLength - k * blockSize) :=
    Int.ediv_lt_iff_lt_mul hpos
  constructor
  · intro heq
    exact Or.inr (hlt.mp (by omega))
  · rintro (rfl | hlong)
    · simp
    · have hbound := hlt.mpr hlong
      omega

/-- Only the last block of a piece is filed under another number, so no block is filed
under the number of a different one. -/
theorem blockIndexFromRequest_ne {j : Int} (hsize : 0 < blockSize) (hj : 0 ≤ j)
    (hjlast : j * blockSize < pieceLength) (hlast : k * blockSize < pieceLength) (hne : j ≠ k) :
    blockIndexFromRequest (blockRequest blockSize pieceLength piece j) ≠ k := by
  have hle : j ≤ blockIndexFromRequest (blockRequest blockSize pieceLength piece j) :=
    le_blockIndexFromRequest hsize hj hjlast
  intro heq
  have hjk : j < k := lt_of_le_of_ne (heq ▸ hle) hne
  -- a later block follows, so this one is full
  have hfull : min blockSize (pieceLength - j * blockSize) = blockSize := by
    rw [min_eq_left_iff]
    have hnext : (j + 1) * blockSize ≤ k * blockSize :=
      mul_le_mul_of_nonneg_right hjk hsize.le
    rw [add_mul, one_mul] at hnext
    omega
  rw [blockIndexFromRequest_blockRequest hsize hj hjlast, hfull,
    Int.mul_ediv_cancel _ hsize.ne'] at heq
  exact hne heq

end BlockIndex

namespace RecordOp

variable {A : Type}

/-- The operation may stand between a request for block `k` of the piece and its upload:
it is no disconnect, no alert loss and no request or upload for that block. -/
def Apart (blockSize pieceLength piece k : Int) : RecordOp A → Prop
  | .disconnect _ | .reset | .finalize _ => False
  | .call _ (.incomingRequest request) => request.piece ≠ piece ∨
      ∃ j, 0 ≤ j ∧ j * blockSize < pieceLength ∧ j ≠ k ∧
        request = blockRequest blockSize pieceLength piece j
  | .call _ (.blockUploaded pieceIndex blockIndex) => ¬ (pieceIndex = piece ∧ blockIndex = k)
  | _ => True

end RecordOp

/-- The upload measures the time back to the request, and the list that the request was
put into is empty again. -/
def Answered {A : Type} (blockSize pieceLength piece k : Int) (p : PeerStats)
    (ts : TimestampPair) (between : List (RecordOp A)) (ts' : TimestampPair) : Prop :=
  let request := blockRequest blockSize pieceLength piece k
  let before := (p.noteIncomingRequest ts request).run between
  let after := before.noteBlockUploaded ts' piece k
  after.requestToUploadLatencyMsSamples =
      before.requestToUploadLatencyMsSamples ++ [nsToMs (ts'.monoNs - ts.monoNs)] ∧
    (after.pendingUploadRequests[(⟨piece, blockIndexFromRequest request⟩ : RequestKey)]?).getD
      [] = []

/-- A list that no event is about stays as it is. -/
theorem UploadState.pending_after (u : UploadState) {e : QueueEvent RequestKey Int}
    {key : RequestKey}
    (he : match e with
      | .arrive k _ => k ≠ key
      | .serve k _ => k ≠ key
      | .clear => False
      | .other => True) :
    (u.after e).pending[key]? = u.pending[key]? := by
  cases e with
  | arrive k t =>
      simp only [after, UploadState.queue, Std.ExtTreeMap.getElem?_insert,
        Std.LawfulEqCmp.compare_eq_iff_eq]
      exact if_neg he
  | serve k t =>
      have hne : ¬ compare k key = .eq := by simpa using he
      simp only [after, UploadState.answer]
      split
      · split
        · rw [Std.ExtTreeMap.getElem?_erase, if_neg hne]
        · rw [Std.ExtTreeMap.getElem?_insert, if_neg hne]
      · rfl
  | clear => exact he.elim
  | other => rfl

section Between

variable {A : Type} {blockSize pieceLength piece k : Int}

theorem RecordOp.Apart.pending_apply {op : RecordOp A}
    (h : op.Apart blockSize pieceLength piece k) (hsize : 0 < blockSize)
    (hlast : k * blockSize < pieceLength) (p : PeerStats) :
    (op.apply p).pendingUploadRequests[(⟨piece, k⟩ : RequestKey)]? =
      p.pendingUploadRequests[(⟨piece, k⟩ : RequestKey)]? := by
  have hflow : (op.apply p).flow.uploads =
      p.flow.uploads.after (op.queueEvent p.activeConnection) := by
    rw [op.flow_apply, op.uploads_flow]
    rfl
  have hpending := congrArg (fun u => u.pending[(⟨piece, k⟩ : RequestKey)]?) hflow
  refine hpending.trans (p.flow.uploads.pending_after ?_)
  cases op with
  | call ts c =>
      cases c with
      | incomingRequest request =>
          simp only [queueEvent, ne_eq, RequestKey.mk.injEq, not_and]
          rcases h with hpiece | ⟨j, hj, hjlast, hne, rfl⟩
          · exact fun heq => absurd heq hpiece
          · exact fun _ => blockIndexFromRequest_ne hsize hj hjlast hlast hne
      | blockUploaded pieceIndex blockIndex =>
          simpa [queueEvent, Apart] using h
      | _ => trivial
  | disconnect ts => exact h.elim
  | reset => exact h.elim
  | finalize sessionEnd => exact h.elim
  | _ => trivial

theorem pending_run_of_apart {between : List (RecordOp A)}
    (h : ∀ op ∈ between, op.Apart blockSize pieceLength piece k) (hsize : 0 < blockSize)
    (hlast : k * blockSize < pieceLength) (p : PeerStats) :
    (p.run between).pendingUploadRequests[(⟨piece, k⟩ : RequestKey)]? =
      p.pendingUploadRequests[(⟨piece, k⟩ : RequestKey)]? := by
  induction between generalizing p with
  | nil => rfl
  | cons op ops ih =>
      rw [List.forall_mem_cons] at h
      have hrun : p.run (op :: ops) = (op.apply p).run ops := rfl
      rw [hrun, ih h.2, h.1.pending_apply hsize hlast]

/-- The request waits in the list of the number it is filed under. -/
theorem pending_noteIncomingRequest (p : PeerStats) (ts : TimestampPair) (request : PeerRequest)
    (key : RequestKey) :
    (p.noteIncomingRequest ts request).pendingUploadRequests[key]? =
      if (⟨request.piece, blockIndexFromRequest request⟩ : RequestKey) = key then
        some ((p.pendingUploadRequests[key]?).getD [] ++ [ts.monoNs])
      else p.pendingUploadRequests[key]? := by
  have hflow := congrArg (fun f => f.uploads.pending[key]?)
    (PeerStats.flow_noteIncomingRequest ts request p)
  refine hflow.trans ?_
  simp only [UploadState.queue, Std.ExtTreeMap.getElem?_insert,
    Std.LawfulEqCmp.compare_eq_iff_eq]
  split
  · next heq => rw [heq]; rfl
  · rfl

end Between

/-- A request for a block and the upload that answers it meet under the same key exactly
if the block is not too short. -/
theorem answered_iff {A : Type} (blockSize pieceLength piece k : Int) (hsize : 0 < blockSize)
    (hk : 0 ≤ k) (hlast : k * blockSize < pieceLength) (p : PeerStats)
    (hempty : (p.pendingUploadRequests[(⟨piece, k⟩ : RequestKey)]?).getD [] = [])
    (ts ts' : TimestampPair) (hts : ts.monoNs ≤ ts'.monoNs) (between : List (RecordOp A))
    (hbetween : ∀ op ∈ between, op.Apart blockSize pieceLength piece k) :
    Answered blockSize pieceLength piece k p ts between ts' ↔
      LongEnough blockSize pieceLength k := by
  have hiff : blockIndexFromRequest (blockRequest blockSize pieceLength piece k) = k ↔
      LongEnough blockSize pieceLength k := blockIndexFromRequest_eq_iff hsize hk hlast
  rw [← hiff]
  unfold Answered
  dsimp only
  generalize hrequest : blockRequest blockSize pieceLength piece k = request
  have hpiece : request.piece = piece := by rw [← hrequest]; rfl
  generalize hbefore : (p.noteIncomingRequest ts request).run between = before
  have hpending : before.pendingUploadRequests[(⟨piece, k⟩ : RequestKey)]? =
      (p.noteIncomingRequest ts request).pendingUploadRequests[(⟨piece, k⟩ : RequestKey)]? := by
    rw [← hbefore]
    exact pending_run_of_apart hbetween hsize hlast _
  rw [pending_noteIncomingRequest, hpiece, hempty, List.nil_append] at hpending
  have hflow := PeerStats.flow_noteBlockUploaded ts' piece k before
  have hsamples : (before.noteBlockUploaded ts' piece k).requestToUploadLatencyMsSamples =
      (before.flow.uploads.answer ⟨piece, k⟩ ts'.monoNs).latencyMsSamples :=
    congrArg (fun f => f.uploads.latencyMsSamples) hflow
  have hlists : (before.noteBlockUploaded ts' piece k).pendingUploadRequests =
      (before.flow.uploads.answer ⟨piece, k⟩ ts'.monoNs).pending :=
    congrArg (fun f => f.uploads.pending) hflow
  rw [hsamples, hlists]
  by_cases hindex : blockIndexFromRequest request = k
  · rw [hindex] at hpending ⊢
    have hsome : before.flow.uploads.pending[(⟨piece, k⟩ : RequestKey)]? = some [ts.monoNs] := by
      rw [if_pos rfl] at hpending
      exact hpending
    rw [UploadState.answer_of_some hsome hts]
    refine iff_of_true ⟨rfl, ?_⟩ rfl
    simp
  · refine iff_of_false ?_ hindex
    rintro ⟨hadded, -⟩
    have hnone : (before.flow.uploads.pending[(⟨piece, k⟩ : RequestKey)]?).getD [] = [] := by
      rw [if_neg fun heq => hindex (RequestKey.mk.inj heq).2] at hpending
      exact (congrArg (fun o => o.getD []) hpending).trans hempty
    have hsame : (before.flow.uploads.answer ⟨piece, k⟩ ts'.monoNs).latencyMsSamples =
        before.requestToUploadLatencyMsSamples := by
      have hlatency : before.flow.uploads.latencyMsSamples =
          before.requestToUploadLatencyMsSamples := rfl
      simp only [UploadState.answer]
      split
      · next requestNs rest hqueue =>
          rw [hqueue] at hnone
          cases hnone
      · rw [List.append_nil, hlatency]
    rw [hsame] at hadded
    simp at hadded

/-- A record with a request for the first block of a piece of 40000 bytes. -/
def waitingRecord : PeerStats :=
  (PeerStats.new "k#1" "k" "ip" 1 ⟨"", 5⟩ "inbound" "tcp").noteIncomingRequest ⟨"", 7⟩
    (blockRequest 16384 40000 0 0)

/-- Requests for the short last block and for another piece, and an upload of the first
block. -/
def otherRequests : List (RecordOp AddressV4) :=
  [.call ⟨"", 12⟩ (.incomingRequest (blockRequest 16384 40000 0 2)),
    .call ⟨"", 14⟩ (.incomingRequest (blockRequest 16384 40000 1 1)),
    .call ⟨"", 16⟩ (.blockUploaded 0 0)]

theorem apart_otherRequests : ∀ op ∈ otherRequests, op.Apart 16384 40000 0 1 := by
  simp only [otherRequests, List.forall_mem_cons, List.not_mem_nil, false_imp_iff, implies_true,
    and_true]
  exact ⟨Or.inr ⟨2, by decide, by decide, by decide, rfl⟩, Or.inl (by decide), by
    rintro ⟨-, hindex⟩
    exact absurd hindex (by decide)⟩

theorem answered_iff_second_block :
    Answered 16384 40000 0 1 waitingRecord ⟨"", 10⟩ otherRequests ⟨"", 25⟩ ↔
      LongEnough 16384 40000 1 :=
  answered_iff 16384 40000 0 1 (by decide) (by decide) (by decide) waitingRecord
    (by decide +kernel) ⟨"", 10⟩ ⟨"", 25⟩ (by decide) otherRequests apart_otherRequests

/-- The second block of a piece of 16484 bytes is 100 bytes long and filed as block 163. -/
theorem not_answered_short_block :
    ¬ Answered 16384 16484 0 1 (PeerStats.new "k#1" "k" "ip" 1 ⟨"", 5⟩ "inbound" "tcp") ⟨"", 10⟩
      ([] : List (RecordOp AddressV4)) ⟨"", 15⟩ := by
  unfold Answered
  decide +kernel

end BtClient
