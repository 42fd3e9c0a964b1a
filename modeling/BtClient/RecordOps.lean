import BtClient.RecordFlow

/-!
# Runs of the operations on one record

`RecordOp` lists the operations of `PeerStats`. What each of them does to the measuring
part of the record and to its event counters is all that the later results need to know.
-/

namespace BtClient

/-- The operations on a record. -/
inductive RecordOp (A : Type) where
  | seen (ts : TimestampPair)
  | connect (ts : TimestampPair) (direction transport : String) (fromConnectAlert : Bool)
  | disconnect (ts : TimestampPair)
  | peerId (pid : PeerId)
  | call (ts : TimestampPair) (c : PeerCall)
  | snapshot (peer : PeerInfo A) (ts : TimestampPair) (snapshotIntervalMs : Int)
  | reset
  | finalize (sessionEnd : TimestampPair)

/-- What a call on the record does to its measuring part. -/
def PeerCall.flow (monoNs : Int) (c : PeerCall) (f : RecordFlow) : RecordFlow :=
  let f := { f with activity := f.activity.seen monoNs }
  match c with
  | .requestSent pieceIndex blockIndex =>
      { f with requests := (f.requests.request ⟨pieceIndex, blockIndex⟩ monoNs).recordSize }
  | .blockResponse pieceIndex blockIndex =>
      { f with requests := (f.requests.answer ⟨pieceIndex, blockIndex⟩ monoNs).recordSize }
  | .timeout pieceIndex blockIndex =>
      { f with requests := (f.requests.cancel ⟨pieceIndex, blockIndex⟩).recordSize }
  | .drop pieceIndex blockIndex =>
      { f with requests := (f.requests.cancel ⟨pieceIndex, blockIndex⟩).recordSize }
  | .incomingRequest request =>
      { f with
        pacing := f.pacing.note monoNs
        burst := f.burst.note monoNs
        uploads := f.uploads.queue ⟨request.piece, blockIndexFromRequest request⟩ monoNs }
  | .blockUploaded pieceIndex blockIndex =>
      { f with uploads := f.uploads.answer ⟨pieceIndex, blockIndex⟩ monoNs }
  | .snubbed => f
  | .unsnubbed => f

theorem PeerStats.flow_call (ts : TimestampPair) (c : PeerCall) (p : PeerStats) :
    (p.call ts c).flow = c.flow ts.monoNs p.flow := by
  cases c with
  | requestSent pieceIndex blockIndex => exact flow_noteRequestSent ts pieceIndex blockIndex p
  | blockResponse pieceIndex blockIndex =>
      exact flow_noteBlockResponse ts pieceIndex blockIndex p
  | timeout pieceIndex blockIndex => exact flow_noteTimeout ts pieceIndex blockIndex p
  | drop pieceIndex blockIndex => exact flow_noteDrop ts pieceIndex blockIndex p
  | incomingRequest request => exact flow_noteIncomingRequest ts request p
  | blockUploaded pieceIndex blockIndex =>
      exact flow_noteBlockUploaded ts pieceIndex blockIndex p
  | snubbed => exact flow_noteSnubbed ts p
  | unsnubbed => exact flow_noteUnsnubbed ts p

namespace RecordOp

variable {A : Type}

def apply (p : PeerStats) : RecordOp A → PeerStats
  | .seen ts => p.markSeen ts
  | .connect ts direction transport fromConnectAlert =>
      p.noteConnect ts direction transport fromConnectAlert
  | .disconnect ts => p.noteDisconnect ts
  | .peerId pid => p.notePeerId pid
  | .call ts c => p.call ts c
  | .snapshot peer ts snapshotIntervalMs => p.updateFromSnapshot peer ts snapshotIntervalMs
  | .reset => p.resetOutstandingRequests
  | .finalize sessionEnd => p.finalize sessionEnd

/-- The time at which the operation is called. -/
def time? : RecordOp A → Option Int
  | .seen ts | .connect ts _ _ _ | .disconnect ts | .call ts _ | .snapshot _ ts _
  | .finalize ts => some ts.monoNs
  | .peerId _ | .reset => none

/-- The times of the operations do not decrease. -/
def InOrder (ops : List (RecordOp A)) : Prop :=
  (ops.filterMap time?).Pairwise (· ≤ ·)

instance (ops : List (RecordOp A)) : Decidable (InOrder ops) :=
  inferInstanceAs (Decidable ((ops.filterMap time?).Pairwise (· ≤ ·)))

/-- What the operation does to the measuring part of the record. -/
def flow (f : RecordFlow) : RecordOp A → RecordFlow
  | .seen ts => { f with activity := f.activity.seen ts.monoNs }
  | .connect ts _ _ _ =>
      { f with active := true, activity := (f.activity.seen ts.monoNs).connect ts.monoNs }
  | .disconnect ts => f.disconnect ts.monoNs
  | .peerId _ => f
  | .call ts c => c.flow ts.monoNs f
  | .snapshot peer ts snapshotIntervalMs =>
      { f with
        requests := f.requests.recordDepth
          (max (f.requests.outstanding.size : ℚ) (peer.downloadQueueLength : ℚ))
        activity := (f.activity.seen ts.monoNs).advance ts.monoNs
          (PeerStats.snapshotActive peer snapshotIntervalMs) }
  | .reset => f.reset
  | .finalize sessionEnd => f.finalize sessionEnd.monoNs

theorem flow_apply (op : RecordOp A) (p : PeerStats) : (op.apply p).flow = op.flow p.flow := by
  cases op with
  | seen ts => exact PeerStats.flow_markSeen ts p
  | connect ts direction transport fromConnectAlert =>
      exact PeerStats.flow_noteConnect ts direction transport fromConnectAlert p
  | disconnect ts => exact PeerStats.flow_noteDisconnect ts p
  | peerId pid => exact PeerStats.flow_notePeerId pid p
  | call ts c => exact PeerStats.flow_call ts c p
  | snapshot peer ts snapshotIntervalMs =>
      exact PeerStats.flow_updateFromSnapshot peer ts snapshotIntervalMs p
  | reset => exact PeerStats.flow_resetOutstandingRequests p
  | finalize sessionEnd => exact PeerStats.flow_finalize sessionEnd p

/-- The event counter that the operation advances. -/
def kind? : RecordOp A → Option CounterKind
  | .call _ c => some c.kind
  | _ => none

theorem counter_apply (op : RecordOp A) (p : PeerStats) (k : CounterKind) :
    (op.apply p).counter k = p.counter k + if op.kind? = some k then 1 else 0 := by
  have hcounter : (op.apply p).core.counter k =
      p.core.counter k + if op.kind? = some k then 1 else 0 := by
    cases op with
    | connect ts direction transport fromConnectAlert =>
        simp only [apply, PeerStats.noteConnect]
        split
        · split <;> simp [kind?]
        · split <;> simp [kind?]
    | call ts c => simp [apply, kind?, PeerCore.bump, eq_comm]
    | _ => simp [apply, kind?]
  exact hcounter

end RecordOp

/-- The record after a sequence of operations. -/
def PeerStats.run {A : Type} (p : PeerStats) (ops : List (RecordOp A)) : PeerStats :=
  ops.foldl RecordOp.apply p

section Run

variable {A : Type}

theorem PeerStats.run_append (p : PeerStats) (ops ops' : List (RecordOp A)) :
    p.run (ops ++ ops') = (p.run ops).run ops' :=
  List.foldl_append

namespace RecordOp

variable {E : Type} (event : Bool → RecordOp A → E)

/-- The events that the operations stand for, where what an operation means depends on
whether the record is active. -/
def eventTrace (p : PeerStats) : List (RecordOp A) → List E
  | [] => []
  | op :: ops => event p.activeConnection op :: eventTrace (op.apply p) ops

theorem eventTrace_append (p : PeerStats) (ops : List (RecordOp A)) (op : RecordOp A) :
    eventTrace event p (ops ++ [op]) =
      eventTrace event p ops ++ [event (p.run ops).activeConnection op] := by
  induction ops generalizing p with
  | nil => rfl
  | cons op' ops ih =>
      rw [List.cons_append, eventTrace, eventTrace, ih]
      rfl

variable {event}

/-- The times of the events are among those of the operations. -/
theorem filterMap_eventTrace {eventTime : E → Option Int}
    (h : ∀ active op t, eventTime (event active op) = some t → op.time? = some t)
    (p : PeerStats) (ops : List (RecordOp A)) :
    ((eventTrace event p ops).filterMap eventTime).Sublist (ops.filterMap time?) := by
  induction ops generalizing p with
  | nil => exact List.Sublist.refl _
  | cons op ops ih =>
      rw [eventTrace, List.filterMap_cons, List.filterMap_cons]
      cases hevent : eventTime (event p.activeConnection op) with
      | none =>
          cases op.time? with
          | none => exact ih _
          | some t => exact (ih _).cons t
      | some t =>
          rw [h _ _ _ hevent]
          exact (ih _).cons_cons t

end RecordOp

end Run

end BtClient
