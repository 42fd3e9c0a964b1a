import BtClient.AlertOps
import BtClient.BurstSegmentation

/-!
# The pacing samples of a record

Sent requests, incoming requests and uploaded blocks are paced in the same way: the first
one of a family is measured from the connect and each later one from the one before it. A
`Pace` holds the samples of one family, `Pacing` those of all three with the interactions.
Every operation on a record is described by what it does to this part, and the samples of a
run are the gaps between the times at which the events of a family came.
-/

namespace BtClient

open MaximalRuns

/-- The samples of one family of events. -/
structure Pace where
  gapMsSamples : List ℚ
  firstDelayMs : Option ℚ
  lastMonoNs : Option Int

/-- One more event of the family. -/
def Pace.note (connectedMonoNs monoNs : Int) (pace : Pace) : Pace where
  gapMsSamples := pace.gapMsSamples ++ PeerStats.gapSample pace.lastMonoNs monoNs
  firstDelayMs :=
    PeerStats.firstDelay pace.lastMonoNs connectedMonoNs monoNs pace.firstDelayMs
  lastMonoNs := some monoNs

/-- The families of events that are paced. -/
inductive PaceFamily where
  | requestSent
  | incomingRequest
  | blockUploaded
  deriving DecidableEq

def PaceFamily.kind : PaceFamily → CounterKind
  | .requestSent => .requestSent
  | .incomingRequest => .incomingRequest
  | .blockUploaded => .blockUploaded

structure Pacing where
  connectedMonoNs : Int
  requestSent : Pace
  incomingRequest : Pace
  blockUploaded : Pace
  interactionGapMsSamples : List ℚ
  lastInteractionMonoNs : Option Int

namespace Pacing

def pace (v : Pacing) : PaceFamily → Pace
  | .requestSent => v.requestSent
  | .incomingRequest => v.incomingRequest
  | .blockUploaded => v.blockUploaded

def interact (monoNs : Int) (v : Pacing) : Pacing :=
  { v with
    interactionGapMsSamples := v.interactionGapMsSamples ++
      PeerStats.gapSample (v.lastInteractionMonoNs.filter fun last => decide (last < monoNs))
        monoNs
    lastInteractionMonoNs := some monoNs }

/-- An event of the given kind, after its interaction. -/
def note (monoNs : Int) (kind : CounterKind) (v : Pacing) : Pacing :=
  match kind with
  | .requestSent => { v with requestSent := v.requestSent.note v.connectedMonoNs monoNs }
  | .incomingRequest =>
      { v with incomingRequest := v.incomingRequest.note v.connectedMonoNs monoNs }
  | .blockUploaded => { v with blockUploaded := v.blockUploaded.note v.connectedMonoNs monoNs }
  | _ => v

end Pacing

namespace PeerStats

def pacing (p : PeerStats) : Pacing where
  connectedMonoNs := p.connectedMonoNs
  requestSent := ⟨p.requestGapMsSamples, p.firstRequestDelayMs, p.lastRequestSentMonoNs⟩
  incomingRequest :=
    ⟨p.incomingRequestGapMsSamples, p.firstIncomingRequestDelayMs, p.lastIncomingRequestMonoNs⟩
  blockUploaded :=
    ⟨p.blockUploadGapMsSamples, p.firstBlockUploadDelayMs, p.lastBlockUploadedMonoNs⟩
  interactionGapMsSamples := p.interactionGapMsSamples
  lastInteractionMonoNs := p.lastInteractionMonoNs

@[simp] theorem pacing_flushIncomingRequestBurst (p : PeerStats) :
    p.flushIncomingRequestBurst.pacing = p.pacing := by
  unfold flushIncomingRequestBurst
  split <;> rfl

@[simp] theorem pacing_noteIncomingRequestBurst (monoNs : Int) (p : PeerStats) :
    (p.noteIncomingRequestBurst monoNs).pacing = p.pacing := by
  simp only [noteIncomingRequestBurst]
  split
  · rfl
  · split
    · rfl
    · exact pacing_flushIncomingRequestBurst p

/-- A call is an interaction and an event of its kind. -/
theorem pacing_call (ts : TimestampPair) (c : PeerCall) (p : PeerStats) :
    (p.call ts c).pacing = (p.pacing.interact ts.monoNs).note ts.monoNs c.kind := by
  cases c with
  | incomingRequest request =>
      have hburst := pacing_noteIncomingRequestBurst ts.monoNs
        (((p.markSeen ts).noteInteraction ts.monoNs).paceIncomingRequest ts)
      exact hburst
  | _ => rfl

/-- A connect sets the time of the connection if there is none. -/
theorem pacing_noteConnect (ts : TimestampPair) (direction transport : String)
    (fromConnectAlert : Bool) (p : PeerStats) :
    (p.noteConnect ts direction transport fromConnectAlert).pacing =
      { p.pacing with
        connectedMonoNs := if p.connectedMonoNs = 0 then ts.monoNs else p.connectedMonoNs } := by
  simp only [noteConnect]
  split <;> split <;> rfl

theorem pacing_noteDisconnect (ts : TimestampPair) (p : PeerStats) :
    (p.noteDisconnect ts).pacing = p.pacing := by
  have hflush : (p.markSeen ts).flushIncomingRequestBurst.pacing = p.pacing :=
    pacing_flushIncomingRequestBurst _
  exact hflush

theorem pacing_finalize (sessionEnd : TimestampPair) (p : PeerStats) :
    (p.finalize sessionEnd).pacing = p.pacing := by
  have hflush := pacing_flushIncomingRequestBurst p
  simp only [finalize]
  split
  · rw [pacing_noteDisconnect, hflush]
  · split
    · exact hflush
    · exact hflush

@[simp] theorem pacing_markSeen (ts : TimestampPair) (p : PeerStats) :
    (p.markSeen ts).pacing = p.pacing := rfl

@[simp] theorem pacing_notePeerId (pid : PeerId) (p : PeerStats) :
    (p.notePeerId pid).pacing = p.pacing := rfl

@[simp] theorem pacing_noteSnapshotDetails {A : Type} (peer : PeerInfo A) (p : PeerStats) :
    (p.noteSnapshotDetails peer).pacing = p.pacing := rfl

@[simp] theorem pacing_noteSnapshotTraffic {A : Type} (peer : PeerInfo A) (p : PeerStats) :
    (p.noteSnapshotTraffic peer).pacing = p.pacing := rfl

@[simp] theorem pacing_recordOutstandingDepth (depth : ℚ) (p : PeerStats) :
    (p.recordOutstandingDepth depth).pacing = p.pacing := rfl

@[simp] theorem pacing_noteSnapshotTransitions (remoteChokedNow localChokedNow : Bool)
    (p : PeerStats) :
    (p.noteSnapshotTransitions remoteChokedNow localChokedNow).pacing = p.pacing := rfl

@[simp] theorem pacing_noteSnapshotFlags {A : Type} (peer : PeerInfo A) (p : PeerStats) :
    (p.noteSnapshotFlags peer).pacing = p.pacing := rfl

@[simp] theorem pacing_advanceActivityWindow (monoNs : Int) (activeNow : Bool)
    (p : PeerStats) : (p.advanceActivityWindow monoNs activeNow).pacing = p.pacing := rfl

/-- An active snapshot is an interaction if the last one is long enough ago. -/
theorem pacing_noteSnapshotInteraction (ts : TimestampPair) (snapshotIntervalMs : Int)
    (activeNow : Bool) (p : PeerStats) :
    (p.noteSnapshotInteraction ts snapshotIntervalMs activeNow).pacing =
      if activeNow && snapshotInteractionDue p.pacing.lastInteractionMonoNs snapshotIntervalMs
          ts.monoNs then p.pacing.interact ts.monoNs
      else p.pacing := by
  simp only [noteSnapshotInteraction]
  split
  · next h => exact (if_pos h).symm
  · next h => exact (if_neg h).symm

theorem pacing_updateFromSnapshot {A : Type} (peer : PeerInfo A) (ts : TimestampPair)
    (snapshotIntervalMs : Int) (p : PeerStats) :
    (p.updateFromSnapshot peer ts snapshotIntervalMs).pacing =
      if snapshotActive peer snapshotIntervalMs &&
          snapshotInteractionDue p.pacing.lastInteractionMonoNs snapshotIntervalMs ts.monoNs then
        p.pacing.interact ts.monoNs
      else p.pacing := by
  have hlast : ∀ q : PeerStats, q.pacing = p.pacing →
      (q.noteSnapshotInteraction ts snapshotIntervalMs
        (snapshotActive peer snapshotIntervalMs)).pacing =
      if snapshotActive peer snapshotIntervalMs &&
          snapshotInteractionDue p.pacing.lastInteractionMonoNs snapshotIntervalMs ts.monoNs then
        p.pacing.interact ts.monoNs
      else p.pacing := by
    intro q hq
    rw [pacing_noteSnapshotInteraction, hq]
  exact hlast _ (by simp)

end PeerStats

section Operations

variable {A : Type}

namespace RecordOp

/-- The time at which the operation is an event of the given kind. -/
def eventTime? (kind : CounterKind) : RecordOp A → Option Int
  | .call ts c => if c.kind = kind then some ts.monoNs else none
  | _ => none

/-- The time at which the operation is an interaction, given the time of the last one. -/
def interaction? (last : Option Int) : RecordOp A → Option Int
  | .call ts _ => some ts.monoNs
  | .snapshot peer ts snapshotIntervalMs =>
      if PeerStats.snapshotActive peer snapshotIntervalMs &&
          PeerStats.snapshotInteractionDue last snapshotIntervalMs ts.monoNs then some ts.monoNs
      else none
  | _ => none

/-- The time of the connection after the operation. -/
def connectTime (connectedMonoNs : Int) : RecordOp A → Int
  | .connect ts _ _ _ => if connectedMonoNs = 0 then ts.monoNs else connectedMonoNs
  | _ => connectedMonoNs

theorem connectedMonoNs_pacing_apply (op : RecordOp A) (p : PeerStats) :
    (op.apply p).pacing.connectedMonoNs = op.connectTime p.pacing.connectedMonoNs := by
  cases op with
  | connect ts direction transport fromConnectAlert =>
      have hconnect := PeerStats.pacing_noteConnect ts direction transport fromConnectAlert p
      exact congrArg Pacing.connectedMonoNs hconnect
  | disconnect ts => exact congrArg Pacing.connectedMonoNs (p.pacing_noteDisconnect ts)
  | call ts c =>
      have hcall := congrArg Pacing.connectedMonoNs (p.pacing_call ts c)
      cases c <;> exact hcall
  | snapshot peer ts snapshotIntervalMs =>
      have hsnapshot := congrArg Pacing.connectedMonoNs
        (p.pacing_updateFromSnapshot peer ts snapshotIntervalMs)
      rw [apply, hsnapshot]
      split <;> rfl
  | finalize sessionEnd => exact congrArg Pacing.connectedMonoNs (p.pacing_finalize sessionEnd)
  | _ => rfl

/-- An operation adds an event to a family if it is of its kind. -/
theorem pace_apply (op : RecordOp A) (p : PeerStats) (family : PaceFamily) :
    (op.apply p).pacing.pace family =
      (op.eventTime? family.kind).elim (p.pacing.pace family) fun t =>
        (p.pacing.pace family).note p.connectedMonoNs t := by
  cases op with
  | connect ts direction transport fromConnectAlert =>
      have hconnect := PeerStats.pacing_noteConnect ts direction transport fromConnectAlert p
      rw [apply, hconnect]
      cases family <;> rfl
  | disconnect ts =>
      rw [apply, p.pacing_noteDisconnect ts]
      rfl
  | call ts c =>
      rw [apply, p.pacing_call ts c]
      cases c <;> cases family <;> rfl
  | snapshot peer ts snapshotIntervalMs =>
      rw [apply, p.pacing_updateFromSnapshot peer ts snapshotIntervalMs]
      split <;> cases family <;> rfl
  | finalize sessionEnd =>
      rw [apply, p.pacing_finalize sessionEnd]
      rfl
  | _ => rfl

/-- An operation that is an interaction is compared with the last one. -/
theorem interactions_apply (op : RecordOp A) (p : PeerStats) :
    (op.apply p).interactionGapMsSamples = p.interactionGapMsSamples ++
        ((op.interaction? p.lastInteractionMonoNs).elim [] fun t =>
          PeerStats.gapSample (p.lastInteractionMonoNs.filter fun last => decide (last < t)) t) ∧
      (op.apply p).lastInteractionMonoNs =
        (op.interaction? p.lastInteractionMonoNs).or p.lastInteractionMonoNs := by
  have hkeep : ∀ q : PeerStats, q.pacing = p.pacing →
      q.interactionGapMsSamples = p.interactionGapMsSamples ++ [] ∧
        q.lastInteractionMonoNs = p.lastInteractionMonoNs := by
    intro q hq
    rw [List.append_nil]
    exact ⟨congrArg Pacing.interactionGapMsSamples hq, congrArg Pacing.lastInteractionMonoNs hq⟩
  cases op with
  | connect ts direction transport fromConnectAlert =>
      have hconnect := PeerStats.pacing_noteConnect ts direction transport fromConnectAlert p
      have hgaps := congrArg Pacing.interactionGapMsSamples hconnect
      have hlast := congrArg Pacing.lastInteractionMonoNs hconnect
      refine ⟨?_, hlast⟩
      rw [interaction?, Option.elim_none, List.append_nil]
      · exact hgaps
      · exact fun ts c hop => by cases hop
      · exact fun peer ts snapshotIntervalMs hop => by cases hop
  | disconnect ts => exact hkeep _ (p.pacing_noteDisconnect ts)
  | call ts c =>
      have hcall := p.pacing_call ts c
      have hgaps := congrArg Pacing.interactionGapMsSamples hcall
      have hlast := congrArg Pacing.lastInteractionMonoNs hcall
      cases c <;> exact ⟨hgaps, hlast⟩
  | snapshot peer ts snapshotIntervalMs =>
      have hsnapshot := p.pacing_updateFromSnapshot peer ts snapshotIntervalMs
      simp only [interaction?]
      by_cases hdue : (PeerStats.snapshotActive peer snapshotIntervalMs &&
          PeerStats.snapshotInteractionDue p.lastInteractionMonoNs snapshotIntervalMs
            ts.monoNs) = true
      · have hinteract := hsnapshot.trans (if_pos hdue)
        rw [if_pos hdue]
        exact ⟨congrArg Pacing.interactionGapMsSamples hinteract,
          congrArg Pacing.lastInteractionMonoNs hinteract⟩
      · have hnone := hsnapshot.trans (if_neg hdue)
        rw [if_neg hdue]
        exact hkeep _ hnone
  | finalize sessionEnd => exact hkeep _ (p.pacing_finalize sessionEnd)
  | _ => exact hkeep _ rfl

end RecordOp

/-- The times of the events of one kind. -/
def eventTimes (kind : CounterKind) (ops : List (RecordOp A)) : List Int :=
  ops.filterMap (RecordOp.eventTime? kind)

/-- The times of the interactions of a record that starts with none. -/
def interactionTimes (ops : List (RecordOp A)) : List Int :=
  ops.foldl (fun times op => times ++ (op.interaction? times.getLast?).toList) []

theorem eventTimes_concat (kind : CounterKind) (ops : List (RecordOp A)) (op : RecordOp A) :
    eventTimes kind (ops ++ [op]) = eventTimes kind ops ++ (op.eventTime? kind).toList := by
  rw [eventTimes, List.filterMap_append]
  cases h : op.eventTime? kind with
  | none => rw [List.filterMap_cons_none h]; rfl
  | some t => rw [List.filterMap_cons_some h]; rfl

theorem interactionTimes_concat (ops : List (RecordOp A)) (op : RecordOp A) :
    interactionTimes (ops ++ [op]) =
      interactionTimes ops ++ (op.interaction? (interactionTimes ops).getLast?).toList := by
  rw [interactionTimes, List.foldl_append]
  rfl

/-- The number of events of a kind is the number of their times. -/
theorem counter_run_eventTimes (p : PeerStats) (ops : List (RecordOp A)) (kind : CounterKind) :
    (p.run ops).counter kind = p.counter kind + (eventTimes kind ops).length := by
  induction ops using List.reverseRecOn with
  | nil => rfl
  | append_singleton ops op ih =>
      have hkind : (if op.kind? = some kind then 1 else 0) =
          (op.eventTime? kind).toList.length := by
        cases op with
        | call ts c =>
            simp only [RecordOp.kind?, RecordOp.eventTime?, Option.some.injEq]
            split <;> rfl
        | _ => rfl
      have hop := op.counter_apply (p.run ops) kind
      rw [PeerStats.run_append, eventTimes_concat, List.length_append, ← Nat.add_assoc, ← ih,
        ← hkind]
      exact hop

/-- A time of the connection that is set is not changed. -/
theorem connectedMonoNs_run (p : PeerStats) (hconnected : p.connectedMonoNs ≠ 0)
    (ops : List (RecordOp A)) : (p.run ops).connectedMonoNs = p.connectedMonoNs := by
  induction ops using List.reverseRecOn with
  | nil => rfl
  | append_singleton ops op ih =>
      have hop := op.connectedMonoNs_pacing_apply (p.run ops)
      have hsame : op.connectTime (p.run ops).connectedMonoNs = (p.run ops).connectedMonoNs := by
        cases op with
        | connect ts direction transport fromConnectAlert =>
            exact if_neg (by rw [ih]; exact hconnected)
        | _ => rfl
      rw [PeerStats.run_append]
      exact (hop.trans hsame).trans ih

end Operations

/-! ### The samples are the gaps -/

/-- The samples of a family whose events came at the given times. -/
structure Pace.Follows (pace : Pace) (connectedMonoNs : Int) (times : List Int) : Prop where
  last : pace.lastMonoNs = times.getLast?
  first : pace.firstDelayMs = times.head?.map fun t => nsToMs (t - connectedMonoNs)
  gaps : pace.gapMsSamples = adjacent (fun t t' => nsToMs (t' - t)) times

theorem Pace.Follows.note {pace : Pace} {connectedMonoNs : Int} {times : List Int}
    (h : pace.Follows connectedMonoNs times) (hconnected : connectedMonoNs ≠ 0) (t : Int) :
    (pace.note connectedMonoNs t).Follows connectedMonoNs (times ++ [t]) where
  last := by rw [List.getLast?_concat, Pace.note]
  first := by
    rw [Pace.note, h.last, h.first]
    cases times with
    | nil => simp [PeerStats.firstDelay, hconnected]
    | cons t' times =>
        rw [List.getLast?_eq_getLast_of_ne_nil (List.cons_ne_nil t' times)]
        rfl
  gaps := by
    rw [Pace.note, h.gaps, h.last, adjacent_concat, PeerStats.gapSample_eq]

/-- What is said about the samples of a family: the delay of its first event, the gaps
between its events and their number. -/
structure Telescopes (connectedMonoNs : Int) (times : List Int) (firstDelayMs : Option ℚ)
    (gapMsSamples : List ℚ) (count : ℕ) : Prop where
  absent : firstDelayMs = none ↔ times = []
  first : ∀ t, times.head? = some t → firstDelayMs = some (nsToMs (t - connectedMonoNs))
  gaps : gapMsSamples = adjacent (fun t t' => nsToMs (t' - t)) times
  count : count = times.length
  total : ∀ t delay, times.getLast? = some t → firstDelayMs = some delay →
    delay + gapMsSamples.sum = nsToMs (t - connectedMonoNs)

theorem sum_adjacent_nsToMs (times : List Int) :
    (adjacent (fun t t' => nsToMs (t' - t)) times).sum = extent nsToMs 0 times := by
  simp only [nsToMs_sub]
  exact sum_adjacent_sub nsToMs 0 times

theorem Pace.Follows.telescopes {pace : Pace} {connectedMonoNs : Int} {times : List Int}
    (h : pace.Follows connectedMonoNs times) :
    Telescopes connectedMonoNs times pace.firstDelayMs pace.gapMsSamples times.length where
  absent := by
    rw [h.first, Option.map_eq_none_iff, List.head?_eq_none_iff]
  first t ht := by rw [h.first, ht, Option.map_some]
  gaps := h.gaps
  count := rfl
  total t delay ht hdelay := by
    obtain ⟨first, hfirst, rfl⟩ := Option.map_eq_some_iff.mp (h.first.symm.trans hdelay)
    rw [h.gaps, sum_adjacent_nsToMs, extent, List.getLastD_eq_getLast?, ht,
      List.headD_eq_head?_getD, hfirst, nsToMs_sub, nsToMs_sub, Option.getD_some,
      Option.getD_some]
    ring

/-- The interactions came at the given times; only the gaps between different times are
sampled. -/
structure Interacts (p : PeerStats) (times : List Int) : Prop where
  last : p.lastInteractionMonoNs = times.getLast?
  gaps : p.interactionGapMsSamples =
    (adjacent (fun t t' => nsToMs (t' - t)) times).filter fun gap => decide (0 < gap)

theorem nsToMs_pos {ns : Int} : 0 < nsToMs ns ↔ 0 < ns := by
  rw [nsToMs, div_pos_iff_of_pos_right (by norm_num), Int.cast_pos]

theorem nsToMs_nonneg {ns : Int} (h : 0 ≤ ns) : 0 ≤ nsToMs ns := by
  have hcast : (0 : ℚ) ≤ (ns : ℚ) := by exact_mod_cast h
  exact div_nonneg hcast (by norm_num)

section Records

variable {A : Type}

theorem Interacts.apply {p : PeerStats} {times : List Int} (h : Interacts p times)
    (op : RecordOp A) :
    Interacts (op.apply p) (times ++ (op.interaction? times.getLast?).toList) := by
  obtain ⟨hgaps, hlast⟩ := op.interactions_apply p
  rw [h.last] at hgaps hlast
  cases hinteraction : op.interaction? times.getLast? with
  | none =>
      rw [hinteraction, Option.elim_none, List.append_nil] at hgaps
      rw [hinteraction, Option.none_or] at hlast
      rw [Option.toList_none, List.append_nil]
      exact ⟨hlast, hgaps.trans h.gaps⟩
  | some t =>
      rw [hinteraction, Option.elim_some] at hgaps
      rw [hinteraction, Option.some_or] at hlast
      rw [Option.toList_some]
      refine ⟨by rw [List.getLast?_concat, hlast], ?_⟩
      rw [hgaps, h.gaps, adjacent_concat, List.filter_append]
      congr 1
      cases times.getLast? with
      | none => rfl
      | some last =>
          have hpos : decide (0 < nsToMs (t - last)) = decide (last < t) := by
            simp only [nsToMs_pos, sub_pos]
          cases hlt : decide (last < t) with
          | true => simp [PeerStats.gapSample, Option.filter, hlt, hpos]
          | false => simp [PeerStats.gapSample, Option.filter, hlt, hpos]

theorem Interacts.run {p : PeerStats} (h : Interacts p []) (ops : List (RecordOp A)) :
    Interacts (p.run ops) (interactionTimes ops) := by
  induction ops using List.reverseRecOn with
  | nil => exact h
  | append_singleton ops op ih =>
      rw [PeerStats.run_append, interactionTimes_concat]
      exact ih.apply op

theorem Pace.Follows.run {p : PeerStats} {family : PaceFamily}
    (hconnected : p.connectedMonoNs ≠ 0)
    (h : (p.pacing.pace family).Follows p.connectedMonoNs []) (ops : List (RecordOp A)) :
    ((p.run ops).pacing.pace family).Follows p.connectedMonoNs
      (eventTimes family.kind ops) := by
  induction ops using List.reverseRecOn with
  | nil => exact h
  | append_singleton ops op ih =>
      have hpace := op.pace_apply (p.run ops) family
      have hrun : p.run (ops ++ [op]) = op.apply (p.run ops) := PeerStats.run_append _ _ _
      rw [connectedMonoNs_run p hconnected] at hpace
      rw [hrun, eventTimes_concat, hpace]
      cases op.eventTime? family.kind with
      | none =>
          rw [Option.elim_none, Option.toList_none, List.append_nil]
          exact ih
      | some t => exact ih.note hconnected t

/-- The interactions come at times of operations. -/
theorem interactionTimes_sublist (ops : List (RecordOp A)) :
    (interactionTimes ops).Sublist (ops.filterMap RecordOp.time?) := by
  induction ops using List.reverseRecOn with
  | nil => exact List.Sublist.refl _
  | append_singleton ops op ih =>
      rw [interactionTimes_concat, List.filterMap_append]
      apply ih.append
      generalize (interactionTimes ops).getLast? = last
      cases op with
      | call ts c => exact List.Sublist.refl _
      | snapshot peer ts snapshotIntervalMs =>
          simp only [RecordOp.interaction?]
          split
          · exact List.Sublist.refl _
          · exact List.nil_sublist _
      | _ => exact List.nil_sublist _

/-- Without negative gaps the sampled ones add up to the whole. -/
theorem sum_filter_pos {gaps : List ℚ} (h : ∀ gap ∈ gaps, 0 ≤ gap) :
    (gaps.filter fun gap => decide (0 < gap)).sum = gaps.sum := by
  induction gaps with
  | nil => rfl
  | cons gap gaps ih =>
      rw [List.forall_mem_cons] at h
      have hrest := ih h.2
      rcases h.1.lt_or_eq with hpos | hzero
      · rw [List.filter_cons_of_pos (by simpa using hpos), List.sum_cons, List.sum_cons, hrest]
      · rw [List.filter_cons_of_neg (by simp [← hzero]), List.sum_cons, hrest, ← hzero, zero_add]

/-- What is said about the interactions: all sampled gaps are positive, and they add up to
the time from the first interaction to the last. -/
structure InteractionsTelescope (p : PeerStats) (times : List Int) : Prop where
  last : p.lastInteractionMonoNs = times.getLast?
  positive : ∀ gap ∈ p.interactionGapMsSamples, 0 < gap
  total : ∀ first last, times.head? = some first → times.getLast? = some last →
    p.interactionGapMsSamples.sum = nsToMs (last - first)

theorem Interacts.telescope {p : PeerStats} {times : List Int} (h : Interacts p times)
    (horder : times.Pairwise (· ≤ ·)) : InteractionsTelescope p times where
  last := h.last
  positive gap hgap := by
    rw [h.gaps, List.mem_filter] at hgap
    exact of_decide_eq_true hgap.2
  total first last hfirst hlast := by
    have hnonneg : ∀ gap ∈ adjacent (fun t t' => nsToMs (t' - t)) times, 0 ≤ gap :=
      forall_adjacent (fun t t' => nsToMs (t' - t))
        (fun t t' hle => nsToMs_nonneg (sub_nonneg.mpr hle)) horder
    rw [h.gaps, sum_filter_pos hnonneg, sum_adjacent_nsToMs, extent, List.getLastD_eq_getLast?,
      hlast, List.headD_eq_head?_getD, hfirst, nsToMs_sub]
    rfl

/-- The samples of a record whose operations are in order. -/
structure PacingTelescopes (t : RecordTrace A) (p : PeerStats) : Prop where
  /-- The time of the connection is the time of the creation at every moment. -/
  connected : ∀ before, before <+: t.ops →
    (t.created.run before).connectedMonoNs = p.connectedMonoNs
  requests : Telescopes p.connectedMonoNs (eventTimes .requestSent t.ops)
    p.firstRequestDelayMs p.requestGapMsSamples p.requestsSent
  incomingRequests : Telescopes p.connectedMonoNs (eventTimes .incomingRequest t.ops)
    p.firstIncomingRequestDelayMs p.incomingRequestGapMsSamples p.incomingRequestsReceived
  blockUploads : Telescopes p.connectedMonoNs (eventTimes .blockUploaded t.ops)
    p.firstBlockUploadDelayMs p.blockUploadGapMsSamples p.blocksUploaded
  interactions : InteractionsTelescope p (interactionTimes t.ops)

/-- A record with no samples and no counted events yet. -/
structure IsUnpaced (p : PeerStats) : Prop where
  pacing : p.pacing = ⟨p.connectedMonoNs, ⟨[], none, none⟩, ⟨[], none, none⟩, ⟨[], none, none⟩,
    [], none⟩
  counter : ∀ kind, p.counter kind = 0

theorem PeerOp.isUnpaced_opened [Address A] (op : PeerOp A) (n : ℕ) :
    IsUnpaced (op.opened n) where
  pacing := by cases op <;> rfl
  counter kind := congrFun (congrArg PeerCore.counter (op.core_opened n)) kind

theorem RecordTrace.InOrder.pacingTelescopes {b : Int} {t : RecordTrace A} (h : t.InOrder b)
    (hcreated : IsUnpaced t.created) : PacingTelescopes t t.replay := by
  have hconnected : t.created.connectedMonoNs ≠ 0 := h.positive.ne'
  have htime : t.replay.connectedMonoNs = t.created.connectedMonoNs :=
    connectedMonoNs_run t.created hconnected t.ops
  have hfollows : ∀ family : PaceFamily,
      (t.replay.pacing.pace family).Follows t.replay.connectedMonoNs
        (eventTimes family.kind t.ops) := by
    intro family
    have hempty : (t.created.pacing.pace family).Follows t.created.connectedMonoNs [] := by
      rw [hcreated.pacing]
      cases family <;> exact ⟨rfl, rfl, rfl⟩
    rw [htime]
    exact hempty.run hconnected t.ops
  have hcount : ∀ kind, t.replay.counter kind = (eventTimes kind t.ops).length := by
    intro kind
    have hcounter := counter_run_eventTimes t.created t.ops kind
    rwa [hcreated.counter, Nat.zero_add] at hcounter
  have hinteracts : Interacts t.created [] :=
    ⟨congrArg Pacing.lastInteractionMonoNs hcreated.pacing,
      congrArg Pacing.interactionGapMsSamples hcreated.pacing⟩
  have htelescopes : ∀ family : PaceFamily, Telescopes t.replay.connectedMonoNs
      (eventTimes family.kind t.ops) (t.replay.pacing.pace family).firstDelayMs
      (t.replay.pacing.pace family).gapMsSamples (t.replay.counter family.kind) := by
    intro family
    rw [hcount]
    exact (hfollows family).telescopes
  refine ⟨?_, htelescopes .requestSent, htelescopes .incomingRequest,
    htelescopes .blockUploaded, ?_⟩
  · intro before hbefore
    rw [connectedMonoNs_run t.created hconnected before, htime]
  · apply (hinteracts.run t.ops).telescope
    have hops : (t.ops.filterMap RecordOp.time?).Pairwise (· ≤ ·) :=
      (List.pairwise_cons.mp h.ordered).2
    exact hops.sublist (interactionTimes_sublist t.ops)

end Records

/-- In every session with positive times that do not decrease, the pacing samples of each
record telescope. -/
theorem pacing_run {A : Type} [Address A] (runId sessionId : ByteString)
    (start : TimestampPair) (ops : List (SessionOp A)) (finish : Int)
    (horder : SessionOp.InOrder ops finish) (key : String) (p : PeerStats)
    (hp : ((SessionStats.new runId sessionId start).run ops).peersByKey[key]? = some p) :
    ∃ t, IsTraceOf ops key t ∧ PacingTelescopes t p := by
  obtain ⟨n, t, hkey, ht, hreplay⟩ :=
    (represents_traces runId sessionId start ops).exists_trace hp
  have hcreated : IsUnpaced t.created := by
    apply tracesOf_induction (P := fun t => IsUnpaced t.created) _ _ ht
    · exact fun op n => op.isUnpaced_opened n
    · exact fun t ops h => h
  obtain ⟨hconnected, hrequests, hincoming, huploads, hinteractions⟩ :=
    (inOrder_tracesOf horder ht).pacingTelescopes hcreated
  rw [← hreplay] at hconnected hrequests hincoming huploads hinteractions
  exact ⟨t, ⟨_, n, hkey, ht⟩, hconnected, hrequests, hincoming, huploads,
    ⟨hinteractions.last, hinteractions.positive, hinteractions.total⟩⟩

/-- Two sent requests of a connection, with an alert loss between them. -/
def samplePacedOps : List (SessionOp AddressV4) :=
  [.peer (.connect samplePeer samplePid ⟨"", 1000⟩ "outbound" "tcp"),
    .peer (.event samplePeer samplePid ⟨"", 3000⟩ (some (.requestSent 0 0))),
    .alertLoss 1,
    .peer (.event samplePeer samplePid ⟨"", 8000⟩ (some (.requestSent 0 1)))]

theorem pacing_run_samplePacedOps :
    ∃ p, ((SessionStats.new [] [] {}).run samplePacedOps).peersByKey[
        numberedPeerKey (endpointToString samplePeer) 1]? = some p ∧
      ∃ t, IsTraceOf samplePacedOps (numberedPeerKey (endpointToString samplePeer) 1) t ∧
        PacingTelescopes t p := by
  have hsome : (((SessionStats.new [] [] {}).run samplePacedOps).peersByKey[
      numberedPeerKey (endpointToString samplePeer) 1]?).isSome := by decide +kernel
  obtain ⟨p, hp⟩ := Option.isSome_iff_exists.mp hsome
  exact ⟨p, hp, pacing_run [] [] {} samplePacedOps 9000 ⟨by decide, by decide⟩ _ p hp⟩

end BtClient
