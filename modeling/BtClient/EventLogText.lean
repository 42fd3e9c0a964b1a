import BtClient.Library.LineLog
import BtClient.NoticedFaults
import BtClient.SettledTrees

/-!
# Reading an event log

The event log has one event a line. Wherever a capture is cut short, what is read of its log
are the first events of the session, and all of them when the capture has returned.
-/

namespace BtClient

open Effect FileSystem

/-- What `dump()` and the parser make of the lines of a log. -/
class JsonLines [JsonText] : Prop where
  /-- Control characters are escaped. -/
  newline_notMem_dump : ∀ v : Json, newline ∉ JsonText.dump v
  /-- A line is read back. -/
  parse_dump : ∀ v : Json, v.isUtf8 = true → v.isPlain JsonText.isDouble = true →
    JsonText.parse (JsonText.dump v ++ [newline]) = some v
  /-- Of an object, the first bytes are no other value. -/
  parse_dump_prefix : ∀ (v w : Json) (text : ByteString), v.isUtf8 = true →
    v.isPlain JsonText.isDouble = true → v.isObject = true → text <+: JsonText.dump v →
    JsonText.parse text = some w → w = v

/-! ### Lines without line breaks -/

namespace JsonSyntax

theorem isSpacing_compact : compact.IsSpacing where
  line _ _ hc := absurd hc List.not_mem_nil
  afterColon _ hc := absurd hc List.not_mem_nil

theorem newline_notMem_escape : ∀ c, newline ∉ escape c := by
  decide +kernel

theorem newline_notMem_quoted (s : ByteString) : newline ∉ quoted s := by
  intro hc
  rw [quoted, List.mem_cons, List.mem_append] at hc
  rcases hc with hc | hc | hc
  · cases hc
  · obtain ⟨c, -, hc⟩ := List.mem_flatMap.mp hc
    exact newline_notMem_escape c hc
  · exact absurd hc (by decide)

theorem newline_notMem_printNat (n : ℕ) : newline ∉ printNat n := fun hc =>
  absurd ((printNat_spec n).2.1 newline hc) (by decide)

mutual

theorem newline_notMem_print (depth : ℕ) : ∀ v : Json, newline ∉ print compact depth v
  | .null => by rw [print]; decide
  | .bool true => by rw [print]; decide
  | .bool false => by rw [print]; decide
  | .integer (.ofNat n) => newline_notMem_printNat n
  | .integer (.negSucc n) => by
      rw [print, printInt, List.mem_cons, not_or]
      exact ⟨by decide, newline_notMem_printNat (n + 1)⟩
  | .real _ => by rw [print]; decide
  | .string s => newline_notMem_quoted s
  | .array [] => by rw [print]; decide
  | .array (v :: rest) => by
      have hv := newline_notMem_print (depth + 1) v
      have hrest := newline_notMem_printItems (depth + 1) rest
      rw [print]
      simp only [List.mem_cons, List.mem_append, not_or]
      exact ⟨by decide, by simp [compact], hv, hrest, by simp [compact], by decide⟩
  | .object [] => by rw [print]; decide
  | .object ((k, v) :: rest) => by
      have hv := newline_notMem_print (depth + 1) v
      have hrest := newline_notMem_printMembers (depth + 1) rest
      rw [print]
      simp only [List.mem_cons, List.mem_append, not_or]
      exact ⟨by decide, by simp [compact], newline_notMem_quoted _, by decide, by simp [compact],
        hv, hrest, by simp [compact], by decide⟩

theorem newline_notMem_printItems (depth : ℕ) :
    ∀ items : List Json, newline ∉ printItems compact depth items
  | [] => by rw [printItems]; decide
  | v :: rest => by
      have hv := newline_notMem_print depth v
      have hrest := newline_notMem_printItems depth rest
      rw [printItems]
      simp only [List.mem_cons, List.mem_append, not_or]
      exact ⟨by decide, by simp [compact], hv, hrest⟩

theorem newline_notMem_printMembers (depth : ℕ) :
    ∀ members : Json.Members, newline ∉ printMembers compact depth members
  | [] => by rw [printMembers]; decide
  | (k, v) :: rest => by
      have hv := newline_notMem_print depth v
      have hrest := newline_notMem_printMembers depth rest
      rw [printMembers]
      simp only [List.mem_cons, List.mem_append, not_or]
      exact ⟨by decide, by simp [compact], newline_notMem_quoted _, by decide, by simp [compact],
        hv, hrest⟩

end

instance : JsonLines where
  newline_notMem_dump := newline_notMem_print 0
  parse_dump v hutf8 hplain := by
    refine parse_eq_some_iff.mpr ⟨?_, hutf8, hplain⟩
    change (run start (print compact 0 v ++ [newline])).result = some v
    rw [run_start_print isSpacing_compact hplain (c := newline) (by decide) []]
    rfl
  parse_dump_prefix v w text _ hplain hobject htext h := by
    cases v with
    | object members =>
        exact eq_of_result isSpacing_compact hplain (htext.trans (List.prefix_append _ _))
          (parse_eq_some_iff.mp h).1
    | _ => cases hobject

end JsonSyntax

/-! ### The reader of a log -/

section Reader

variable [JsonText] [JsonLines]

/-- Events in lines. -/
def eventCodec : LineCodec newline Json where
  encode := JsonText.dump
  decode := JsonText.parse
  IsRecord v := v.isUtf8 = true ∧ v.isPlain JsonText.isDouble = true ∧ v.isObject = true
  lineEnd_notMem {v} _ := JsonLines.newline_notMem_dump v
  decode_encode {v} h := JsonLines.parse_dump v h.1 h.2.1
  eq_of_decode {v w text} h := JsonLines.parse_dump_prefix v w text h.1 h.2.1 h.2.2

/-- The events that are read of a log. -/
def readEventLog (content : ByteString) : List Json := eventCodec.read content

end Reader

/-! ### A capture that is cut short -/

section Capture

variable [JsonText] {config : RuntimeConfig} {outputPaths : OutputPaths} {l : Location}
  {done text content : ByteString}

/-- Whatever is in the file is the beginning of the text. -/
def IsCutOf (l : Location) (text : ByteString) (t : Tree) : Prop :=
  ∀ content, t.get? l = some (.file content) → content <+: text

omit [JsonText] in
theorem IsCutOf.of_get? {t : Tree} (h : t.get? l = some (.file content))
    (hcontent : content <+: text) : IsCutOf l text t := by
  intro content' h'
  cases h.symm.trans h'
  exact hcontent

omit [JsonText] in
theorem stable_isCutOf : Stable (IsCutOf l text) :=
  fun _ _ hext h content hget => h content (hext.get?_eq_file.mp hget)

omit [JsonText] in
theorem ignores_isCutOf {k : Location} (hk : l ≠ k) : Ignores k (IsCutOf l text) :=
  fun _ _ hsame _ h content hget => h content (hsame l hk ▸ hget)

omit [JsonText] in
/-- A write adds the first bytes of what is written, and all of them if the stream is good
after it. -/
theorem triple_writeFlushed_at (l : Location) (data : ByteString) :
    Triple (OnTree fun t => t.get? l = some (.file done)) (writeFlushed l data)
      (fun good => OnTree fun t => (good = true → t.get? l = some (.file (done ++ data))) ∧
        IsCutOf l (done ++ data) t)
      (fun _ => OnTree (IsCutOf l (done ++ data))) := by
  rintro ⟨t, faults, clock⟩ hfile
  have hadded : ∀ arrived, (appended t l arrived).get? l = some (.file (done ++ arrived)) := by
    intro arrived
    rw [get?_appended hfile, if_pos rfl]
  have hcut : ∀ reached, IsCutOf l (done ++ data) (appended t l (data.take reached)) :=
    fun reached => .of_get? (hadded _)
      ((List.prefix_append_right_inj done).mpr (List.take_prefix reached data))
  have hall : IsCutOf l (done ++ data) (appended t l data) := .of_get? (hadded _) List.prefix_rfl
  cases faults with
  | nil => exact ⟨fun _ => hadded data, hall⟩
  | cons fault rest =>
      cases fault with
      | none => exact ⟨fun _ => hadded data, hall⟩
      | reported reached => exact ⟨fun hgood => Bool.noConfusion hgood, hcut reached⟩
      | unnoticed reached => exact ⟨fun hgood => Bool.noConfusion hgood, hcut reached⟩
      | crash reached => exact hcut reached

/-- After any number of events, the log holds the beginning of their lines. -/
theorem triple_writeEventLines_isCutOf (events : List Json)
    (hutf8 : ∀ event ∈ events, event.isUtf8 = true) (good : Bool) :
    Triple (OnTree fun t => (good = true → t.get? l = some (.file done)) ∧
        IsCutOf l (done ++ eventText events) t)
      (writeEventLines ⟨l, good⟩ events)
      (fun _ => OnTree (IsCutOf l (done ++ eventText events)))
      (fun _ => OnTree (IsCutOf l (done ++ eventText events))) := by
  induction events generalizing good done with
  | nil => exact Triple.pure fun _ hw => hw.2
  | cons event rest ih =>
      rw [List.forall_mem_cons] at hutf8
      have htext : done ++ eventText (event :: rest) =
          (done ++ (JsonText.dump event ++ [newline])) ++ eventText rest := by
        simp [eventText, eventLine]
      rw [writeEventLines, writeEventLine, bind_assoc, htext]
      unfold dump
      rw [if_pos hutf8.1]
      apply Triple.pure_bind
      cases good with
      | false =>
          exact (ih hutf8.2 false).conseq (fun _ hw => ⟨fun hgood => Bool.noConfusion hgood, hw.2⟩)
            (fun _ _ h => h) fun _ _ h => h
      | true =>
          have hmore : ∀ {t : Tree}, IsCutOf l (done ++ (JsonText.dump event ++ [newline])) t →
              IsCutOf l ((done ++ (JsonText.dump event ++ [newline])) ++ eventText rest) t :=
            fun h content hget => (h content hget).trans (List.prefix_append _ _)
          rw [if_pos rfl, bind_assoc]
          refine Triple.bind ((triple_writeFlushed_at l _).conseq (fun _ h => h.1 rfl)
            (fun _ _ h => h) fun _ _ h => hmore h) fun good => ?_
          apply Triple.pure_bind
          exact (ih hutf8.2 good).conseq (fun _ hw => ⟨hw.1, hmore hw.2⟩) (fun _ _ h => h)
            fun _ _ h => h

omit [JsonText] in
/-- The log is empty when it has been opened, and what it was when it has not. -/
theorem triple_openEventLog_isCutOf :
    Triple (OnTree (IsCutOf outputPaths.eventLogPath.locate text)) (openEventLog outputPaths)
      (fun stream w => OnTree (fun t =>
        t.get? outputPaths.eventLogPath.locate = some (.file [])) w ∧
          stream = ⟨outputPaths.eventLogPath.locate, true⟩)
      (fun _ => OnTree (IsCutOf outputPaths.eventLogPath.locate text)) := by
  apply triple_onTree
  intro t hcut
  refine Triple.bind ((triple_openTruncated t outputPaths.eventLogPath).conseq (fun _ h => h)
    (fun _ _ h => h) fun _ _ h => onTree_of_eq h hcut) fun opened => ?_
  cases opened with
  | none => exact Triple.throw fun _ hw => onTree_of_eq hw hcut
  | some l =>
      apply Triple.pure
      rintro w ⟨rfl, -, hwritable, htree⟩
      refine ⟨?_, rfl⟩
      rw [OnTree, htree, FileTree.get?_put, if_pos rfl]

/-- Wherever a capture is cut short, its log is the beginning of its lines. -/
theorem keeps_captureOutcome_isCutOf (hseparate : outputPaths.AreSeparate)
    {outcome : SessionOutcome} (hutf8 : ∀ event ∈ outcome.events, event.isUtf8 = true) :
    Keeps (OnTree (IsCutOf outputPaths.eventLogPath.locate (eventText outcome.events)))
      (captureOutcome config outputPaths outcome) := by
  have hwrite : ∀ state, Keeps (OnTree (IsCutOf outputPaths.eventLogPath.locate
      (eventText outcome.events))) (writeArtifactState config outputPaths state) := fun state =>
    keeps_rewriteState_of_stable stable_isCutOf (ignores_isCutOf hseparate.state_ne_eventLog.symm)
      config state _
  apply Keeps.bind (hwrite .capturing)
  intro _
  refine Triple.bind triple_openEventLog_isCutOf fun stream => ?_
  apply Triple.of_pre
  rintro rfl
  have hnil : eventText outcome.events = [] ++ eventText outcome.events := rfl
  refine Triple.bind (S := fun _ => OnTree (IsCutOf outputPaths.eventLogPath.locate
    (eventText outcome.events))) ?_ fun stream => ?_
  · rw [hnil]
    exact (triple_writeEventLines_isCutOf outcome.events hutf8 true).conseq
      (fun _ hw => ⟨fun _ => hw, .of_get? hw List.nil_prefix⟩) (fun _ _ h => h) fun _ _ h => h
  split
  · exact Keeps.throw _
  · apply Keeps.bind ((readsOnly_closeEventLog stream).keeps _)
    intro _
    apply Keeps.bind (keeps_writeSessionSummary (ignores_isCutOf hseparate.eventLog_ne_summary) _)
    exact fun _ => hwrite .readyToUpload

theorem keeps_finishSummary_of_ignores {I : Tree → Prop}
    (hI : Ignores outputPaths.summaryJsonPath.locate I) {opened : Option Location}
    (hopened : ∀ l, opened = some l → l = outputPaths.summaryJsonPath.locate) (summary : Json) :
    Keeps (OnTree I) (finishSummary outputPaths summary opened) := by
  cases opened with
  | none => exact Keeps.throw _
  | some l =>
      obtain rfl := hopened l rfl
      apply Keeps.bind ((readsOnly_dump summary).keeps I)
      intro text
      apply Keeps.bind (keeps_writeBuffered hI _)
      intro good
      split
      · exact Keeps.pure _
      · exact Keeps.throw _

/-- A capture that returns has a complete log. -/
theorem triple_captureOutcome_hasFile (hseparate : outputPaths.AreSeparate)
    {outcome : SessionOutcome} :
    Triple (fun _ => True) (captureOutcome config outputPaths outcome)
      (fun _ => OnTree (HasFile outputPaths.eventLogPath (eventText outcome.events)))
      (fun _ _ => True) := by
  cases hending : outcome.ending with
  | error failure => exact triple_captureOutcome_of_error hending _
  | ok summary =>
      rw [captureOutcome_of_ok hending, captureInto_eq]
      refine Triple.bind (triple_openSummary hseparate.eventLog_ne_summary) fun opened => ?_
      apply triple_onTree
      rintro t ⟨hfile, hopened⟩
      have hfinish : Keeps (OnTree (HasFile outputPaths.eventLogPath (eventText outcome.events)))
          (finishSummary outputPaths summary opened) :=
        keeps_finishSummary_of_ignores (ignores_hasFile hseparate.eventLog_ne_summary)
          (fun l hl => (hopened l hl).1) summary
      have hready : Keeps (OnTree (HasFile outputPaths.eventLogPath (eventText outcome.events)))
          (writeArtifactState config outputPaths .readyToUpload) :=
        keeps_rewriteState_of_stable stable_hasFile
          (ignores_hasFile hseparate.state_ne_eventLog.symm) config .readyToUpload _
      exact (hfinish.bind fun _ => hready).conseq (fun w hw => onTree_of_eq hw hfile)
        (fun _ _ h => h) fun _ _ _ => True.intro

end Capture

section Reading

variable [JsonText] [JsonLines] {config : RuntimeConfig} {outputPaths : OutputPaths}
  {outcome : SessionOutcome}

/-- Wherever a capture is cut short, the first events are read of its log; when it has
returned, all of them are. -/
theorem readEventLog_captureOutcome (hseparate : outputPaths.AreSeparate)
    (hevents : ∀ event ∈ outcome.events, eventCodec.IsRecord event) {w w' : World}
    {result : Except Stop Unit} (hnew : LacksFileAt outputPaths.eventLogPath.locate w.tree)
    (hrun : captureOutcome config outputPaths outcome w = (result, w')) :
    (∀ content, w'.tree.get? outputPaths.eventLogPath.locate = some (.file content) →
        readEventLog content <+: outcome.events) ∧
      (result = .ok () → ∃ content, HasFile outputPaths.eventLogPath content w'.tree ∧
        readEventLog content = outcome.events) := by
  have hutf8 : ∀ event ∈ outcome.events, event.isUtf8 = true := fun event he => (hevents event he).1
  have hkeeps : Keeps (OnTree (IsCutOf outputPaths.eventLogPath.locate (eventText outcome.events)))
      (captureOutcome config outputPaths outcome) := keeps_captureOutcome_isCutOf hseparate hutf8
  have hcut := hkeeps.final (s := w) fun content hget => absurd hget (hnew content)
  rw [hrun] at hcut
  refine ⟨fun content hget => LineCodec.read_isPrefix hevents (hcut content hget), ?_⟩
  rintro rfl
  exact ⟨eventText outcome.events, (triple_captureOutcome_hasFile hseparate).apply_ok
    True.intro hrun, LineCodec.read_write hevents⟩

end Reading

section Sample

def twoEvents : SessionOutcome := ⟨[finishedEvent, finishedEvent], .ok (.object [])⟩

/-- A world in which the process is gone while it writes the second event. -/
def tornWorld : World :=
  { (preparedVictim []).2 with faults := List.replicate 6 .none ++ [.crash 5] }

def tornCapture : Except Stop Unit × World :=
  captureOutcome victimRequest.config victimPaths twoEvents tornWorld

theorem readEventLog_tornCapture :
    (∀ content, tornCapture.2.tree.get? victimPaths.eventLogPath.locate = some (.file content) →
        readEventLog content <+: twoEvents.events) ∧
      (tornCapture.1 = .ok () → ∃ content, HasFile victimPaths.eventLogPath content
        tornCapture.2.tree ∧ readEventLog content = twoEvents.events) := by
  have hevents : ∀ event ∈ twoEvents.events, eventCodec.IsRecord event := by
    intro event he
    obtain rfl : event = finishedEvent := by simpa [twoEvents] using he
    exact ⟨by decide, by decide, rfl⟩
  have hnew : LacksFileAt victimPaths.eventLogPath.locate tornWorld.tree :=
    lacksFileAt_of_get? (by decide +kernel)
  have hrun : captureOutcome victimRequest.config victimPaths twoEvents tornWorld =
      (tornCapture.1, tornCapture.2) := Prod.mk.eta.symm
  exact readEventLog_captureOutcome areSeparate_victimPaths hevents hnew hrun

end Sample

end BtClient
