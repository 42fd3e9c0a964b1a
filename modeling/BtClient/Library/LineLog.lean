import Mathlib

/-!
# Logs with one record a line

Records are encoded one to a line. Whoever reads the log decodes every line, also the last one
if it has no end. Of a log that has been cut off anywhere, what is read are the first records:
none is read wrong and none is invented.
-/

universe u v

/-- The lines of a text with their ends. -/
def splitLines {α : Type u} [DecidableEq α] (lineEnd : α) : List α → List (List α)
  | [] => []
  | c :: rest =>
      if c = lineEnd then [c] :: splitLines lineEnd rest
      else match splitLines lineEnd rest with
        | [] => [[c]]
        | line :: more => (c :: line) :: more

section SplitLines

variable {α : Type u} [DecidableEq α] {lineEnd : α} {line : List α}

theorem splitLines_append (h : lineEnd ∉ line) (rest : List α) :
    splitLines lineEnd (line ++ lineEnd :: rest) =
      (line ++ [lineEnd]) :: splitLines lineEnd rest := by
  induction line with
  | nil => rw [List.nil_append, splitLines, if_pos rfl, List.nil_append]
  | cons c line ih =>
      rw [List.mem_cons, not_or] at h
      rw [List.cons_append, splitLines, if_neg (Ne.symm h.1), ih h.2, List.cons_append]

/-- A text without the end of a line is one line, unless it is empty. -/
theorem splitLines_of_notMem (h : lineEnd ∉ line) :
    splitLines lineEnd line = if line = [] then [] else [line] := by
  induction line with
  | nil => rfl
  | cons c line ih =>
      rw [List.mem_cons, not_or] at h
      rw [splitLines, if_neg (Ne.symm h.1), ih h.2, if_neg (List.cons_ne_nil c line)]
      cases line with
      | nil => rfl
      | cons d line => rw [if_neg (List.cons_ne_nil d line)]

end SplitLines

/-- How records stand in lines. A line that has been cut off decodes to nothing or, when only
its end is missing, to its record. -/
structure LineCodec {α : Type u} (lineEnd : α) (β : Type v) where
  encode : β → List α
  decode : List α → Option β
  IsRecord : β → Prop
  lineEnd_notMem : ∀ {b}, IsRecord b → lineEnd ∉ encode b
  decode_encode : ∀ {b}, IsRecord b → decode (encode b ++ [lineEnd]) = some b
  eq_of_decode : ∀ {b b' text}, IsRecord b → text <+: encode b → decode text = some b' → b' = b

namespace LineCodec

variable {α : Type u} {lineEnd : α} {β : Type v} (codec : LineCodec lineEnd β)

/-- The text of a log. -/
def write (records : List β) : List α := records.flatMap fun b => codec.encode b ++ [lineEnd]

variable [DecidableEq α]

/-- What is read of a log. -/
def read (text : List α) : List β := (splitLines lineEnd text).filterMap codec.decode

variable {codec} {b : β} {records : List β}

theorem read_append (hb : codec.IsRecord b) (rest : List α) :
    codec.read (codec.encode b ++ [lineEnd] ++ rest) = b :: codec.read rest := by
  rw [List.append_assoc, List.singleton_append, read,
    splitLines_append (codec.lineEnd_notMem hb), List.filterMap_cons_some (codec.decode_encode hb)]
  rfl

/-- A whole log is read back. -/
theorem read_write (h : ∀ b ∈ records, codec.IsRecord b) :
    codec.read (codec.write records) = records := by
  induction records with
  | nil => rfl
  | cons b rest ih =>
      rw [List.forall_mem_cons] at h
      rw [write, List.flatMap_cons, read_append h.1]
      exact congrArg (b :: ·) (ih h.2)

/-- Of a line that has been cut off, at most its record is read. -/
theorem read_isPrefix_of_line (hb : codec.IsRecord b) {text : List α}
    (htext : text <+: codec.encode b) (rest : List β) : codec.read text <+: b :: rest := by
  have hnot : lineEnd ∉ text := fun hmem => codec.lineEnd_notMem hb (htext.subset hmem)
  rw [read, splitLines_of_notMem hnot]
  split
  · exact List.nil_prefix
  · cases hdecode : codec.decode text with
    | none =>
        rw [List.filterMap_cons_none hdecode]
        exact List.nil_prefix
    | some b' =>
        obtain rfl := codec.eq_of_decode hb htext hdecode
        rw [List.filterMap_cons_some hdecode]
        exact List.prefix_append [b'] rest

/-- Of a log that has been cut off, the first records are read. -/
theorem read_isPrefix (h : ∀ b ∈ records, codec.IsRecord b) {text : List α}
    (htext : text <+: codec.write records) : codec.read text <+: records := by
  induction records generalizing text with
  | nil =>
      rw [List.prefix_nil.mp htext]
      exact List.nil_prefix
  | cons b rest ih =>
      rw [List.forall_mem_cons] at h
      rw [write, List.flatMap_cons] at htext
      rcases List.prefix_or_prefix_of_prefix htext (List.prefix_append _ _) with hline | hline
      · rcases List.prefix_concat_iff.mp hline with rfl | hcut
        · have hread := read_append h.1 []
          rw [List.append_nil] at hread
          rw [hread]
          exact List.prefix_append [b] rest
        · exact read_isPrefix_of_line h.1 hcut rest
      · obtain ⟨more, rfl⟩ := hline
        rw [read_append h.1]
        exact List.prefix_cons_inj b |>.mpr (ih h.2 ((List.prefix_append_right_inj _).mp htext))

end LineCodec
