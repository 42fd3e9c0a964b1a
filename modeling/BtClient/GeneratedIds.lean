import BtClient.ArchivePath
import BtClient.Main

/-!
# Generated ids

An id from `generate_id` is the name of a directory, and two ids are the same only for the
same second, the same process and the same nanoseconds modulo a million.
-/

namespace BtClient

open JsonSyntax

/-! ### The bytes of an id -/

section Bytes

variable {n : ℕ} {t : UtcTime} {c : UInt8}

theorem isDigit_of_mem_twoDigits (hn : n < 100) (hc : c ∈ twoDigits n) : isDigit c = true := by
  rw [twoDigits, List.mem_cons, List.mem_singleton] at hc
  rcases hc with rfl | rfl
  · exact isDigit_digit (by omega)
  · exact isDigit_digit (by omega)

theorem twoDigits_injective {m : ℕ} (hm : m < 100) (hn : n < 100)
    (h : twoDigits m = twoDigits n) : m = n := by
  have hdigit : ∀ d < 10, ∀ e < 10, digit d = digit e → d = e := by decide
  rw [twoDigits, twoDigits, List.cons.injEq, List.singleton_inj] at h
  have htens := hdigit (m / 10) (by omega) (n / 10) (by omega) h.1
  have hones := hdigit (m % 10) (by omega) (n % 10) (by omega) h.2
  omega

/-- A stamp consists of digits, a `T` and a `Z`. -/
theorem mem_compactUtcStamp (hc : c ∈ compactUtcStamp t) :
    isDigit c = true ∨ c = 84 ∨ c = 90 := by
  have hmonth : t.month < 100 := t.month_le.trans_lt (by decide)
  have hday : t.day < 100 := t.day_le.trans_lt (by decide)
  have hhour : t.hour < 100 := t.hour_lt.trans (by decide)
  have hminute : t.minute < 100 := t.minute_lt.trans (by decide)
  have hsecond : t.second < 100 := t.second_le.trans_lt (by decide)
  have hT : ∀ d, d ∈ ByteString.ofString "T" → d = 84 := by decide +kernel
  have hZ : ∀ d, d ∈ ByteString.ofString "Z" → d = 90 := by decide +kernel
  simp only [compactUtcStamp, List.mem_append] at hc
  rcases hc with hc | hc | hc | hc | hc | hc | hc | hc
  · exact Or.inl ((printNat_spec t.year).2.1 c hc)
  · exact Or.inl (isDigit_of_mem_twoDigits hmonth hc)
  · exact Or.inl (isDigit_of_mem_twoDigits hday hc)
  · exact Or.inr (Or.inl (hT c hc))
  · exact Or.inl (isDigit_of_mem_twoDigits hhour hc)
  · exact Or.inl (isDigit_of_mem_twoDigits hminute hc)
  · exact Or.inl (isDigit_of_mem_twoDigits hsecond hc)
  · exact Or.inr (Or.inr (hZ c hc))

theorem mem_printInt {i : Int} (hc : c ∈ printInt i) : isDigit c = true ∨ c = minus := by
  cases i with
  | ofNat n => exact Or.inl ((printNat_spec n).2.1 c hc)
  | negSucc n =>
      rw [printInt, List.mem_cons] at hc
      exact hc.elim Or.inr fun hc => Or.inl ((printNat_spec (n + 1)).2.1 c hc)

end Bytes

/-! ### Ids as names -/

section Names

variable {kind : ByteString} {source : IdSource}

theorem generateId_eq (kind : ByteString) (source : IdSource) :
    generateId kind source = kind ++ minus :: (compactUtcStamp source.utc ++ minus ::
      (printNat source.pid ++ minus :: printInt (source.monotonicNs.tmod 1000000))) := by
  have hdash : ByteString.ofString "-" = [minus] := by decide
  simp only [generateId, hdash, List.append_assoc, List.cons_append, List.nil_append]

/-- An id is the name of a directory. -/
theorem isName_generateId (hkind : Path.slash ∉ kind) : Path.IsName (generateId kind source) := by
  have hdigit : isDigit Path.slash = false := by decide
  have hlength : 3 ≤ (generateId kind source).length := by
    rw [generateId_eq]
    simp only [List.length_append, List.length_cons]
    omega
  have hslash : Path.slash ∉ generateId kind source := by
    rw [generateId_eq]
    simp only [List.mem_append, List.mem_cons, not_or]
    refine ⟨hkind, by decide, fun hc => ?_, by decide, fun hc => ?_, by decide, fun hc => ?_⟩
    · rcases mem_compactUtcStamp hc with h | h | h
      · cases hdigit.symm.trans h
      · cases h
      · cases h
    · cases hdigit.symm.trans ((printNat_spec source.pid).2.1 _ hc)
    · rcases mem_printInt hc with h | h
      · cases hdigit.symm.trans h
      · cases h
  refine ⟨?_, hslash, ?_, ?_⟩ <;>
  · intro heq
    rw [heq] at hlength
    exact absurd hlength (by decide)

theorem isSingleName_generateId (hkind : Path.slash ∉ kind) :
    IsSingleName (generateId kind source) (generateId kind source) := by
  have hname : Path.IsName (generateId kind source) := isName_generateId hkind
  exact ⟨Path.isAbsolute_of_isName hname, [], Path.components_of_isName hname, by simp⟩

end Names

/-! ### Different ids -/

theorem printNat_injective {m n : ℕ} (h : printNat m = printNat n) : m = n := by
  rw [← (printNat_spec m).1, h, (printNat_spec n).1]

theorem printInt_injective {i j : Int} (h : printInt i = printInt j) : i = j := by
  have hminus : ∀ n (more : ByteString), printNat n ≠ minus :: more := by
    intro n more heq
    have hdigit := (printNat_spec n).2.1 minus (by rw [heq]; exact List.mem_cons_self)
    exact absurd hdigit (by decide)
  cases i with
  | ofNat m =>
      cases j with
      | ofNat n => rw [printNat_injective h]
      | negSucc n => exact absurd h (hminus m _)
  | negSucc m =>
      cases j with
      | ofNat n => exact absurd h.symm (hminus n _)
      | negSucc n =>
          rw [printInt, printInt, List.cons.injEq] at h
          rw [Nat.succ.inj (printNat_injective h.2)]

/-- A stamp tells its second. -/
theorem compactUtcStamp_injective {s t : UtcTime}
    (h : compactUtcStamp s = compactUtcStamp t) : s = t := by
  obtain ⟨year, month, day, hour, minute, second, hmonth, hday, hhour, hminute, hsecond⟩ := s
  obtain ⟨year', month', day', hour', minute', second', hmonth', hday', hhour', hminute',
    hsecond'⟩ := t
  simp only [compactUtcStamp] at h
  -- only the year has a text of varying length
  obtain ⟨hy, h⟩ := List.append_inj' h rfl
  obtain ⟨hmo, h⟩ := List.append_inj h rfl
  obtain ⟨hd, h⟩ := List.append_inj h rfl
  obtain ⟨-, h⟩ := List.append_inj h rfl
  obtain ⟨hh, h⟩ := List.append_inj h rfl
  obtain ⟨hmi, h⟩ := List.append_inj h rfl
  obtain ⟨hs, -⟩ := List.append_inj h rfl
  obtain rfl := printNat_injective hy
  obtain rfl := twoDigits_injective (by omega) (by omega) hmo
  obtain rfl := twoDigits_injective (by omega) (by omega) hd
  obtain rfl := twoDigits_injective (by omega) (by omega) hh
  obtain rfl := twoDigits_injective (by omega) (by omega) hmi
  obtain rfl := twoDigits_injective (by omega) (by omega) hs
  rfl

/-- What is before the first dash, and what is after it. -/
theorem append_minus_inj {a b r s : ByteString} (ha : minus ∉ a) (hb : minus ∉ b) :
    a ++ minus :: r = b ++ minus :: s ↔ a = b ∧ r = s := by
  induction a generalizing b with
  | nil =>
      cases b with
      | nil => simp
      | cons c b =>
          rw [List.mem_cons, not_or] at hb
          simp [hb.1]
  | cons c a ih =>
      rw [List.mem_cons, not_or] at ha
      cases b with
      | nil => simp [Ne.symm ha.1]
      | cons d b =>
          rw [List.mem_cons, not_or] at hb
          rw [List.cons_append, List.cons_append, List.cons.injEq, ih ha.2 hb.2, List.cons.injEq,
            and_assoc]

/-- Two ids are the same only for the same second, the same process and the same nanoseconds
modulo a million. -/
theorem generateId_eq_iff (kind : ByteString) (s t : IdSource) :
    generateId kind s = generateId kind t ↔
      s.utc = t.utc ∧ s.pid = t.pid ∧
        s.monotonicNs.tmod 1000000 = t.monotonicNs.tmod 1000000 := by
  have hstamp : ∀ u, minus ∉ compactUtcStamp u := by
    intro u hc
    rcases mem_compactUtcStamp hc with h | h | h
    · exact absurd h (by decide)
    · cases h
    · cases h
  have hpid : ∀ n, minus ∉ printNat n := fun n hc =>
    absurd ((printNat_spec n).2.1 _ hc) (by decide)
  rw [generateId_eq, generateId_eq, List.append_cancel_left_eq, List.cons.injEq,
    append_minus_inj (hstamp _) (hstamp _), append_minus_inj (hpid _) (hpid _)]
  simp only [true_and]
  constructor
  · rintro ⟨hutc, hpid, hns⟩
    exact ⟨compactUtcStamp_injective hutc, printNat_injective hpid, printInt_injective hns⟩
  · rintro ⟨hutc, hpid, hns⟩
    rw [hutc, hpid, hns]
    exact ⟨rfl, rfl, rfl⟩

end BtClient
