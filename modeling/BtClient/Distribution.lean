import BtClient.Library.Dispersion
import BtClient.Library.Interpolation

/-!
# Distribution summaries

`percentile` and `summarize_samples` of `util.cpp` over exact rationals. A read outside the
samples is `none`, so a percentile that is there has read inside them. The square root of the
standard library is a parameter of the summary; the variance under it is a value of its own.
-/

namespace BtClient

open Interpolation Dispersion

def percentile (sortedSamples : List ℚ) (fraction : ℚ) : Option ℚ :=
  match sortedSamples with
  | [] => some 0
  | [sample] => some sample
  | _ =>
      let position := fraction * ((sortedSamples.length - 1 : ℕ) : ℚ)
      let lowerIndex := ⌊position⌋₊
      let upperIndex := ⌈position⌉₊
      let weight := position - (lowerIndex : ℚ)
      match sortedSamples[lowerIndex]?, sortedSamples[upperIndex]? with
      | some lower, some upper => some (lower * (1 - weight) + upper * weight)
      | _, _ => none

structure DistributionSummary where
  count : ℕ := 0
  min : Option ℚ := none
  max : Option ℚ := none
  mean : Option ℚ := none
  stddev : Option ℚ := none
  p50 : Option ℚ := none
  p95 : Option ℚ := none
  deriving DecidableEq

/-- `std::sort` on a copy of the samples. -/
def sortSamples (samples : List ℚ) : List ℚ :=
  samples.mergeSort fun a b => decide (a ≤ b)

/-- The mean as `summarize_samples` accumulates it. -/
def meanOf (sorted : List ℚ) : ℚ := sorted.foldl (· + ·) 0 / (sorted.length : ℚ)

/-- The variance as `summarize_samples` accumulates it. -/
def varianceOf (sorted : List ℚ) : ℚ :=
  let mean := meanOf sorted
  sorted.foldl (fun variance sample => variance + (sample - mean) * (sample - mean)) 0 /
    (sorted.length : ℚ)

def summarizeSamples (sqrt : ℚ → ℚ) (samples : List ℚ) : DistributionSummary :=
  if samples.isEmpty then { count := samples.length }
  else
    let sorted := sortSamples samples
    { count := samples.length
      min := sorted.head?
      max := sorted.getLast?
      mean := some (meanOf sorted)
      stddev := some (sqrt (varianceOf sorted))
      p50 := percentile sorted (1 / 2)
      p95 := percentile sorted (19 / 20) }

/-! ### Sorting -/

theorem sortSamples_perm (samples : List ℚ) : (sortSamples samples).Perm samples :=
  List.mergeSort_perm samples _

theorem sorted_sortSamples (samples : List ℚ) :
    (sortSamples samples).Pairwise (· ≤ ·) := by
  have htrans : ∀ a b c : ℚ, decide (a ≤ b) = true → decide (b ≤ c) = true →
      decide (a ≤ c) = true := by
    intro a b c hab hbc
    rw [decide_eq_true_eq] at hab hbc ⊢
    exact hab.trans hbc
  have htotal : ∀ a b : ℚ, (decide (a ≤ b) || decide (b ≤ a)) = true := by
    intro a b
    rw [Bool.or_eq_true, decide_eq_true_eq, decide_eq_true_eq]
    exact le_total a b
  exact (List.pairwise_mergeSort htrans htotal samples).imp fun h => of_decide_eq_true h

/-- Samples in another order are sorted to the same list. -/
theorem sortSamples_eq_of_perm {samples samples' : List ℚ} (h : samples.Perm samples') :
    sortSamples samples = sortSamples samples' := by
  have hperm : (sortSamples samples).Perm (sortSamples samples') :=
    (sortSamples_perm samples).trans (h.trans (sortSamples_perm samples').symm)
  exact hperm.eq_of_pairwise' (sorted_sortSamples samples) (sorted_sortSamples samples')

/-! ### Percentiles -/

/-- The samples as a sequence, which stays at the last sample after the end. -/
def sequenceOf (sortedSamples : List ℚ) (i : ℕ) : ℚ :=
  sortedSamples.getD (min i (sortedSamples.length - 1)) 0

theorem getElem?_eq_sequenceOf {sortedSamples : List ℚ} {i : ℕ} (hi : i < sortedSamples.length) :
    sortedSamples[i]? = some (sequenceOf sortedSamples i) := by
  have hmin : min i (sortedSamples.length - 1) = i := by omega
  rw [sequenceOf, hmin, List.getD_eq_getElem?_getD, List.getElem?_eq_getElem hi]
  rfl

theorem monotone_sequenceOf {sortedSamples : List ℚ} (h : sortedSamples.Pairwise (· ≤ ·)) :
    Monotone (sequenceOf sortedSamples) := by
  intro i j hij
  rcases Nat.eq_zero_or_pos sortedSamples.length with hnil | hpos
  · rw [List.length_eq_zero_iff.mp hnil]
    rfl
  · have hi : min i (sortedSamples.length - 1) < sortedSamples.length := by omega
    have hj : min j (sortedSamples.length - 1) < sortedSamples.length := by omega
    have hle : min i (sortedSamples.length - 1) ≤ min j (sortedSamples.length - 1) := by omega
    rw [sequenceOf, sequenceOf, List.getD_eq_getElem _ _ hi, List.getD_eq_getElem _ _ hj]
    rcases hle.eq_or_lt with heq | hlt
    · simp only [heq, le_refl]
    · exact List.pairwise_iff_getElem.mp h _ _ hi hj hlt

/-- The position of a fraction in a list of samples. -/
def positionOf (sortedSamples : List ℚ) (fraction : ℚ) : ℚ :=
  fraction * ((sortedSamples.length - 1 : ℕ) : ℚ)

/-- A percentile reads the samples at its position, inside the list. -/
theorem percentile_eq {sortedSamples : List ℚ} (hne : sortedSamples ≠ []) {fraction : ℚ}
    (h1 : fraction ≤ 1) :
    percentile sortedSamples fraction =
      some (interpolate (sequenceOf sortedSamples) (positionOf sortedSamples fraction)) := by
  match sortedSamples with
  | [] => exact absurd rfl hne
  | [sample] =>
      have hzero : positionOf [sample] fraction = ((0 : ℕ) : ℚ) := by simp [positionOf]
      rw [hzero, interpolate_natCast]
      rfl
  | a :: b :: rest =>
      have hlast : positionOf (a :: b :: rest) fraction ≤ (((a :: b :: rest).length - 1 : ℕ) : ℚ) :=
        mul_le_of_le_one_left (Nat.cast_nonneg _) h1
      have hupper : ⌈positionOf (a :: b :: rest) fraction⌉₊ < (a :: b :: rest).length := by
        have hceil : ⌈positionOf (a :: b :: rest) fraction⌉₊ ≤ (a :: b :: rest).length - 1 :=
          Nat.ceil_le.mpr hlast
        have hpos : 0 < (a :: b :: rest).length := List.length_pos_of_ne_nil hne
        omega
      have hlower : ⌊positionOf (a :: b :: rest) fraction⌋₊ < (a :: b :: rest).length :=
        (Nat.floor_le_ceil _).trans_lt hupper
      have hread := getElem?_eq_sequenceOf hlower
      have hread' := getElem?_eq_sequenceOf hupper
      simp only [positionOf] at hread hread'
      simp only [percentile, hread, hread']
      rfl

theorem positionOf_nonneg {fraction : ℚ} (h0 : 0 ≤ fraction) (sortedSamples : List ℚ) :
    0 ≤ positionOf sortedSamples fraction :=
  mul_nonneg h0 (Nat.cast_nonneg _)

/-- What is said about the percentiles of sorted samples: they are read inside the list, do
not decrease with the fraction, and at an index they are the sample there. -/
structure PercentilesOrdered (sortedSamples : List ℚ) (value : ℚ → ℚ) : Prop where
  reads : ∀ fraction, 0 ≤ fraction → fraction ≤ 1 →
    percentile sortedSamples fraction = some (value fraction)
  mono : ∀ fraction fraction', 0 ≤ fraction → fraction ≤ fraction' → fraction' ≤ 1 →
    value fraction ≤ value fraction'
  at_index : ∀ (fraction : ℚ) (k : ℕ), 0 ≤ fraction → fraction ≤ 1 →
    positionOf sortedSamples fraction = k → sortedSamples[k]? = some (value fraction)

theorem percentilesOrdered {sortedSamples : List ℚ} (hne : sortedSamples ≠ [])
    (hsorted : sortedSamples.Pairwise (· ≤ ·)) :
    PercentilesOrdered sortedSamples fun fraction =>
      interpolate (sequenceOf sortedSamples) (positionOf sortedSamples fraction) where
  reads _ _ h1 := percentile_eq hne h1
  mono fraction fraction' h0 hle h1 := by
    apply interpolate_mono (monotone_sequenceOf hsorted) (positionOf_nonneg h0 _)
    exact mul_le_mul_of_nonneg_right hle (Nat.cast_nonneg _)
  at_index fraction k h0 h1 hk := by
    have hlast : (k : ℚ) ≤ ((sortedSamples.length - 1 : ℕ) : ℚ) := by
      rw [← hk]
      exact mul_le_of_le_one_left (Nat.cast_nonneg _) h1
    have hpos : 0 < sortedSamples.length := List.length_pos_of_ne_nil hne
    have hlt : k < sortedSamples.length := by
      have hcast : k ≤ sortedSamples.length - 1 := by exact_mod_cast hlast
      omega
    rw [hk, interpolate_natCast]
    exact getElem?_eq_sequenceOf hlt

/-! ### Mean and variance -/

theorem meanOf_eq (samples : List ℚ) : meanOf samples = mean samples := by
  rw [meanOf, mean, List.sum_eq_foldl]

theorem varianceOf_eq (samples : List ℚ) : varianceOf samples = variance samples := by
  have hfold : ∀ (l : List ℚ) (m start : ℚ),
      l.foldl (fun variance sample => variance + (sample - m) * (sample - m)) start =
        start + (l.map fun x => (x - m) * (x - m)).sum := by
    intro l m
    induction l with
    | nil => simp
    | cons x l ih =>
        intro start
        rw [List.foldl_cons, ih, List.map_cons, List.sum_cons, add_assoc]
  rw [varianceOf, variance, hfold, zero_add, meanOf_eq]

/-! ### Summaries -/

/-- What is said about the summary of samples: the extremes are the smallest and the largest
sample, the percentiles and the mean lie between them in order, and the variance under the
standard deviation is bounded by them. -/
structure SummaryOrdered (sqrt : ℚ → ℚ) (samples : List ℚ) (summary : DistributionSummary)
    (least greatest mean p50 p95 variance : ℚ) : Prop where
  summary_eq : summary = {
    count := samples.length
    min := some least
    max := some greatest
    mean := some mean
    stddev := some (sqrt variance)
    p50 := some p50
    p95 := some p95 }
  isLeast : IsLeast {x | x ∈ samples} least
  isGreatest : IsGreatest {x | x ∈ samples} greatest
  percentiles : least ≤ p50 ∧ p50 ≤ p95 ∧ p95 ≤ greatest
  mean_bounds : least ≤ mean ∧ mean ≤ greatest
  variance_bounds : 0 ≤ variance ∧ variance ≤ (greatest - least) ^ 2 / 4
  variance_zero : variance = 0 ↔ ∀ x ∈ samples, ∀ y ∈ samples, x = y

section Sorted

variable {sorted : List ℚ}

theorem isLeast_head (hne : sorted ≠ []) (hsorted : sorted.Pairwise (· ≤ ·)) :
    IsLeast {x | x ∈ sorted} (sorted.head hne) := by
  refine ⟨List.head_mem hne, ?_⟩
  intro x hx
  cases sorted with
  | nil => exact absurd rfl hne
  | cons a rest =>
      rcases List.mem_cons.mp hx with rfl | hrest
      · exact le_refl _
      · exact (List.pairwise_cons.mp hsorted).1 x hrest

theorem isGreatest_getLast (hne : sorted ≠ []) (hsorted : sorted.Pairwise (· ≤ ·)) :
    IsGreatest {x | x ∈ sorted} (sorted.getLast hne) := by
  refine ⟨List.getLast_mem hne, ?_⟩
  intro x hx
  have hsplit := List.dropLast_append_getLast hne
  rw [← hsplit] at hsorted hx
  rcases List.mem_append.mp hx with hfront | hlast
  · exact (List.pairwise_append.mp hsorted).2.2 x hfront _ (List.mem_singleton_self _)
  · rw [List.mem_singleton.mp hlast]

/-- The percentile at a fraction lies between the extremes, which are the percentiles at the
two ends. -/
theorem PercentilesOrdered.between {value : ℚ → ℚ} (h : PercentilesOrdered sorted value)
    (hne : sorted ≠ []) {fraction : ℚ} (h0 : 0 ≤ fraction) (h1 : fraction ≤ 1) :
    sorted.head hne ≤ value fraction ∧ value fraction ≤ sorted.getLast hne := by
  have hfirst : sorted[0]? = some (value 0) :=
    h.at_index 0 0 le_rfl zero_le_one (by simp [positionOf])
  have hlast : sorted[sorted.length - 1]? = some (value 1) :=
    h.at_index 1 (sorted.length - 1) zero_le_one le_rfl (by simp [positionOf])
  rw [← List.head?_eq_getElem?, List.head?_eq_some_head hne] at hfirst
  rw [← List.getLast?_eq_getElem?, List.getLast?_eq_some_getLast hne] at hlast
  rw [Option.some.inj hfirst, Option.some.inj hlast]
  exact ⟨h.mono 0 fraction le_rfl h0 h1, h.mono fraction 1 h0 h1 le_rfl⟩

end Sorted

theorem summaryOrdered (sqrt : ℚ → ℚ) {samples : List ℚ} (hne : samples ≠ []) :
    ∃ least greatest mean p50 p95 variance,
      SummaryOrdered sqrt samples (summarizeSamples sqrt samples)
        least greatest mean p50 p95 variance := by
  have hmem : ∀ x, x ∈ sortSamples samples ↔ x ∈ samples := fun x =>
    (sortSamples_perm samples).mem_iff
  have hsorted := sorted_sortSamples samples
  have hne' : sortSamples samples ≠ [] := by
    intro hnil
    have hperm := sortSamples_perm samples
    rw [hnil] at hperm
    exact hne hperm.nil_eq.symm
  have hpercentiles := percentilesOrdered hne' hsorted
  have hleast := isLeast_head hne' hsorted
  have hgreatest := isGreatest_getLast hne' hsorted
  have hge : ∀ x ∈ sortSamples samples, (sortSamples samples).head hne' ≤ x :=
    fun x hx => hleast.2 hx
  have hle : ∀ x ∈ sortSamples samples, x ≤ (sortSamples samples).getLast hne' :=
    fun x hx => hgreatest.2 hx
  have hp50 := hpercentiles.between hne' (by norm_num : (0 : ℚ) ≤ 1 / 2) (by norm_num)
  have hp95 := hpercentiles.between hne' (by norm_num : (0 : ℚ) ≤ 19 / 20)
    (by norm_num)
  refine ⟨(sortSamples samples).head hne', (sortSamples samples).getLast hne',
    meanOf (sortSamples samples), _, _, varianceOf (sortSamples samples), ?_, ?_, ?_,
    ⟨hp50.1, ?_, hp95.2⟩, ?_, ?_, ?_⟩
  · have hempty : samples.isEmpty = false := by simpa using hne
    rw [summarizeSamples, hempty, if_neg Bool.false_ne_true]
    dsimp only
    rw [List.head?_eq_some_head hne', List.getLast?_eq_some_getLast hne',
      hpercentiles.reads (1 / 2) (by norm_num) (by norm_num),
      hpercentiles.reads (19 / 20) (by norm_num) (by norm_num)]
  · simpa only [hmem] using hleast
  · simpa only [hmem] using hgreatest
  · exact hpercentiles.mono (1 / 2) (19 / 20) (by norm_num) (by norm_num) (by norm_num)
  · rw [meanOf_eq]
    exact ⟨le_mean hne' hge, mean_le hne' hle⟩
  · rw [varianceOf_eq]
    exact ⟨variance_nonneg hne', variance_le hne' hge hle⟩
  · rw [varianceOf_eq, variance_eq_zero_iff hne']
    simp only [hmem]

/-- The order of the samples does not reach the summary. -/
theorem summarizeSamples_eq_of_perm (sqrt : ℚ → ℚ) {samples samples' : List ℚ}
    (h : samples.Perm samples') :
    summarizeSamples sqrt samples = summarizeSamples sqrt samples' := by
  have hempty : samples.isEmpty = samples'.isEmpty := by
    rw [Bool.eq_iff_iff, List.isEmpty_iff, List.isEmpty_iff]
    exact ⟨fun hnil => (hnil ▸ h).nil_eq.symm, fun hnil => (hnil ▸ h).eq_nil⟩
  rw [summarizeSamples, summarizeSamples, hempty, h.length_eq, sortSamples_eq_of_perm h]

/-- Percentiles of sorted samples are read inside the list and are ordered by their fraction,
and the summary of samples is consistent with their order and does not depend on the order in
which they were taken. -/
theorem distribution_ordered (sqrt : ℚ → ℚ) :
    (∀ sortedSamples : List ℚ, sortedSamples ≠ [] → sortedSamples.Pairwise (· ≤ ·) →
      ∃ value, PercentilesOrdered sortedSamples value) ∧
    (∀ samples : List ℚ, samples ≠ [] → ∃ least greatest mean p50 p95 variance,
      SummaryOrdered sqrt samples (summarizeSamples sqrt samples)
        least greatest mean p50 p95 variance) ∧
    ∀ samples samples' : List ℚ, samples.Perm samples' →
      summarizeSamples sqrt samples = summarizeSamples sqrt samples' :=
  ⟨fun _ hne hsorted => ⟨_, percentilesOrdered hne hsorted⟩,
    fun _ hne => summaryOrdered sqrt hne,
    fun _ _ h => summarizeSamples_eq_of_perm sqrt h⟩

end BtClient
