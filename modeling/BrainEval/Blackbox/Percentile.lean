import Mathlib
import BrainEval.Lib.OrderStatistic

set_option autoImplicit false

namespace BrainEval

open SortBy OrderStatistic

-- The body the three gates share: the percentile and the buffer as it is left, sorted in place; no
-- result where the index is out of range and the source panics.
def nearestRankPercentile (samples : List ℚ) (q : ℚ) : Option (ℚ × List ℚ) :=
  if samples.isEmpty then some (0, samples)
  else
    let sorted := sortByKey id samples
    let idx := min (⌈samples.length * q⌉₊ - 1) (samples.length - 1)
    sorted[idx]?.map fun v => (v, sorted)

def Scale.percentile : List ℚ → ℚ → Option (ℚ × List ℚ) := nearestRankPercentile

def Throughput.percentile : List ℚ → ℚ → Option (ℚ × List ℚ) := nearestRankPercentile

def Soak.percentile : List ℚ → ℚ → Option (ℚ × List ℚ) := nearestRankPercentile

/-- The value that a share `q` of the samples reaches, and no smaller value. -/
structure NearestRank (samples : List ℚ) (q v : ℚ) : Prop where
  listed : v ∈ samples
  reached : ⌈q * samples.length⌉₊ ≤ samples.countP (· ≤ v)
  below : samples.countP (· < v) < ⌈q * samples.length⌉₊

-- What a percentile helper answers on one list of samples at one share.
structure AnswersNearestRank (percentile : List ℚ → ℚ → Option (ℚ × List ℚ))
    (samples : List ℚ) (q : ℚ) : Prop where
  answered : ∃ v sorted, percentile samples q = some (v, sorted) ∧ NearestRank samples q v
  unordered : ∀ other, samples.Perm other → percentile other q = percentile samples q
  monotone : ∀ q', q ≤ q' → q' ≤ 1 → ∃ here there, percentile samples q = some here ∧
    percentile samples q' = some there ∧ here.1 ≤ there.1

section Samples

variable {samples : List ℚ} {q : ℚ}

-- The clamp keeps the index in range for every share, also one past the whole.
theorem isSome_nearestRankPercentile (samples : List ℚ) (q : ℚ) :
    (nearestRankPercentile samples q).isSome = true := by
  unfold nearestRankPercentile
  by_cases empty : samples.isEmpty = true
  next => rw [if_pos empty, Option.isSome_some]
  next =>
    have positive : 0 < samples.length := by
      rw [List.length_pos_iff]
      simpa using empty
    have inside : min (⌈samples.length * q⌉₊ - 1) (samples.length - 1) <
        (sortByKey id samples).length := by
      rw [length_sorted]
      omega
    rw [if_neg empty, Option.isSome_map, List.getElem?_eq_getElem inside, Option.isSome_some]

theorem nearestRankPercentile_perm {other : List ℚ} (perm : samples.Perm other) :
    nearestRankPercentile other q = nearestRankPercentile samples q := by
  by_cases empty : samples = []
  next =>
    subst empty
    rw [perm.symm.eq_nil]
  next =>
    have filled : other ≠ [] := fun none => empty (none ▸ perm).eq_nil
    rw [nearestRankPercentile, nearestRankPercentile, if_neg (by simpa using filled),
      if_neg (by simpa using empty), sorted_perm perm, perm.length_eq]

theorem NearestRank.le_iff {v : ℚ} (rank : NearestRank samples q v) {bound : ℚ} :
    v ≤ bound ↔ ⌈q * samples.length⌉₊ ≤ samples.countP (· ≤ bound) := by
  have below := rank.below
  have reached := rank.reached
  have found : atRank samples (⌈q * samples.length⌉₊ - 1) = some v :=
    atRank_eq_some_iff.mpr ⟨rank.listed, by omega, by omega⟩
  rw [le_iff_of_atRank found]
  omega

variable (filled : samples ≠ []) (positive : 0 < q) (atMost : q ≤ 1)

include filled positive atMost

theorem rank_within : 0 < ⌈q * samples.length⌉₊ ∧ ⌈q * samples.length⌉₊ ≤ samples.length := by
  have some : (0 : ℚ) < samples.length := by
    rw [Nat.cast_pos]
    exact List.length_pos_iff.mpr filled
  constructor
  · exact Nat.ceil_pos.mpr (mul_pos positive some)
  · exact Nat.ceil_le.mpr (mul_le_of_le_one_left some.le atMost)

theorem nearestRankPercentile_eq_some_iff {v : ℚ} {sorted : List ℚ} :
    nearestRankPercentile samples q = some (v, sorted) ↔
      NearestRank samples q v ∧ sortByKey id samples = sorted := by
  obtain ⟨some, within⟩ := rank_within filled positive atMost
  have idx : min (⌈samples.length * q⌉₊ - 1) (samples.length - 1) =
      ⌈q * samples.length⌉₊ - 1 := by
    rw [mul_comm]
    omega
  have rank : (sortByKey id samples)[⌈q * samples.length⌉₊ - 1]? = Option.some v ↔
      NearestRank samples q v := by
    rw [← atRank, atRank_eq_some_iff]
    constructor
    · rintro ⟨listed, below, reached⟩
      exact ⟨listed, by omega, by omega⟩
    · rintro ⟨listed, reached, below⟩
      exact ⟨listed, by omega, by omega⟩
  rw [nearestRankPercentile, if_neg (by simpa using filled), idx, ← rank]
  simp [and_comm]

theorem exists_nearestRank :
    ∃ v, nearestRankPercentile samples q = some (v, sortByKey id samples) ∧
      NearestRank samples q v := by
  obtain ⟨⟨v, sorted⟩, found⟩ :=
    Option.isSome_iff_exists.mp (isSome_nearestRankPercentile samples q)
  obtain ⟨rank, rfl⟩ := (nearestRankPercentile_eq_some_iff filled positive atMost).mp found
  exact ⟨v, found, rank⟩

theorem nearestRankPercentile_answers : AnswersNearestRank nearestRankPercentile samples q := by
  obtain ⟨v, found, rank⟩ := exists_nearestRank filled positive atMost
  refine ⟨⟨v, _, found, rank⟩, fun _ => nearestRankPercentile_perm, ?_⟩
  intro q' more atMost'
  obtain ⟨v', found', rank'⟩ := exists_nearestRank filled (positive.trans_le more) atMost'
  refine ⟨_, _, found, found', rank.le_iff.mpr ?_⟩
  have fewer : ⌈q * samples.length⌉₊ ≤ ⌈q' * samples.length⌉₊ :=
    Nat.ceil_le_ceil (mul_le_mul_of_nonneg_right more (Nat.cast_nonneg _))
  exact fewer.trans rank'.reached

theorem percentile_nearest_rank :
    AnswersNearestRank Scale.percentile samples q ∧
      AnswersNearestRank Throughput.percentile samples q ∧
      AnswersNearestRank Soak.percentile samples q := by
  have answers := nearestRankPercentile_answers filled positive atMost
  exact ⟨answers, answers, answers⟩

end Samples

theorem four_samples_ranked :
    Scale.percentile [30, 10, 20, 10] (1 / 2) = some (10, [10, 10, 20, 30]) ∧
      AnswersNearestRank Scale.percentile [30, 10, 20, 10] (1 / 2) :=
  ⟨by decide +kernel, (percentile_nearest_rank (by simp) (by norm_num) (by norm_num)).1⟩

end BrainEval
