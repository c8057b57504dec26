import Mathlib
import BrainEval.Lib.Mean
import BrainEval.Score.Retrieval

set_option autoImplicit false

namespace BrainEval.Retrieval

open RustStr Mean

def Diagnosed (r : QuestionResult) : Prop :=
  r.ingestionFailed = true ∨ r.retrievalFailed = true ∨ r.retrievedMemoryContents = [] ∨
    r.groundTruth = ""

/-- The order between the metrics of one run. -/
structure RetrievalStats.Consistent (stats : RetrievalStats) : Prop where
  recall_nonneg : 0 ≤ stats.recallAt1
  recall_1_5 : stats.recallAt1 ≤ stats.recallAt5
  recall_5_10 : stats.recallAt5 ≤ stats.recallAt10
  recall_le_one : stats.recallAt10 ≤ 1
  recall_le_mrr : stats.recallAt1 ≤ stats.mrr
  mrr_le : stats.mrr ≤ (1 + stats.recallAt1) / 2

theorem not_scored_of_diagnosed (U : UnicodeData) {r : QuestionResult} (diagnosed : Diagnosed r) :
    scored U r = false := by
  unfold scored
  rcases diagnosed with failed | failed | none | empty
  · simp [failed]
  · simp [failed]
  · simp [none]
  · have folded : toLowercase U "" = "" := rfl
    simp [empty, folded]

section Scores

variable (U : UnicodeData) (r : QuestionResult) (ground : String)

theorem recallScore_nonneg (k : Nat) : 0 ≤ recallScore U k r ground := by
  unfold recallScore
  dsimp only
  split <;> norm_num

theorem recallScore_le_one (k : Nat) : recallScore U k r ground ≤ 1 := by
  unfold recallScore
  dsimp only
  split <;> norm_num

-- What is found in a shorter cut is found in a longer one.
theorem recallScore_mono {k k' : Nat} (longer : k ≤ k') :
    recallScore U k r ground ≤ recallScore U k' r ground := by
  by_cases found : ((r.retrievedMemoryContents.take k).any fun c =>
      RustStr.contains (toLowercase U c) ground) = true
  next =>
    have still : ((r.retrievedMemoryContents.take k').any fun c =>
        RustStr.contains (toLowercase U c) ground) = true := by
      obtain ⟨c, member, hit⟩ := List.any_eq_true.mp found
      exact List.any_eq_true.mpr ⟨c, List.take_subset_take_left _ longer member, hit⟩
    simp only [recallScore, found, still, le_refl]
  next =>
    have missed : recallScore U k r ground = 0 := by
      unfold recallScore
      rw [Bool.not_eq_true] at found
      simp only [found]
      rfl
    rw [missed]
    exact recallScore_nonneg U r ground k'

-- A relevant first hit ranks one; any other puts the first relevant one at two or later.
theorem reciprocalRankScore_bounds :
    recallScore U 1 r ground ≤ reciprocalRankScore U r ground ∧
      reciprocalRankScore U r ground ≤ (1 + recallScore U 1 r ground) / 2 := by
  unfold recallScore reciprocalRankScore reciprocalRank
  cases r.retrievedMemoryContents with
  | nil => norm_num
  | cons first rest =>
    rw [List.map_cons, List.findIdx?_cons]
    by_cases hit : RustStr.contains (toLowercase U first) ground = true
    next => simp [hit]
    next =>
      rw [Bool.not_eq_true] at hit
      simp only [List.take_succ_cons, List.take_zero, List.any_cons, List.any_nil, hit,
        Bool.or_false, Bool.false_eq_true, if_false]
      cases (rest.map (toLowercase U)).findIdx? fun c => RustStr.contains c ground with
      | none => norm_num
      | some i =>
        have late : (2 : ℚ) ≤ ((i + 1 + 1 : Nat) : ℚ) := by
          push_cast
          linarith [Nat.cast_nonneg (α := ℚ) i]
        simp only [Option.map_some]
        constructor
        · positivity
        · rw [add_zero]
          exact one_div_le_one_div_of_le (by norm_num) late

end Scores

section Means

variable (U : UnicodeData)

theorem meanOver_eq_mean {F : Type} [Field F] (score : QuestionResult → String → F)
    (results : List QuestionResult) :
    meanOver U score results =
      mean ((population U results).map fun r => score r (toLowercase U r.groundTruth)) := by
  rw [meanOver_eq, mean, List.length_map]

theorem consistent {results : List QuestionResult} {stats : RetrievalStats}
    (computed : computeRetrievalStats U results = some stats) : stats.Consistent := by
  unfold computeRetrievalStats at computed
  dsimp only at computed
  split at computed
  next => simp at computed
  next =>
    obtain rfl := Option.some_inj.mp computed
    simp only [meanRecallAtK, meanReciprocalRank, meanOver_eq_mean]
    constructor
    · exact mean_nonneg (List.forall_mem_map.mpr fun r _ => recallScore_nonneg U r _ 1)
    · exact mean_le_mean fun r _ => recallScore_mono U r _ (by norm_num)
    · exact mean_le_mean fun r _ => recallScore_mono U r _ (by norm_num)
    · exact mean_le_of_nonneg zero_le_one
        (List.forall_mem_map.mpr fun r _ => recallScore_le_one U r _ 10)
    · exact mean_le_mean fun r _ => (reciprocalRankScore_bounds U r _).1
    · calc
        _ ≤ mean ((population U results).map fun r =>
            1 / 2 + 1 / 2 * recallScore U 1 r (toLowercase U r.groundTruth)) :=
          mean_le_mean fun r _ => by
            linarith [(reciprocalRankScore_bounds U r (toLowercase U r.groundTruth)).2]
        _ ≤ _ := by
          have half : mean ((population U results).map fun _ => (1 / 2 : ℚ)) ≤ 1 / 2 :=
            mean_le_of_nonneg (by norm_num) (List.forall_mem_map.mpr fun _ _ => le_refl _)
          rw [mean_add, mean_mul_left]
          linarith

theorem meanOver_insert {F : Type} [DivisionRing F] (score : QuestionResult → String → F)
    (front back : List QuestionResult) {r : QuestionResult} (diagnosed : Diagnosed r) :
    meanOver U score (front ++ r :: back) = meanOver U score (front ++ back) := by
  have same : population U (front ++ r :: back) = population U (front ++ back) := by
    simp [population, not_scored_of_diagnosed U diagnosed]
  rw [meanOver_eq, meanOver_eq, same]

theorem computeRetrievalStats_insert {front back : List QuestionResult} {r : QuestionResult}
    (diagnosed : Diagnosed r) {stats : RetrievalStats}
    (computed : computeRetrievalStats U (front ++ back) = some stats) :
    computeRetrievalStats U (front ++ r :: back) = some stats := by
  have before : ((front ++ back).any fun r => !r.retrievedMemoryContents.isEmpty) = true := by
    by_contra none
    rw [Bool.not_eq_true] at none
    simp only [computeRetrievalStats, none, Bool.not_false, if_true, reduceCtorEq] at computed
  have after : ((front ++ r :: back).any fun r => !r.retrievedMemoryContents.isEmpty) = true := by
    obtain ⟨q, member, retrieved⟩ := List.any_eq_true.mp before
    refine List.any_eq_true.mpr ⟨q, ?_, retrieved⟩
    rw [List.mem_append, List.mem_cons]
    exact (List.mem_append.mp member).imp_right Or.inr
  rw [← computed]
  simp only [computeRetrievalStats, meanRecallAtK, meanNdcgAtK, meanReciprocalRank,
    meanOver_insert U _ front back diagnosed, before, after]

theorem retrieval_metrics_consistent {results : List QuestionResult} {stats : RetrievalStats}
    (computed : computeRetrievalStats U results = some stats) :
    stats.Consistent ∧
      ∀ front back r, results = front ++ back → Diagnosed r →
        computeRetrievalStats U (front ++ r :: back) = some stats := by
  refine ⟨consistent U computed, ?_⟩
  rintro front back r rfl diagnosed
  exact computeRetrievalStats_insert U diagnosed computed

end Means

def secondHit : QuestionResult :=
  { qr .many .correct "" with
    groundTruth := "Paris", retrievedMemoryContents := ["Bob lives in Rome", "Ann lives in Paris"] }

theorem second_hit_consistent :
    ∃ stats, computeRetrievalStats .ascii [secondHit] = some stats ∧ stats.recallAt1 = 0 ∧
      stats.mrr = 1 / 2 ∧ stats.Consistent ∧
      computeRetrievalStats .ascii [secondHit, { secondHit with retrievalFailed := true }] =
        some stats := by
  have computed : computeRetrievalStats .ascii [secondHit] = some
      { recallAt1 := meanRecallAtK .ascii [secondHit] 1
        recallAt5 := meanRecallAtK .ascii [secondHit] 5
        recallAt10 := meanRecallAtK .ascii [secondHit] 10
        ndcgAt5 := meanNdcgAtK .ascii [secondHit] 5
        ndcgAt10 := meanNdcgAtK .ascii [secondHit] 10
        mrr := meanReciprocalRank .ascii [secondHit] } := rfl
  obtain ⟨consistent, kept⟩ := retrieval_metrics_consistent .ascii computed
  refine ⟨_, computed, by decide +kernel, by decide +kernel, consistent, ?_⟩
  exact kept [secondHit] [] _ rfl (Or.inr (Or.inl rfl))

end BrainEval.Retrieval
