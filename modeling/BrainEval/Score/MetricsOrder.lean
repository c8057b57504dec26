import Mathlib
import BrainEval.Score.Dimensions
import BrainEval.Score.Latency
import BrainEval.Score.ShapeLaws

set_option autoImplicit false

namespace BrainEval.Metrics

open RustStr Grouping Std

theorem dimensionOf_perm {scores scores' : List ℚ} (perm : scores.Perm scores') :
    dimensionOf scores = dimensionOf scores' := by
  simp only [dimensionOf, perm.length_eq, perm.sum_eq, correctCount, partialCreditCount,
    perm.countP_eq]

section Order

variable {results other : List QuestionResult} (perm : results.Perm other)

include perm

theorem perDimension_of_perm (U : UnicodeData) :
    (computeFullMetrics U results).perDimension = (computeFullMetrics U other).perDimension := by
  rw [perDimension_eq, perDimension_eq, toList_eq, toList_eq, keys_perm _ _ perm, List.map_map,
    List.map_map]
  congr 1
  apply List.map_congr_left
  intro t _
  have scores := (perm.filter (·.questionType = t)).map (·.score)
  simp only [Function.comp_apply, members, dimensionOf_perm scores]

theorem computeAnswerShape_perm : computeAnswerShape results = computeAnswerShape other := by
  have counts : (computeAnswerShape results).counts = (computeAnswerShape other).counts := by
    simp only [AnswerShapeMetrics.counts, answerShape_counts, perm.countP_eq]
  have rates : (computeAnswerShape results).rates = (computeAnswerShape other).rates := by
    have scores (kind : AnswerKind) : (scoresOf results kind).Perm (scoresOf other kind) :=
      (perm.filter _).map _
    simp only [answerShape_rates, Mean.mean, (scores _).sum_eq, (scores _).length_eq,
      perm.countP_eq]
  simp only [AnswerShapeMetrics.counts, AnswerShapeMetrics.rates, Prod.mk.injEq] at counts rates
  cases left : computeAnswerShape results
  cases right : computeAnswerShape other
  simp_all

theorem computeTokenStats_perm : computeTokenStats results = computeTokenStats other := by
  have empty : results.isEmpty = other.isEmpty := perm.isEmpty_eq
  simp only [computeTokenStats, empty, perm.length_eq, (perm.map (·.tokensWrite)).sum_eq,
    (perm.map (·.tokensRead)).sum_eq]

theorem computeWriteQuality_perm : computeWriteQuality results = computeWriteQuality other := by
  simp only [computeWriteQuality, (perm.map (·.writeAttempted)).sum_eq,
    (perm.map (·.writeStored)).sum_eq, (perm.map (·.writeDeduplicated)).sum_eq]

theorem computeContextRecall_perm : computeContextRecall results = computeContextRecall other := by
  simp only [computeContextRecall, perm.countP_eq]

theorem computeFullMetrics_perm (U : UnicodeData) :
    computeFullMetrics U results = computeFullMetrics U other := by
  have dimensions := perDimension_of_perm perm U
  have graded := (perm.filter (·.verdict.isGraded)).map (·.score)
  simp only [computeFullMetrics] at dimensions ⊢
  simp only [dimensions, graded.length_eq, graded.sum_eq, correctCount, partialCreditCount,
    graded.countP_eq, perm.length_eq, perm.countP_eq, computeLatencyStats_perm perm.symm,
    computeTokenStats_perm perm, computeContextRecall_perm perm,
    Retrieval.computeRetrievalStats_perm U perm, computeAnswerShape_perm perm,
    computeWriteQuality_perm perm]

end Order

theorem shuffled_metrics :
    computeFullMetrics .ascii [qr .single .correct "Paris", qr .none .incorrect "", timed 30] =
      computeFullMetrics .ascii [timed 30, qr .single .correct "Paris", qr .none .incorrect ""] :=
  computeFullMetrics_perm (by decide) .ascii

end BrainEval.Metrics
