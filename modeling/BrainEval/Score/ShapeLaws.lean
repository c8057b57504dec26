import Mathlib
import BrainEval.Lib.Mean
import BrainEval.Score.AnswerShape

set_option autoImplicit false

namespace BrainEval.Metrics

open Mean

def gradedOf (kind : AnswerKind) (r : QuestionResult) : Bool :=
  ofKind kind r && r.verdict.isGraded

def committedGraded (r : QuestionResult) : Bool := isCommitted r && r.verdict.isGraded

def committedNotWrong (r : QuestionResult) : Bool :=
  committedGraded r && r.verdict != .incorrect

def AnswerShapeMetrics.counts (m : AnswerShapeMetrics) : ℕ × ℕ × ℕ × ℕ × ℕ :=
  (m.single, m.many, m.abstained, m.errored, m.committed)

def AnswerShapeMetrics.rates (m : AnswerShapeMetrics) : ℚ × ℚ × ℚ × ℚ :=
  (m.singleAccuracy, m.manyAccuracy, m.abstainedAccuracy, m.committedPrecision)

/-- The second list is the first with any number of ungraded results put in, anywhere. -/
inductive UngradedAdded : List QuestionResult → List QuestionResult → Prop where
  | nil : UngradedAdded [] []
  | keep (r : QuestionResult) {before after : List QuestionResult}
    (rest : UngradedAdded before after) : UngradedAdded (r :: before) (r :: after)
  | add {r : QuestionResult} (ungraded : r.verdict = .notJudged)
    {before after : List QuestionResult} (rest : UngradedAdded before after) :
    UngradedAdded before (r :: after)

structure ShapeLaws (results : List QuestionResult) : Prop where
  conserved :
    (computeAnswerShape results).single + (computeAnswerShape results).many +
      (computeAnswerShape results).abstained + (computeAnswerShape results).errored =
        results.length
  committed_le :
    (computeAnswerShape results).committed ≤
      (computeAnswerShape results).single + (computeAnswerShape results).many
  additive : ∀ more, (computeAnswerShape (results ++ more)).counts =
    (computeAnswerShape results).counts + (computeAnswerShape more).counts
  rates_within : (∀ r ∈ results, 0 ≤ r.score ∧ r.score ≤ 1) →
    0 ≤ (computeAnswerShape results).rates ∧ (computeAnswerShape results).rates ≤ 1
  ungraded_added : ∀ after, UngradedAdded results after →
    (computeAnswerShape after).rates = (computeAnswerShape results).rates

section Step

variable (m : ShapeTally) (r : QuestionResult)

-- A commitment changes none of the sums, and counts for the precision when it is graded.
theorem commit_rates :
    (m.commit r).singleSum = m.singleSum ∧ (m.commit r).singleGraded = m.singleGraded ∧
      (m.commit r).manySum = m.manySum ∧ (m.commit r).manyGraded = m.manyGraded ∧
      (m.commit r).abstainedSum = m.abstainedSum ∧
      (m.commit r).abstainedGraded = m.abstainedGraded ∧
      (m.commit r).committedGraded = m.committedGraded +
        (if !isDecline r.systemAnswer && r.verdict.isGraded then 1 else 0) ∧
      (m.commit r).committedNotWrong = m.committedNotWrong +
        if !isDecline r.systemAnswer && r.verdict.isGraded && r.verdict != .incorrect then 1
        else 0 := by
  unfold ShapeTally.commit
  by_cases declined : isDecline r.systemAnswer = true
  next => simp [declined]
  next =>
    rw [if_neg declined]
    cases r.verdict <;> simp [declined, Verdict.isGraded]

theorem step_rates :
    (m.step r).singleSum = m.singleSum + (if gradedOf .single r then r.score else 0) ∧
      (m.step r).singleGraded = m.singleGraded + (if gradedOf .single r then 1 else 0) ∧
      (m.step r).manySum = m.manySum + (if gradedOf .many r then r.score else 0) ∧
      (m.step r).manyGraded = m.manyGraded + (if gradedOf .many r then 1 else 0) ∧
      (m.step r).abstainedSum = m.abstainedSum + (if gradedOf .none r then r.score else 0) ∧
      (m.step r).abstainedGraded = m.abstainedGraded + (if gradedOf .none r then 1 else 0) ∧
      (m.step r).committedGraded = m.committedGraded + (if committedGraded r then 1 else 0) ∧
      (m.step r).committedNotWrong = m.committedNotWrong +
        if committedNotWrong r then 1 else 0 := by
  unfold ShapeTally.step gradedOf committedNotWrong committedGraded isCommitted ofKind
  cases r.answerKind <;> simp [commit_rates]

end Step

section Run

variable (results : List QuestionResult)

-- The scores that an accuracy is the mean of.
def scoresOf (kind : AnswerKind) : List ℚ := (results.filter (gradedOf kind)).map (·.score)

theorem scoresOf_cons (kind : AnswerKind) (r : QuestionResult) :
    scoresOf (r :: results) kind =
      if gradedOf kind r then r.score :: scoresOf results kind else scoresOf results kind := by
  by_cases graded : gradedOf kind r = true <;> simp [scoresOf, graded]

theorem foldl_step_rates (m : ShapeTally) :
    (results.foldl ShapeTally.step m).singleSum = m.singleSum + (scoresOf results .single).sum ∧
      (results.foldl ShapeTally.step m).singleGraded =
        m.singleGraded + (scoresOf results .single).length ∧
      (results.foldl ShapeTally.step m).manySum = m.manySum + (scoresOf results .many).sum ∧
      (results.foldl ShapeTally.step m).manyGraded =
        m.manyGraded + (scoresOf results .many).length ∧
      (results.foldl ShapeTally.step m).abstainedSum =
        m.abstainedSum + (scoresOf results .none).sum ∧
      (results.foldl ShapeTally.step m).abstainedGraded =
        m.abstainedGraded + (scoresOf results .none).length ∧
      (results.foldl ShapeTally.step m).committedGraded =
        m.committedGraded + results.countP committedGraded ∧
      (results.foldl ShapeTally.step m).committedNotWrong =
        m.committedNotWrong + results.countP committedNotWrong := by
  induction results generalizing m with
  | nil => simp [scoresOf]
  | cons r results ih =>
    rw [List.foldl_cons]
    simp only [ih, step_rates, scoresOf_cons, List.countP_cons]
    refine ⟨?_, ?_, ?_, ?_, ?_, ?_, by omega, by omega⟩ <;> split_ifs <;> simp <;> ring

theorem answerShape_rates :
    (computeAnswerShape results).rates =
      (mean (scoresOf results .single), mean (scoresOf results .many),
        mean (scoresOf results .none),
        (results.countP committedNotWrong : ℚ) / results.countP committedGraded) := by
  have guarded (sum : ℚ) (n : ℕ) : (if n = 0 then 0 else sum / n) = sum / n := by
    split
    next none => simp [none]
    next => rfl
  simp only [AnswerShapeMetrics.rates, computeAnswerShape, foldl_step_rates, ShapeTally.zero,
    zero_add, guarded, mean]

theorem rates_within (within : ∀ r ∈ results, 0 ≤ r.score ∧ r.score ≤ 1) :
    0 ≤ (computeAnswerShape results).rates ∧ (computeAnswerShape results).rates ≤ 1 := by
  have scores (kind : AnswerKind) : ∀ x ∈ scoresOf results kind, 0 ≤ x ∧ x ≤ 1 := by
    refine List.forall_mem_map.mpr fun r member => within r (List.mem_of_mem_filter member)
  have low (kind : AnswerKind) : 0 ≤ mean (scoresOf results kind) :=
    mean_nonneg fun x member => (scores kind x member).1
  have high (kind : AnswerKind) : mean (scoresOf results kind) ≤ 1 :=
    mean_le_of_nonneg zero_le_one fun x member => (scores kind x member).2
  have fewer : results.countP committedNotWrong ≤ results.countP committedGraded :=
    List.countP_mono_left fun r _ notWrong => (Bool.and_eq_true_iff.mp notWrong).1
  rw [answerShape_rates]
  refine ⟨⟨low _, low _, low _, ?_⟩, ⟨high _, high _, high _, ?_⟩⟩
  · exact div_nonneg (Nat.cast_nonneg _) (Nat.cast_nonneg _)
  · exact div_le_one_of_le₀ (Nat.cast_le.mpr fewer) (Nat.cast_nonneg _)

theorem answerShape_rates_filter :
    (computeAnswerShape (results.filter (·.verdict.isGraded))).rates =
      (computeAnswerShape results).rates := by
  have scores (kind : AnswerKind) :
      scoresOf (results.filter (·.verdict.isGraded)) kind = scoresOf results kind := by
    rw [scoresOf, scoresOf, List.filter_filter]
    congr 2
    funext r
    simp [gradedOf]
  have graded (p : QuestionResult → Bool) (only : ∀ r, p r = true → r.verdict.isGraded = true) :
      (results.filter (·.verdict.isGraded)).countP p = results.countP p := by
    rw [List.countP_filter]
    congr 1
    funext r
    rw [Bool.and_eq_left_iff_imp]
    exact only r
  rw [answerShape_rates, answerShape_rates, scores, scores, scores, graded, graded]
  · exact fun r counted => (Bool.and_eq_true_iff.mp counted).2
  · intro r counted
    exact (Bool.and_eq_true_iff.mp (Bool.and_eq_true_iff.mp counted).1).2

end Run

section Kinds

variable (results : List QuestionResult)

-- Every result has one of the four kinds, and a committed one the first or the second.
theorem countP_kinds :
    results.countP (ofKind .single) + results.countP (ofKind .many) +
      results.countP (ofKind .none) + results.countP (ofKind .error) = results.length := by
  induction results with
  | nil => rfl
  | cons r results ih =>
    simp only [List.countP_cons, List.length_cons, ← ih]
    cases kind : r.answerKind <;> simp [ofKind, kind] <;> omega

theorem countP_committed_le :
    results.countP isCommitted ≤
      results.countP (ofKind .single) + results.countP (ofKind .many) := by
  induction results with
  | nil => exact Nat.le_refl 0
  | cons r results ih =>
    simp only [List.countP_cons]
    by_cases declined : isDecline r.systemAnswer = true <;> cases kind : r.answerKind <;>
      simp [ofKind, isCommitted, kind, declined] <;> omega

end Kinds

theorem UngradedAdded.filter_eq {before after : List QuestionResult}
    (added : UngradedAdded before after) :
    after.filter (·.verdict.isGraded) = before.filter (·.verdict.isGraded) := by
  induction added with
  | nil => rfl
  | keep r rest ih => rw [List.filter_cons, List.filter_cons, ih]
  | add ungraded rest ih => simpa [ungraded] using ih

theorem answer_shape_laws (results : List QuestionResult) : ShapeLaws results where
  conserved := by
    obtain ⟨single, many, abstained, errored, -⟩ := answerShape_counts results
    rw [single, many, abstained, errored, countP_kinds]
  committed_le := by
    obtain ⟨single, many, -, -, committed⟩ := answerShape_counts results
    rw [single, many, committed]
    exact countP_committed_le results
  additive more := by
    have here := answerShape_counts results
    have there := answerShape_counts more
    have both := answerShape_counts (results ++ more)
    simp only [AnswerShapeMetrics.counts, here, there, both, List.countP_append, Prod.mk_add_mk]
  rates_within := rates_within results
  ungraded_added after added := by
    rw [← answerShape_rates_filter after, added.filter_eq, answerShape_rates_filter]

end BrainEval.Metrics
