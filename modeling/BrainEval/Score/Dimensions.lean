import Mathlib
import BrainEval.Score.Metrics

set_option autoImplicit false

namespace BrainEval.Metrics

open RustStr Grouping Std

theorem nearHalf_score {verdict : Verdict} :
    nearHalf verdict.score = true ↔ verdict = .partialCredit := by
  rw [nearHalf, decide_eq_true_eq]
  cases verdict <;> norm_num [Verdict.score, epsilon] <;> simp

def missed (s : ℚ) : Bool := !decide (s = 1) && !nearHalf s

theorem missed_score (verdict : Verdict) :
    missed verdict.score = true ↔ verdict = .incorrect ∨ verdict = .notJudged := by
  have half : nearHalf verdict.score = decide (verdict = .partialCredit) := by
    rw [Bool.eq_iff_iff, nearHalf_score, decide_eq_true_eq]
  simp only [missed, half, Verdict.score_eq_one]
  cases verdict <;> simp

theorem incorrect_eq (scores : List ℚ) :
    scores.length - (correctCount scores + partialCreditCount scores) = scores.countP missed := by
  have apart : nearHalf 1 = false := by
    rw [nearHalf, decide_eq_false_iff_not]
    norm_num [epsilon]
  have split : scores.length =
      correctCount scores + partialCreditCount scores + scores.countP missed := by
    induction scores with
    | nil => rfl
    | cons s scores ih =>
      simp only [correctCount, partialCreditCount, List.countP_cons, List.length_cons] at ih ⊢
      by_cases one : s = 1
      · subst one
        simp [apart, missed]
        omega
      · cases half : nearHalf s <;> simp [one, half, missed] <;> omega
  omega

def dimensionScores (results : List QuestionResult) (t : QuestionType) : List ℚ :=
  members (·.questionType) (·.score) results t

theorem groupBy_map {α γ β κ : Type} [Ord κ] (f : γ → α) (key : α → κ) (value : α → β)
    (items : List γ) :
    groupBy key value (items.map f) = groupBy (key ∘ f) (value ∘ f) items := by
  simp [groupBy, List.foldl_map]

variable (U : UnicodeData)

theorem perDimension_eq (results : List QuestionResult) :
    (computeFullMetrics U results).perDimension =
      TreeMap.ofList ((groupBy QuestionResult.questionType QuestionResult.score results).toList.map
        fun entry => (entry.1.tag, dimensionOf entry.2)) := by
  simp only [computeFullMetrics, aggregateDimensions, List.zip_map', groupBy_map]
  rfl

theorem tags_nodup (results : List QuestionResult) :
    (((groupBy QuestionResult.questionType QuestionResult.score results).toList.map
      fun entry => (entry.1.tag, dimensionOf entry.2)).map Prod.fst).Nodup := by
  rw [List.map_map, toList_eq, List.map_map]
  exact (keys_nodup _).map QuestionType.tag_injective

theorem perDimension_perm (results : List QuestionResult) :
    (computeFullMetrics U results).perDimension.toList.Perm
      ((groupBy QuestionResult.questionType QuestionResult.score results).toList.map
        fun entry => (entry.1.tag, dimensionOf entry.2)) := by
  rw [perDimension_eq]
  exact toList_ofList_perm _ (tags_nodup results)

-- A dimension is reported exactly for the types that occur, over all scores of its type.
theorem perDimension_iff {results : List QuestionResult} {tag : String} {d : DimensionMetrics} :
    (computeFullMetrics U results).perDimension[tag]? = some d ↔
      ∃ t : QuestionType, tag = t.tag ∧ dimensionScores results t ≠ [] ∧
        d = dimensionOf (dimensionScores results t) := by
  rw [← TreeMap.mem_toList_iff_getElem?_eq_some, (perDimension_perm U results).mem_iff,
    List.mem_map]
  constructor
  · rintro ⟨⟨t, scores⟩, member, same⟩
    obtain ⟨rfl, some⟩ := Grouping.mem_toList.mp member
    simp only [Prod.mk.injEq] at same
    exact ⟨t, same.1.symm, some, same.2.symm⟩
  · rintro ⟨t, rfl, some, rfl⟩
    exact ⟨(t, dimensionScores results t), Grouping.mem_toList.mpr ⟨rfl, some⟩, rfl⟩

theorem sum_dimensions (results : List QuestionResult) (p : ℚ → Bool)
    (part : DimensionMetrics → Nat)
    (counts : ∀ scores, part (dimensionOf scores) = scores.countP p) :
    ((computeFullMetrics U results).perDimension.toList.map fun entry => part entry.2).sum =
      (results.map (·.score)).countP p := by
  have parts := ((perDimension_perm U results).map fun entry => part entry.2).sum_eq
  rw [parts, List.map_map, ← (flatMap_toList_perm QuestionResult.questionType
    QuestionResult.score results).countP_eq, List.countP_flatMap]
  congr 1
  apply List.map_congr_left
  intro entry _
  exact counts entry.2

structure DimensionTotals (m : EvalMetrics) : Prop where
  correct : (m.perDimension.toList.map fun entry => entry.2.correct).sum = m.correct
  partialCredit :
    (m.perDimension.toList.map fun entry => entry.2.partialCredit).sum = m.partialCredit
  incorrect : (m.perDimension.toList.map fun entry => entry.2.incorrect).sum = m.incorrect

def gradedMean (results : List QuestionResult) : ℚ :=
  let graded := (results.filter (·.verdict.isGraded)).map (·.score)
  if graded = [] then 0 else graded.sum / graded.length

def DimensionMeansGraded (results : List QuestionResult) : Prop :=
  ∀ t d, (computeFullMetrics U results).perDimension[t.tag]? = some d →
    d.accuracy = gradedMean (results.filter (·.questionType = t))

def DimensionsKept (before after : TreeMap String DimensionMetrics) : Prop :=
  ∀ (tag : String) (d : DimensionMetrics), before[tag]? = some d →
    ∃ d' : DimensionMetrics, after[tag]? = some d' ∧ d'.accuracy = d.accuracy ∧
      d'.correct = d.correct ∧ d'.partialCredit = d.partialCredit ∧ d'.incorrect = d.incorrect

theorem dimensionScores_cons (r : QuestionResult) (results : List QuestionResult)
    (t : QuestionType) :
    dimensionScores (r :: results) t =
      if r.questionType = t then r.score :: dimensionScores results t
      else dimensionScores results t :=
  members_cons _ _ r results t

theorem dimensionScores_append (before after : List QuestionResult) (t : QuestionType) :
    dimensionScores (before ++ after) t = dimensionScores before t ++ dimensionScores after t := by
  simp [dimensionScores, members]

theorem headline_incorrect (results : List QuestionResult)
    (scored : ∀ x ∈ results, x.ScoredByVerdict) :
    (computeFullMetrics U results).incorrect =
      results.countP fun x => decide (x.verdict = .incorrect) := by
  simp only [computeFullMetrics, incorrect_eq, List.countP_map, List.countP_filter]
  apply List.countP_congr
  intro x member
  have missing := missed_score x.verdict
  rw [← scored x member] at missing
  simp only [Function.comp_apply, Bool.and_eq_true, missing, Verdict.isGraded_iff, ne_eq,
    decide_eq_true_eq]
  cases x.verdict <;> simp

theorem dimensions_incorrect (results : List QuestionResult)
    (scored : ∀ x ∈ results, x.ScoredByVerdict) :
    ((computeFullMetrics U results).perDimension.toList.map fun entry => entry.2.incorrect).sum =
      (results.countP fun x => decide (x.verdict = .incorrect)) +
        results.countP fun x => decide (x.verdict = .notJudged) := by
  -- a zero score is a miss, whether it was judged or not
  rw [sum_dimensions U results missed (·.incorrect) incorrect_eq, List.countP_map]
  induction results with
  | nil => rfl
  | cons x results ih =>
    have missing := missed_score x.verdict
    rw [← scored x List.mem_cons_self] at missing
    have rest := ih fun y member => scored y (List.mem_cons_of_mem x member)
    simp only [List.countP_cons, rest, Function.comp_apply, missing]
    cases x.verdict <;> simp <;> omega

theorem dimensionTotals_iff (results : List QuestionResult)
    (scored : ∀ x ∈ results, x.ScoredByVerdict) :
    DimensionTotals (computeFullMetrics U results) ↔ ∀ x ∈ results, x.verdict ≠ .notJudged := by
  constructor
  · rintro ⟨_, _, same⟩ x member ungraded
    rw [dimensions_incorrect U results scored, headline_incorrect U results scored] at same
    have none : results.countP (fun x => decide (x.verdict = .notJudged)) = 0 := by omega
    simpa [ungraded] using List.countP_eq_zero.mp none x member
  · intro graded
    have all : results.filter (·.verdict.isGraded) = results :=
      List.filter_eq_self.mpr fun x member => Verdict.isGraded_iff.mpr (graded x member)
    refine ⟨?_, ?_, ?_⟩
    · rw [sum_dimensions U results (fun s => decide (s = 1)) (·.correct) fun _ => rfl]
      simp only [computeFullMetrics, all]
      rfl
    · rw [sum_dimensions U results nearHalf (·.partialCredit) fun _ => rfl]
      simp only [computeFullMetrics, all]
      rfl
    · rw [sum_dimensions U results missed (·.incorrect) incorrect_eq]
      simp only [computeFullMetrics, all, incorrect_eq]

theorem dimensionMeansGraded_of_graded (results : List QuestionResult)
    (graded : ∀ x ∈ results, x.verdict ≠ .notJudged) : DimensionMeansGraded U results := by
  intro t d bound
  obtain ⟨t', same, some, rfl⟩ := (perDimension_iff U).mp bound
  obtain rfl := QuestionType.tag_injective same
  have all : (results.filter (·.questionType = t)).filter (·.verdict.isGraded) =
      results.filter (·.questionType = t) :=
    List.filter_eq_self.mpr fun x member =>
      Verdict.isGraded_iff.mpr (graded x (List.mem_of_mem_filter member))
  simp only [gradedMean, all]
  rw [if_neg (by simpa [dimensionScores, members] using some)]
  rfl

theorem dimensionsKept_iff (before after : List QuestionResult) (r : QuestionResult)
    (scored : r.ScoredByVerdict) (ungraded : r.verdict = .notJudged) :
    DimensionsKept (computeFullMetrics U (before ++ after)).perDimension
        (computeFullMetrics U (before ++ r :: after)).perDimension ↔
      ∀ x ∈ before ++ after, x.questionType ≠ r.questionType := by
  constructor
  · intro kept x member same
    have present : dimensionScores (before ++ after) x.questionType ≠ [] := by
      simp only [dimensionScores, members, ne_eq, List.map_eq_nil_iff]
      exact List.ne_nil_of_mem (List.mem_filter.mpr ⟨member, by simp⟩)
    obtain ⟨d', found, _, _, _, equal⟩ := kept x.questionType.tag _
      ((perDimension_iff U).mpr ⟨x.questionType, rfl, present, rfl⟩)
    obtain ⟨t', tags, _, rfl⟩ := (perDimension_iff U).mp found
    obtain rfl := QuestionType.tag_injective tags
    -- the dimension of its type gains one more miss
    have zero : missed r.score = true := by
      rw [scored, missed_score]
      exact Or.inr ungraded
    simp only [dimensionOf, incorrect_eq, dimensionScores_append, dimensionScores_cons, same,
      if_true, List.countP_append, List.countP_cons, zero] at equal
    omega
  · intro fresh tag d bound
    obtain ⟨t, rfl, some, rfl⟩ := (perDimension_iff U).mp bound
    have other : r.questionType ≠ t := by
      rintro rfl
      apply some
      rw [dimensionScores, members, List.map_eq_nil_iff, List.filter_eq_nil_iff]
      intro x member
      simpa using fresh x member
    have same : dimensionScores (before ++ r :: after) t = dimensionScores (before ++ after) t := by
      simp [dimensionScores_append, dimensionScores_cons, other]
    exact ⟨_, (perDimension_iff U).mpr ⟨t, rfl, same ▸ some, rfl⟩, by simp [same]⟩

theorem per_dimension_graded_iff (before after : List QuestionResult) (r : QuestionResult)
    (scored : ∀ x ∈ before ++ r :: after, x.ScoredByVerdict) (ungraded : r.verdict = .notJudged) :
    (DimensionTotals (computeFullMetrics U (before ++ after)) ∧
        DimensionMeansGraded U (before ++ after) ∧
        DimensionsKept (computeFullMetrics U (before ++ after)).perDimension
          (computeFullMetrics U (before ++ r :: after)).perDimension) ↔
      (∀ x ∈ before ++ after, x.verdict ≠ .notJudged) ∧
        ∀ x ∈ before ++ after, x.questionType ≠ r.questionType := by
  have rest : ∀ x ∈ before ++ after, x.ScoredByVerdict := by
    intro x member
    apply scored x
    simp only [List.mem_append, List.mem_cons] at member ⊢
    tauto
  rw [dimensionTotals_iff U _ rest,
    dimensionsKept_iff U before after r (scored r (by simp)) ungraded]
  constructor
  · rintro ⟨graded, _, fresh⟩
    exact ⟨graded, fresh⟩
  · rintro ⟨graded, fresh⟩
    exact ⟨graded, dimensionMeansGraded_of_graded U _ graded, fresh⟩

def gradedQuestion : QuestionResult := qr .single .correct "Berlin"

def ungradedQuestion : QuestionResult := qr .single .notJudged ""

theorem per_dimension_graded_of_new_type :
    DimensionTotals (computeFullMetrics .ascii [gradedQuestion]) ∧
      DimensionMeansGraded .ascii [gradedQuestion] ∧
      DimensionsKept (computeFullMetrics .ascii [gradedQuestion]).perDimension
        (computeFullMetrics .ascii
          [gradedQuestion, { ungradedQuestion with questionType := .multiHop }]).perDimension :=
  (per_dimension_graded_iff .ascii [gradedQuestion] []
    { ungradedQuestion with questionType := .multiHop } (by simp; exact ⟨rfl, rfl⟩) rfl).mpr
    (by decide)

theorem ungraded_question_counts_as_miss :
    (∀ x ∈ [gradedQuestion, ungradedQuestion], x.ScoredByVerdict) ∧
      ¬ DimensionTotals (computeFullMetrics .ascii [gradedQuestion, ungradedQuestion]) ∧
      ¬ DimensionMeansGraded .ascii [gradedQuestion, ungradedQuestion] ∧
      ¬ DimensionsKept (computeFullMetrics .ascii [gradedQuestion]).perDimension
        (computeFullMetrics .ascii [gradedQuestion, ungradedQuestion]).perDimension := by
  have scored : ∀ x ∈ [gradedQuestion, ungradedQuestion], x.ScoredByVerdict := by
    simp
    exact ⟨rfl, rfl⟩
  refine ⟨scored, ?_, ?_, ?_⟩
  · rw [dimensionTotals_iff .ascii _ scored]
    decide
  · intro means
    have half := means .singleHop (dimensionOf [1, 0])
      ((perDimension_iff .ascii).mpr ⟨.singleHop, rfl, by decide, by rfl⟩)
    revert half
    decide +kernel
  · exact fun kept => (dimensionsKept_iff .ascii [gradedQuestion] [] ungradedQuestion rfl rfl).mp
      kept gradedQuestion (by simp) rfl

end BrainEval.Metrics
