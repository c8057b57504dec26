import Mathlib
import BrainEval.Score.Retrieval

set_option autoImplicit false

namespace BrainEval.Retrieval

open RustStr Ranking

def HasRelevant (U : UnicodeData) (r : QuestionResult) : Prop :=
  ∃ c ∈ r.retrievedMemoryContents,
    contains (toLowercase U c) (toLowercase U r.groundTruth) = true

instance (U : UnicodeData) (r : QuestionResult) : Decidable (HasRelevant U r) :=
  inferInstanceAs (Decidable (∃ c ∈ r.retrievedMemoryContents,
    contains (toLowercase U c) (toLowercase U r.groundTruth) = true))

noncomputable def textbookScore (U : UnicodeData) (k : Nat) (r : QuestionResult)
    (ground : String) : ℝ :=
  Scale.ndcgAtK (r.retrievedMemoryContents.map fun c =>
    if contains (toLowercase U c) ground then 1 else 0) k

noncomputable def textbookMeanNdcg (U : UnicodeData) (results : List QuestionResult)
    (k : Nat) : ℝ :=
  meanOver U (textbookScore U k) results

theorem dcg_filter (ids : List String) (isRelevant : String → Bool) (k : Nat) :
    ((ids.take k).zipIdx.map fun ranked =>
      (if (ids.filter isRelevant).contains ranked.1 then 1 else 0) / discount ranked.2).sum =
      discountedFrom 0 (((ids.map isRelevant).take k).map gain) := by
  rw [discountedFrom, ← List.map_take, List.map_map, List.zipIdx_map, List.map_map]
  congr 1
  apply List.map_congr_left
  rintro ⟨id, i⟩ ranked
  have known : id ∈ ids := List.mem_of_mem_take (List.fst_mem_of_mem_zipIdx ranked)
  simp [gain, known]

theorem idcg_eq (ones : Nat) :
    ((List.range ones).map fun i => 1 / discount i).sum =
      discountedFrom 0 (List.replicate ones 1) := by
  rw [discountedFrom_ones]
  simp

theorem count_true_map (ids : List String) (isRelevant : String → Bool) :
    (ids.map isRelevant).count true = (ids.filter isRelevant).length := by
  rw [List.count_eq_countP, List.countP_map, List.countP_eq_length_filter]
  congr 1
  apply List.filter_congr
  intro id _
  simp

theorem ndcgAtK_eq_scale (ids : List String) (isRelevant : String → Bool) (k : Nat)
    (found : ids.filter isRelevant ≠ []) :
    ndcgAtK ids (ids.filter isRelevant) k =
      Scale.ndcgAtK ((ids.map isRelevant).map gain) k := by
  rw [Scale.ndcgAtK_binary, ndcgAtK, if_neg (by simpa using found), count_true_map]
  simp only [dcg_filter, idcg_eq]

variable (U : UnicodeData)

theorem relevant_eq_nil {r : QuestionResult} :
    ((r.retrievedMemoryContents.map (toLowercase U)).filter fun c =>
      contains c (toLowercase U r.groundTruth)) = [] ↔ ¬ HasRelevant U r := by
  simp [HasRelevant]

theorem textbookScore_eq (k : Nat) (r : QuestionResult) (ground : String) :
    textbookScore U k r ground =
      Scale.ndcgAtK (((r.retrievedMemoryContents.map (toLowercase U)).map fun c =>
        contains c ground).map gain) k := by
  simp [textbookScore, gain, Function.comp_def]

theorem ndcgScore_of_relevant (k : Nat) (r : QuestionResult) (relevant : HasRelevant U r) :
    ndcgScore U k r (toLowercase U r.groundTruth) =
      textbookScore U k r (toLowercase U r.groundTruth) := by
  rw [textbookScore_eq]
  apply ndcgAtK_eq_scale
  intro empty
  exact (relevant_eq_nil U).mp empty relevant

theorem ndcgScore_of_irrelevant (k : Nat) (r : QuestionResult) (irrelevant : ¬ HasRelevant U r) :
    ndcgScore U k r (toLowercase U r.groundTruth) = 1 ∧
      textbookScore U k r (toLowercase U r.groundTruth) = 0 := by
  have empty := (relevant_eq_nil U).mpr irrelevant
  constructor
  · simp [ndcgScore, ndcgAtK, empty]
  · rw [textbookScore_eq]
    apply Scale.ndcgAtK_none_relevant
    rw [count_true_map, empty, List.length_nil]

theorem ndcgScore_eq_textbook_add (k : Nat) (r : QuestionResult) :
    ndcgScore U k r (toLowercase U r.groundTruth) =
      textbookScore U k r (toLowercase U r.groundTruth) + if HasRelevant U r then 0 else 1 := by
  by_cases relevant : HasRelevant U r
  · simp [relevant, ndcgScore_of_relevant]
  · obtain ⟨one, zero⟩ := ndcgScore_of_irrelevant U k r relevant
    simp [relevant, one, zero]

-- The reported mean exceeds the textbook mean by the share of questions that retrieved nothing
-- relevant.
theorem meanNdcgAtK_eq (results : List QuestionResult) (k : Nat) :
    meanNdcgAtK U results k = textbookMeanNdcg U results k +
      ((population U results).countP fun r => !decide (HasRelevant U r) : Nat) /
        ((population U results).length : ℝ) := by
  have missing (counted : List QuestionResult) :
      (counted.map fun r => if HasRelevant U r then (0 : ℝ) else 1).sum =
        (counted.countP fun r => !decide (HasRelevant U r) : Nat) := by
    induction counted with
    | nil => simp
    | cons r counted ih =>
      by_cases relevant : HasRelevant U r <;> simp [relevant, ih, add_comm]
  rw [meanNdcgAtK, textbookMeanNdcg, meanOver_eq, meanOver_eq, ← missing, ← add_div,
    ← List.sum_map_add]
  simp only [ndcgScore_eq_textbook_add U k]

theorem irrelevant_elsewhere (k : Nat) (r : QuestionResult) (irrelevant : ¬ HasRelevant U r) :
    recallScore U k r (toLowercase U r.groundTruth) = 0 ∧
      reciprocalRankScore U r (toLowercase U r.groundTruth) = 0 := by
  simp only [HasRelevant, not_exists, not_and, Bool.not_eq_true] at irrelevant
  constructor
  · have missed : ((r.retrievedMemoryContents.take k).any fun c =>
        contains (toLowercase U c) (toLowercase U r.groundTruth)) = false := by
      rw [List.any_eq_false]
      intro c ranked
      simp [irrelevant c (List.mem_of_mem_take ranked)]
    simp [recallScore, missed]
  · have missed : (r.retrievedMemoryContents.map (toLowercase U)).findIdx?
        (fun c => contains c (toLowercase U r.groundTruth)) = none := by
      simpa [List.findIdx?_eq_none_iff] using irrelevant
    simp [reciprocalRankScore, reciprocalRank, missed]

theorem meanNdcg_agrees_iff (results : List QuestionResult) (k : Nat) :
    (meanNdcgAtK U results k = textbookMeanNdcg U results k ↔
        ∀ r ∈ population U results, HasRelevant U r) ∧
      ((∀ r ∈ population U results, ¬ HasRelevant U r →
          ndcgScore U k r (toLowercase U r.groundTruth) = 0) ↔
        ∀ r ∈ population U results, HasRelevant U r) ∧
      ∀ r ∈ population U results, ¬ HasRelevant U r →
        recallScore U k r (toLowercase U r.groundTruth) = 0 ∧
          reciprocalRankScore U r (toLowercase U r.groundTruth) = 0 := by
  refine ⟨?_, ⟨fun zero r counted => ?_, fun relevant r counted irrelevant =>
    absurd (relevant r counted) irrelevant⟩, fun r _ => irrelevant_elsewhere U k r⟩
  · rw [meanNdcgAtK_eq, add_eq_left, div_eq_zero_iff, Nat.cast_eq_zero, Nat.cast_eq_zero,
      List.countP_eq_zero, List.length_eq_zero_iff]
    constructor
    · rintro (relevant | none) r counted
      · simpa using relevant r counted
      · simp [none] at counted
    · intro relevant
      left
      intro r counted
      simp [relevant r counted]
  · by_contra irrelevant
    have one := (ndcgScore_of_irrelevant U k r irrelevant).1
    rw [zero r counted irrelevant] at one
    exact zero_ne_one one

def missedQuestion : QuestionResult :=
  { qr .single .incorrect "1. Berlin" with
    groundTruth := "Paris"
    memoriesRetrieved := 1
    retrievedMemoryContents := ["Berlin"] }

theorem missed_question_scores_one :
    1 ≤ 5 ∧ meanNdcgAtK .ascii [missedQuestion] 5 = 1 ∧
      textbookMeanNdcg .ascii [missedQuestion] 5 = 0 ∧
      meanRecallAtK .ascii [missedQuestion] 5 = 0 ∧
      meanReciprocalRank .ascii [missedQuestion] = 0 := by
  have counted : population .ascii [missedQuestion] = [missedQuestion] := by decide
  have irrelevant : ¬ HasRelevant .ascii missedQuestion := by decide
  obtain ⟨one, zero⟩ := ndcgScore_of_irrelevant .ascii 5 missedQuestion irrelevant
  obtain ⟨hits, rank⟩ := irrelevant_elsewhere .ascii 5 missedQuestion irrelevant
  refine ⟨by decide, ?_, ?_, ?_, ?_⟩
  · simp [meanNdcgAtK, meanOver_eq, counted, one]
  · simp [textbookMeanNdcg, meanOver_eq, counted, zero]
  · simp [meanRecallAtK, meanOver_eq, counted, hits]
  · simp [meanReciprocalRank, meanOver_eq, counted, rank]

end BrainEval.Retrieval
