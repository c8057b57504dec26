import Mathlib
import BrainEval.Score.AnswerText

set_option autoImplicit false

namespace BrainEval.Synthesize

open RustStr Harness

/-- Credit for an answer drawn from memories comes from the text of one of them. -/
def CreditIsGrounded (outcome : RecallOutcome) (episodicCap : Nat) (questionId : String)
    (qtype : QuestionType) (groundTruth : String) : Prop :=
  (judgeAnswerHeuristic questionId qtype groundTruth
      (synthesizeAnswer outcome episodicCap)).verdict = .correct →
    outcome.memories ≠ [] →
      ∃ m ∈ outcome.memories,
        contains (toAsciiLowercase m.text) (toAsciiLowercase (trim groundTruth)) = true

theorem judged_answer_correct_iff {outcome : RecallOutcome} (episodicCap : Nat)
    {questionId : String} {qtype : QuestionType} {groundTruth : String}
    (some : outcome.memories ≠ []) (asked : qtype ≠ .abstention) (gold : trim groundTruth ≠ "") :
    (judgeAnswerHeuristic questionId qtype groundTruth
        (synthesizeAnswer outcome episodicCap)).verdict = .correct ↔
      (∃ m ∈ shown outcome episodicCap,
          contains (toAsciiLowercase m.text) (toAsciiLowercase (trim groundTruth)) = true) ∨
        TouchesLabels (shown outcome episodicCap) (toAsciiLowercase (trim groundTruth)) := by
  rw [judgeAnswerHeuristic_correct_iff asked gold]
  exact contains_answer_iff outcome episodicCap some (trim_toAsciiLowercase_trim groundTruth)
    (toAsciiLowercase_eq_empty.not.mpr gold)

theorem credit_is_grounded_iff (outcome : RecallOutcome) (episodicCap : Nat) (questionId : String)
    {qtype : QuestionType} {groundTruth : String} (asked : qtype ≠ .abstention)
    (gold : trim groundTruth ≠ "") :
    CreditIsGrounded outcome episodicCap questionId qtype groundTruth ↔
      (TouchesLabels (shown outcome episodicCap) (toAsciiLowercase (trim groundTruth)) →
        ∃ m ∈ outcome.memories,
          contains (toAsciiLowercase m.text) (toAsciiLowercase (trim groundTruth)) = true) := by
  by_cases some : outcome.memories = []
  · have none : shown outcome episodicCap = [] := by simp [shown, some]
    have clear : ¬ TouchesLabels (shown outcome episodicCap)
        (toAsciiLowercase (trim groundTruth)) := by
      rw [none]
      exact touchesLabels_nil _
    simp [CreditIsGrounded, some, clear]
  · rw [CreditIsGrounded, judged_answer_correct_iff episodicCap some asked gold]
    constructor
    · intro grounded touched
      exact grounded (Or.inr touched) some
    · rintro grounded (⟨m, member, found⟩ | touched) _
      · exact ⟨m, List.mem_of_mem_take member, found⟩
      · exact grounded touched

def sampleMemory (text : String) : MemoryResult where
  memoryId := 1
  text := text
  similarityScore := 0
  fusedScore := 0
  rerankScore := none
  confidence := 1
  contributingRetrievers := [.semantic]
  graph := none

def sampleOutcome (texts : List String) : RecallOutcome := ⟨.many, texts.map sampleMemory, 1⟩

theorem quoted_gold_is_grounded :
    CreditIsGrounded (sampleOutcome ["Ann lives in Paris"]) 10 "q" .singleHop " Paris " :=
  (credit_is_grounded_iff _ _ _ (by decide) (by decide)).mpr fun _ =>
    ⟨sampleMemory "Ann lives in Paris", by simp [sampleOutcome], by decide +kernel⟩

-- A count of one is read off the number of the first line.
theorem list_number_earns_credit :
    (judgeAnswerHeuristic "q" .singleHop "1"
        (synthesizeAnswer (sampleOutcome ["Ann lives in Paris"]) 10)).verdict = .correct ∧
      ¬ CreditIsGrounded (sampleOutcome ["Ann lives in Paris"]) 10 "q" .singleHop "1" := by
  have earned : (judgeAnswerHeuristic "q" .singleHop "1"
      (synthesizeAnswer (sampleOutcome ["Ann lives in Paris"]) 10)).verdict = .correct := by
    decide +kernel
  refine ⟨earned, fun grounded => ?_⟩
  have absent : ¬ ∃ m ∈ (sampleOutcome ["Ann lives in Paris"]).memories,
      contains (toAsciiLowercase m.text) (toAsciiLowercase (trim "1")) = true := by
    decide +kernel
  exact absent (grounded earned (by simp [sampleOutcome]))

end BrainEval.Synthesize
