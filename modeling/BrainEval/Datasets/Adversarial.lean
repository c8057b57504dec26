import Mathlib
import BrainEval.Datasets.Locomo
import BrainEval.Score.Metrics

set_option autoImplicit false

namespace BrainEval.Locomo

open RustStr Metrics

/-- The judge on one expanded question, as the guidance for unanswerable questions has it: a
declining answer is right, a repeated adversarial answer wrong. -/
structure ScoredAsUnanswerable (inst : EvalInstance) (qa : LocomoQa) : Prop where
  declines : ∀ systemAnswer, (systemAnswer = "" ∨ hasDeclinePhrase (toAsciiLowercase systemAnswer) =
    true) → (judgeAnswerHeuristic inst.questionId inst.questionType inst.answer
      systemAnswer).verdict = .correct
  repeats : qa.adversarialAnswer ≠ "" →
    hasDeclinePhrase (toAsciiLowercase qa.adversarialAnswer) = false →
      (judgeAnswerHeuristic inst.questionId inst.questionType inst.answer
        qa.adversarialAnswer).verdict = .incorrect

structure Blank (qa : LocomoQa) : Prop where
  answer : trim (if qa.answer = "" then qa.adversarialAnswer else qa.answer) = ""
  adversarial : qa.adversarialAnswer = "" ∨ trim qa.adversarialAnswer ≠ ""

section Unanswerable

variable {questionId : String} {qtype : QuestionType} {groundTruth : String}
  (expected : qtype = .abstention ∨ trim groundTruth = "")

include expected

theorem declining_is_correct {systemAnswer : String}
    (declined : systemAnswer = "" ∨ hasDeclinePhrase (toAsciiLowercase systemAnswer) = true) :
    (judgeAnswerHeuristic questionId qtype groundTruth systemAnswer).verdict = .correct := by
  rw [judgeAnswerHeuristic_unanswerable expected, hasDeclinePhrase_trim, if_pos]
  rcases declined with rfl | phrase
  · exact Or.inl trim_empty
  · exact Or.inr phrase

theorem asserting_incorrect_iff {systemAnswer : String}
    (plain : hasDeclinePhrase (toAsciiLowercase systemAnswer) = false) :
    (judgeAnswerHeuristic questionId qtype groundTruth systemAnswer).verdict = .incorrect ↔
      trim systemAnswer ≠ "" := by
  rw [judgeAnswerHeuristic_unanswerable expected, hasDeclinePhrase_trim]
  simp [plain]

end Unanswerable

theorem hasDeclinePhrase_blank {s : String} (blank : trim s = "") :
    hasDeclinePhrase (toAsciiLowercase s) = false := by
  rw [← hasDeclinePhrase_trim, blank]
  decide +kernel

theorem getElem_expandInto {sample : LocomoSample} {idx : Nat} {qa : LocomoQa}
    (asked : sample.qa[idx]? = some qa) :
    ∃ inst, (sample.expandInto [])[idx]? = some inst ∧
      inst.questionType = mapCategory qa.category ∧
      inst.answer = if qa.answer = "" then qa.adversarialAnswer else qa.answer := by
  simp [LocomoSample.expandInto, asked]

-- A declining answer to a question with a ground truth never contains it unless by accident, and
-- the empty one never does.
theorem scored_as_unanswerable_iff {sample : LocomoSample} {idx : Nat} {qa : LocomoQa}
    (asked : sample.qa[idx]? = some qa) (adversarial : qa.category = some 5) {inst : EvalInstance}
    (expanded : (sample.expandInto [])[idx]? = some inst) :
    ScoredAsUnanswerable inst qa ↔ Blank qa := by
  obtain ⟨inst', found, qtype, answer⟩ := getElem_expandInto asked
  obtain rfl : inst' = inst := Option.some.inj (found.symm.trans expanded)
  have noGold (blank : trim inst'.answer = "") :
      inst'.questionType = .abstention ∨ trim inst'.answer = "" :=
    Or.inr blank
  constructor
  · rintro ⟨declines, repeats⟩
    have gold : trim inst'.answer = "" := by
      have empty := declines "" (Or.inl rfl)
      rw [judgeAnswerHeuristic_empty, qtype, adversarial] at empty
      simpa [mapCategory] using empty
    refine ⟨answer ▸ gold, ?_⟩
    by_contra blanks
    obtain ⟨nonempty, blank⟩ := not_or.mp blanks
    have blank := not_not.mp blank
    have plain := hasDeclinePhrase_blank blank
    exact (asserting_incorrect_iff (noGold gold) plain).mp (repeats nonempty plain) blank
  · rintro ⟨gold, adversarialAnswer⟩
    rw [← answer] at gold
    refine ⟨fun systemAnswer => declining_is_correct (noGold gold), fun nonempty plain => ?_⟩
    exact (asserting_incorrect_iff (noGold gold) plain).mpr
      (adversarialAnswer.resolve_left nonempty)

def askedOf (qa : LocomoQa) : LocomoSample := ⟨"sample-0", ∅, [qa]⟩

theorem question_without_gold_is_unanswerable :
    ∃ inst, ((askedOf ⟨"Where does Ann live?", "", "", some 5⟩).expandInto [])[0]? = some inst ∧
      ScoredAsUnanswerable inst ⟨"Where does Ann live?", "", "", some 5⟩ := by
  have asked : (askedOf ⟨"Where does Ann live?", "", "", some 5⟩).qa[0]? =
      some ⟨"Where does Ann live?", "", "", some 5⟩ := rfl
  obtain ⟨inst, expanded, -⟩ := getElem_expandInto asked
  refine ⟨inst, expanded, (scored_as_unanswerable_iff asked rfl expanded).mpr ⟨?_, Or.inl rfl⟩⟩
  decide

def adversarialQa : LocomoQa := ⟨"Where does Ann's sister live?", "", "Paris", some 5⟩

def adversarialInstance : EvalInstance where
  questionId := "sample-0-0000"
  question := "Where does Ann's sister live?"
  answer := "Paris"
  questionType := .adversarial
  conversationId := some "sample-0"
  sessions := []

-- The trap answer stands in for the gold: falling for it is credited, declining is not.
theorem trap_answer_is_credited :
    ((askedOf adversarialQa).expandInto [])[0]? = some adversarialInstance ∧
      (judgeAnswerHeuristic "sample-0-0000" .adversarial "Paris" "Paris").verdict = .correct ∧
      (judgeAnswerHeuristic "sample-0-0000" .adversarial "Paris" "I don't know.").verdict =
        .incorrect ∧
      ¬ ScoredAsUnanswerable adversarialInstance adversarialQa := by
  have trapped : (judgeAnswerHeuristic "sample-0-0000" .adversarial "Paris" "Paris").verdict =
      .correct := by
    decide +kernel
  refine ⟨by decide +kernel, trapped, by decide +kernel, fun scored => ?_⟩
  have wrong := scored.repeats (by decide) (by decide +kernel)
  exact absurd (trapped.symm.trans wrong) (by decide)

end BrainEval.Locomo
