import Mathlib
import BrainEval.Core.Instance

set_option autoImplicit false

namespace BrainEval

/-- The judge's verdict; `notJudged` is the ungraded state of a retrieval-only run. -/
inductive Verdict where
  | correct
  | partialCredit
  | incorrect
  | notJudged
  deriving DecidableEq, Repr

def Verdict.score : Verdict → ℚ
  | .correct => 1
  | .partialCredit => 1 / 2
  | .incorrect | .notJudged => 0

def Verdict.isGraded (verdict : Verdict) : Bool := verdict != .notJudged

structure JudgeResult where
  questionId : String
  verdict : Verdict
  score : ℚ
  reasoning : String
  deriving DecidableEq

inductive AnswerKind where
  | single
  | many
  | none
  | error
  deriving DecidableEq, Repr

structure QuestionResult where
  questionId : String
  questionType : QuestionType
  question : String
  groundTruth : String
  systemAnswer : String
  answerKind : AnswerKind
  verdict : Verdict
  score : ℚ
  writeLatencyMs : Nat
  readLatencyMs : Nat
  tokensWrite : Nat
  tokensRead : Nat
  memoriesRetrieved : Nat
  retrievedMemoryContents : List String
  judgeReasoning : String
  contextSupported : Option Bool
  contextSupportReasoning : String
  ingestionFailed : Bool
  retrievalFailed : Bool
  writeAttempted : Nat
  writeStored : Nat
  writeDeduplicated : Nat
  deriving DecidableEq

def qr (answerKind : AnswerKind) (verdict : Verdict) (systemAnswer : String) : QuestionResult where
  questionId := "q"
  questionType := .singleHop
  question := ""
  groundTruth := ""
  systemAnswer := systemAnswer
  answerKind := answerKind
  verdict := verdict
  score := verdict.score
  writeLatencyMs := 0
  readLatencyMs := 0
  tokensWrite := 0
  tokensRead := 0
  memoriesRetrieved := 0
  retrievedMemoryContents := []
  judgeReasoning := ""
  contextSupported := none
  contextSupportReasoning := ""
  ingestionFailed := false
  retrievalFailed := false
  writeAttempted := 0
  writeStored := 0
  writeDeduplicated := 0

def QuestionResult.ScoredByVerdict (r : QuestionResult) : Prop := r.score = r.verdict.score

@[simp] theorem Verdict.isGraded_iff {verdict : Verdict} :
    verdict.isGraded = true ↔ verdict ≠ .notJudged := by
  simp [isGraded]

theorem Verdict.score_eq_one {verdict : Verdict} : verdict.score = 1 ↔ verdict = .correct := by
  cases verdict <;> simp [score]

end BrainEval
