import Mathlib
import BrainEval.Lib.Grouping
import BrainEval.Score.Judge
import BrainEval.Score.Retrieval

set_option autoImplicit false

namespace BrainEval.Metrics

open RustStr SortBy Grouping Std

structure DimensionMetrics where
  accuracy : ℚ
  count : Nat
  correct : Nat
  partialCredit : Nat
  incorrect : Nat
  deriving DecidableEq

structure AnswerShapeMetrics where
  single : Nat
  singleAccuracy : ℚ
  many : Nat
  manyAccuracy : ℚ
  abstained : Nat
  abstainedAccuracy : ℚ
  errored : Nat
  committed : Nat
  committedPrecision : ℚ
  deriving DecidableEq

structure TokenStats where
  writeAvg : ℚ
  readAvg : ℚ
  totalAvg : ℚ
  grandTotal : Nat
  deriving DecidableEq

structure WriteQualityMetrics where
  totalAttempted : Nat
  totalStored : Nat
  totalDeduplicated : Nat
  storeRate : ℚ
  dedupRate : ℚ
  deriving DecidableEq

structure LatencyStats where
  writeP50Ms : Nat
  writeP95Ms : Nat
  writeMeanMs : Nat
  readP50Ms : Nat
  readP95Ms : Nat
  readMeanMs : Nat
  deriving DecidableEq

structure ContextRecallStats where
  supportedRate : ℚ
  nJudged : Nat
  nSupported : Nat
  deriving DecidableEq

structure EvalMetrics where
  accuracy : ℚ
  perDimension : TreeMap String DimensionMetrics
  totalQuestions : Nat
  correct : Nat
  partialCredit : Nat
  incorrect : Nat
  latency : LatencyStats
  tokens : TokenStats
  contextRecall : Option ContextRecallStats
  retrieval : Option Retrieval.RetrievalStats
  answerShape : AnswerShapeMetrics
  ingestionErrors : Nat
  retrievalErrors : Nat
  writeQuality : WriteQualityMetrics

-- `f64::EPSILON`.
def epsilon : ℚ := 1 / 2 ^ 52

def nearHalf (s : ℚ) : Bool := |s - 1 / 2| < epsilon

def correctCount (scores : List ℚ) : Nat := scores.countP (· = 1)

def partialCreditCount (scores : List ℚ) : Nat := scores.countP nearHalf

def dimensionOf (scores : List ℚ) : DimensionMetrics :=
  let count := scores.length
  let correct := correctCount scores
  let partialCredit := partialCreditCount scores
  { accuracy := scores.sum / count
    count := count
    correct := correct
    partialCredit := partialCredit
    incorrect := count - (correct + partialCredit) }

def aggregateDimensions (results : List JudgeResult) (types : List QuestionType) :
    TreeMap String DimensionMetrics :=
  let byType := groupBy Prod.snd (fun entry : JudgeResult × QuestionType => entry.1.score)
    (results.zip types)
  TreeMap.ofList (byType.toList.map fun (qtype, scores) => (qtype.tag, dimensionOf scores))

def percentile95 (n : Nat) : Nat := min (n * 95 / 100) (n - 1)

def computeLatencyStats (results : List QuestionResult) : LatencyStats :=
  if results.isEmpty then ⟨0, 0, 0, 0, 0, 0⟩
  else
    let n := results.length
    let writeMs := sortByKey id (results.map (·.writeLatencyMs))
    let readMs := sortByKey id (results.map (·.readLatencyMs))
    let p50 := min (n / 2) (n - 1)
    let p95 := percentile95 n
    { writeP50Ms := writeMs.getD p50 0
      writeP95Ms := writeMs.getD p95 0
      writeMeanMs := writeMs.sum / n
      readP50Ms := readMs.getD p50 0
      readP95Ms := readMs.getD p95 0
      readMeanMs := readMs.sum / n }

def computeContextRecall (results : List QuestionResult) : Option ContextRecallStats :=
  let nJudged := results.countP (·.contextSupported.isSome)
  let nSupported := results.countP (·.contextSupported = some true)
  if nJudged = 0 then none
  else some { supportedRate := nSupported / nJudged, nJudged := nJudged, nSupported := nSupported }

def computeTokenStats (results : List QuestionResult) : TokenStats :=
  if results.isEmpty then ⟨0, 0, 0, 0⟩
  else
    let n : ℚ := results.length
    let writeTotal := (results.map (·.tokensWrite)).sum
    let readTotal := (results.map (·.tokensRead)).sum
    let grandTotal := writeTotal + readTotal
    { writeAvg := writeTotal / n
      readAvg := readTotal / n
      totalAvg := grandTotal / n
      grandTotal := grandTotal }

def computeWriteQuality (results : List QuestionResult) : WriteQualityMetrics :=
  let totalAttempted := (results.map (·.writeAttempted)).sum
  let totalStored := (results.map (·.writeStored)).sum
  let totalDeduplicated := (results.map (·.writeDeduplicated)).sum
  { totalAttempted := totalAttempted
    totalStored := totalStored
    totalDeduplicated := totalDeduplicated
    storeRate := if 0 < totalAttempted then totalStored / totalAttempted else 0
    dedupRate := if 0 < totalAttempted then totalDeduplicated / totalAttempted else 0 }

def isDecline (answer : String) : Bool :=
  let trimmed := trim answer
  if trimmed = "" then true else hasDeclinePhrase (toAsciiLowercase trimmed)

structure ShapeTally where
  single : Nat
  many : Nat
  abstained : Nat
  errored : Nat
  committed : Nat
  singleSum : ℚ
  manySum : ℚ
  abstainedSum : ℚ
  singleGraded : Nat
  manyGraded : Nat
  abstainedGraded : Nat
  committedNotWrong : Nat
  committedGraded : Nat

def ShapeTally.zero : ShapeTally := ⟨0, 0, 0, 0, 0, 0, 0, 0, 0, 0, 0, 0, 0⟩

-- The commitment counters, the same in the `single` and the `many` arm.
def ShapeTally.commit (m : ShapeTally) (r : QuestionResult) : ShapeTally :=
  if isDecline r.systemAnswer then m
  else if r.verdict.isGraded then
    { m with
      committed := m.committed + 1
      committedGraded := m.committedGraded + 1
      committedNotWrong := m.committedNotWrong + if r.verdict = .incorrect then 0 else 1 }
  else { m with committed := m.committed + 1 }

def ShapeTally.step (m : ShapeTally) (r : QuestionResult) : ShapeTally :=
  let graded := if r.verdict.isGraded then 1 else 0
  let score := if r.verdict.isGraded then r.score else 0
  match r.answerKind with
  | .single =>
    { m with
      single := m.single + 1
      singleGraded := m.singleGraded + graded
      singleSum := m.singleSum + score }.commit r
  | .many =>
    { m with
      many := m.many + 1
      manyGraded := m.manyGraded + graded
      manySum := m.manySum + score }.commit r
  | .none =>
    { m with
      abstained := m.abstained + 1
      abstainedGraded := m.abstainedGraded + graded
      abstainedSum := m.abstainedSum + score }
  | .error => { m with errored := m.errored + 1 }

def computeAnswerShape (results : List QuestionResult) : AnswerShapeMetrics :=
  let m := results.foldl ShapeTally.step ShapeTally.zero
  let mean (sum : ℚ) (n : Nat) : ℚ := if n = 0 then 0 else sum / n
  { single := m.single
    singleAccuracy := mean m.singleSum m.singleGraded
    many := m.many
    manyAccuracy := mean m.manySum m.manyGraded
    abstained := m.abstained
    abstainedAccuracy := mean m.abstainedSum m.abstainedGraded
    errored := m.errored
    committed := m.committed
    committedPrecision :=
      if m.committedGraded = 0 then 0 else (m.committedNotWrong : ℚ) / m.committedGraded }

noncomputable def computeFullMetrics (U : UnicodeData) (results : List QuestionResult) :
    EvalMetrics :=
  let graded := (results.filter (·.verdict.isGraded)).map (·.score)
  let gradedQuestions := graded.length
  let correct := correctCount graded
  let partialCredit := partialCreditCount graded
  let judgeResults := results.map fun r : QuestionResult =>
    { questionId := r.questionId, verdict := r.verdict, score := r.score,
      reasoning := r.judgeReasoning : JudgeResult }
  let types := results.map (·.questionType)
  { accuracy := if gradedQuestions = 0 then 0 else graded.sum / gradedQuestions
    perDimension := aggregateDimensions judgeResults types
    totalQuestions := results.length
    correct := correct
    partialCredit := partialCredit
    incorrect := gradedQuestions - (correct + partialCredit)
    latency := computeLatencyStats results
    tokens := computeTokenStats results
    contextRecall := computeContextRecall results
    retrieval := Retrieval.computeRetrievalStats U results
    answerShape := computeAnswerShape results
    ingestionErrors := results.countP (·.ingestionFailed)
    retrievalErrors := results.countP (·.retrievalFailed)
    writeQuality := computeWriteQuality results }

end BrainEval.Metrics
