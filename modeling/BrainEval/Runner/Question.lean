import Mathlib
import BrainEval.Runner.Ingest

set_option autoImplicit false

namespace BrainEval.Runner

open Harness Report

def failedQuestionResult (inst : EvalInstance) (reason : String) (ingestFailed : Bool) :
    QuestionResult where
  questionId := inst.questionId
  questionType := inst.questionType
  question := inst.question
  groundTruth := inst.answer
  systemAnswer := ""
  answerKind := .error
  verdict := .incorrect
  score := 0
  writeLatencyMs := 0
  readLatencyMs := 0
  tokensWrite := 0
  tokensRead := 0
  memoriesRetrieved := 0
  retrievedMemoryContents := []
  judgeReasoning := reason
  contextSupported := none
  contextSupportReasoning := ""
  ingestionFailed := ingestFailed
  retrievalFailed := !ingestFailed
  writeAttempted := 0
  writeStored := 0
  writeDeduplicated := 0

def failedRecord (r : QuestionResult) : QuestionRecord := ⟨r, [], none, none⟩

def answerKindFromWire : AnswerKindWire → AnswerKind
  | .single => .single
  | .many => .many
  | .none => .none

/-- What one RECALL and its synthesis leave: the outcome's arm of `run_question`, or the error's. -/
structure Reading where
  answerKind : AnswerKind
  retrieved : List RetrievedMemory
  readLatencyMs : Nat
  retrievalFailed : Bool
  systemAnswer : String

def attachGraph (retrieved : List RetrievedMemory) (m : MemoryResult) : List RetrievedMemory :=
  match m.graph with
  | none => retrieved
  | some g =>
    -- only the first retrieved memory with the id takes the graph
    let id := toString m.memoryId
    retrieved.modify (retrieved.findIdx (·.memoryId = id)) fun rm =>
      { rm with graph := some (.fromWire g) }

structure QuestionRun where
  result : QuestionResult
  retrieved : List RetrievedMemory
  failStage : Option FailStage
  planTrace : Option PlanTrace

def QuestionRun.record (q : QuestionRun) : QuestionRecord :=
  ⟨q.result, q.retrieved, q.failStage, q.planTrace⟩

namespace Run

variable (run : Run)

def recallOutcome (idx : Nat) : Except HarnessError RecallOutcome :=
  recallScoped (run.world.questionRecall idx) (run.world.recallMs idx) (run.inst idx).question
    run.config.maxResults .space

def reading (idx : Nat) : Reading :=
  match run.recallOutcome idx with
  | .ok outcome =>
    { answerKind := answerKindFromWire outcome.answerKind
      retrieved := outcome.memories.map .fromWire
      readLatencyMs := outcome.latencyMs
      retrievalFailed := false
      systemAnswer :=
        if run.config.retrievalOnly then ""
        else run.synth.synthesize idx outcome run.config.maxResults }
  -- the error is recorded, and the question goes on to the judge
  | .error _ => ⟨.error, [], 0, true, ""⟩

def capturePlanTrace (idx : Nat) : Option PlanTrace :=
  (run.world.queryTrace idx (run.inst idx).question run.config.maxResults).toOption

def attachRetrievedGraph (idx : Nat) (retrieved : List RetrievedMemory) : List RetrievedMemory :=
  match run.world.questionRecall idx
      ⟨(run.inst idx).question, run.config.maxResults, true, true, .space⟩ with
  | .ok enriched => enriched.memories.foldl attachGraph retrieved
  | .error _ => retrieved

def verdictOn (idx : Nat) (systemAnswer : String) : JudgeResult :=
  if run.config.retrievalOnly then
    { questionId := (run.inst idx).questionId
      verdict := .notJudged
      score := Verdict.notJudged.score
      reasoning := "retrieval-only run: no answer synthesised, nothing judged" }
  else run.judge.grade idx (run.inst idx) systemAnswer

def runQuestion (idx : Nat) (cw : ConvWrite) : QuestionRun :=
  let inst := run.inst idx
  let r := run.reading idx
  let traced := run.fullTrace && !r.retrievalFailed
  let planTrace := if traced then run.capturePlanTrace idx else none
  let retrieved := if traced then run.attachRetrievedGraph idx r.retrieved else r.retrieved
  let contents := retrieved.map (·.text)
  let judged := run.verdictOn idx r.systemAnswer
  let ungraded := r.retrievalFailed || run.config.retrievalOnly
  let support := if ungraded then (none, "") else run.judge.gradeSupport idx contents
  let failStage :=
    if ungraded then none
    else FailStage.attribute (judged.verdict = .correct) contents.length support.1
  { result :=
      { questionId := inst.questionId
        questionType := inst.questionType
        question := inst.question
        groundTruth := inst.answer
        systemAnswer := r.systemAnswer
        answerKind := r.answerKind
        verdict := judged.verdict
        score := judged.score
        writeLatencyMs := cw.latencyMs
        readLatencyMs := r.readLatencyMs
        tokensWrite := 0
        tokensRead := 0
        memoriesRetrieved := contents.length
        retrievedMemoryContents := contents
        judgeReasoning := judged.reasoning
        contextSupported := support.1
        contextSupportReasoning := support.2
        ingestionFailed := cw.ingestFailed
        retrievalFailed := r.retrievalFailed
        writeAttempted := cw.attempted
        writeStored := cw.stored
        writeDeduplicated := cw.deduplicated }
    retrieved := retrieved
    failStage := failStage
    planTrace := planTrace }

end Run

theorem map_modify_of_eq {α β : Type} (f : α → β) (g : α → α) (same : ∀ a, f (g a) = f a)
    (items : List α) (i : Nat) : (items.modify i g).map f = items.map f := by
  induction items generalizing i with
  | nil => simp
  | cons item items ih => cases i <;> simp [same, ih]

theorem attachGraph_text (retrieved : List RetrievedMemory) (m : MemoryResult) :
    (attachGraph retrieved m).map (·.text) = retrieved.map (·.text) := by
  unfold attachGraph
  split
  · rfl
  · next g _ =>
    exact map_modify_of_eq RetrievedMemory.text
      (fun rm => { rm with graph := some (MemoryGraph.fromWire g) }) (fun _ => rfl) retrieved _

namespace Run

variable (run : Run)

theorem attachRetrievedGraph_text (idx : Nat) (retrieved : List RetrievedMemory) :
    (run.attachRetrievedGraph idx retrieved).map (·.text) = retrieved.map (·.text) := by
  unfold attachRetrievedGraph
  split
  · next enriched _ =>
    induction enriched.memories generalizing retrieved with
    | nil => rfl
    | cons m rest ih => rw [List.foldl_cons, ih, attachGraph_text]
  · rfl

theorem runQuestion_contents (idx : Nat) (cw : ConvWrite) :
    (run.runQuestion idx cw).result.retrievedMemoryContents =
      (run.reading idx).retrieved.map (·.text) := by
  unfold runQuestion
  dsimp only
  split
  · exact run.attachRetrievedGraph_text idx _
  · rfl

end Run

end BrainEval.Runner
