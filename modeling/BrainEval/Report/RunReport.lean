import Mathlib
import BrainEval.Client.Harness
import BrainEval.Score.Metrics

set_option autoImplicit false

namespace BrainEval.Report

structure GraphEntityView where
  name : String
  typeQname : String

structure GraphStatementView where
  subject : String
  predicate : String
  object : String
  confidence : ℚ

structure GraphRelationView where
  subject : String
  predicate : String
  object : String

structure MemoryGraph where
  entities : List GraphEntityView
  statements : List GraphStatementView
  relations : List GraphRelationView

def MemoryGraph.fromWire (g : GraphEnrichment) : MemoryGraph where
  entities := g.entities.map fun e => ⟨e.name, e.typeQname⟩
  statements := g.statements.map fun s => ⟨s.subjectName, s.predicate, s.objectLabel, s.confidence⟩
  relations := g.relations.map fun r => ⟨r.fromName, r.predicate, r.toName⟩

structure MemoryExtraction where
  memoryId : String
  graph : MemoryGraph

structure ConversationWrite where
  conversationId : String
  spaceId : String
  writeLatencyMs : Nat
  attempted : Nat
  stored : Nat
  deduplicated : Nat
  storedMemoryIds : List String
  memoryExtractions : List MemoryExtraction
  ingestFailed : Bool

structure PlanTrace where
  traceText : String
  totalLatencyMs : ℚ

structure RetrievedMemory where
  memoryId : String
  text : String
  similarityScore : ℚ
  fusedScore : ℚ
  rerankScore : Option ℚ
  confidence : ℚ
  contributingRetrievers : List String
  graph : Option MemoryGraph

def retrieverName : RetrieverNameWire → String
  | .semantic => "semantic"
  | .lexical => "lexical"
  | .graph => "graph"

def RetrievedMemory.fromWire (m : MemoryResult) : RetrievedMemory where
  memoryId := toString m.memoryId
  text := m.text
  similarityScore := m.similarityScore
  fusedScore := m.fusedScore
  rerankScore := m.rerankScore
  confidence := m.confidence
  contributingRetrievers := m.contributingRetrievers.map retrieverName
  graph := m.graph.map MemoryGraph.fromWire

inductive FailStage where
  | retrievalMissedGold
  | answerDroppedIt
  | abstention
  | wrongAnswerSupportUnknown
  deriving DecidableEq, Repr

def FailStage.attribute (correct : Bool) (memoriesRetrieved : Nat)
    (contextSupported : Option Bool) : Option FailStage :=
  if correct then none
  else if memoriesRetrieved = 0 then some .abstention
  else
    match contextSupported with
    | some true => some .answerDroppedIt
    | some false => some .retrievalMissedGold
    | none => some .wrongAnswerSupportUnknown

structure QuestionRecord where
  result : QuestionResult
  retrieved : List RetrievedMemory
  failStage : Option FailStage
  planTrace : Option PlanTrace

structure FailureAttribution where
  failRetrieval : Nat
  failAnswerDrop : Nat
  failAbstention : Nat
  failWrong : Nat
  deriving DecidableEq, Repr

def FailureAttribution.record (a : FailureAttribution) : Option FailStage → FailureAttribution
  | some .retrievalMissedGold => { a with failRetrieval := a.failRetrieval + 1 }
  | some .answerDroppedIt => { a with failAnswerDrop := a.failAnswerDrop + 1 }
  | some .abstention => { a with failAbstention := a.failAbstention + 1 }
  | some .wrongAnswerSupportUnknown => { a with failWrong := a.failWrong + 1 }
  | none => a

def FailureAttribution.fromRecords (records : List QuestionRecord) : FailureAttribution :=
  records.foldl (fun a r => a.record r.failStage) ⟨0, 0, 0, 0⟩

structure WriteReport where
  summary : Metrics.WriteQualityMetrics
  conversations : List ConversationWrite

structure ReadReport where
  perQuestion : List QuestionRecord
  failureAttribution : FailureAttribution

structure RunReport where
  write : WriteReport
  read : ReadReport
  metrics : Metrics.EvalMetrics

end BrainEval.Report
