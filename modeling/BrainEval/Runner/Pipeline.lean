import Mathlib
import BrainEval.Runner.Question

set_option autoImplicit false

namespace BrainEval.Runner

open SortBy Harness Report Std

structure Merged where
  idx : Nat
  record : QuestionRecord
  result : QuestionResult

structure GroupOutcome where
  conversationWrite : Option ConversationWrite
  questions : List Merged

def hyphenated (b : WireUuid) : String :=
  let hex := (SpaceManifest.hex16 b).toList
  let part (start stop : Nat) : List Char := (hex.take stop).drop start
  String.ofList (part 0 8 ++ '-' :: part 8 12 ++ '-' :: part 12 16 ++ '-' :: part 16 20 ++
    '-' :: part 20 32)

def restoreInstanceOrder (merged : List Merged) : List Merged := sortByKey (·.idx) merged

-- Phase 1's merge, read for the conversations that go on.
def preparedOf (ingested : List IngestOutcome) : List Prepared :=
  (sortByKey (·.convKey) ingested).filterMap fun o => o.settle.getLeft?

def reconnectError (e : String) : String :=
  "read-back reconnect failed: " ++ (HarnessError.sdk e).display

namespace Run

variable (run : Run)

def failed (idx : Nat) (reason : String) (ingestFailed : Bool) : Merged :=
  let r := failedQuestionResult (run.inst idx) reason ingestFailed
  ⟨idx, failedRecord r, r⟩

def phase1Failures (ingested : List IngestOutcome) : List Merged :=
  (sortByKey (·.convKey) ingested).flatMap fun o =>
    match o.settle with
    | .inl _ => []
    | .inr reason => o.idxs.map (run.failed · reason true)

def captureMemoryExtractions (convKey : String) (cw : ConvWrite) : List MemoryExtraction :=
  (cw.storedTexts.zip cw.storedIds).zipIdx.filterMap fun ((text, id), i) =>
    match run.world.storedRecall convKey i ⟨text, run.config.maxResults, true, true, .space⟩ with
    | .ok ans =>
      ((ans.memories.find? (·.memoryId = id)).bind (·.graph)).map fun g =>
        ⟨toString id, .fromWire g⟩
    | .error _ => none

def ledger (convKey : String) (spaceId : WireUuid) (cw : ConvWrite) : ConversationWrite where
  conversationId := convKey
  spaceId := hyphenated spaceId
  writeLatencyMs := cw.latencyMs
  attempted := cw.attempted
  stored := cw.stored
  deduplicated := cw.deduplicated
  storedMemoryIds := cw.storedIds.map toString
  memoryExtractions := if run.fullTrace then run.captureMemoryExtractions convKey cw else []
  ingestFailed := cw.ingestFailed

def asked (idx : Nat) (cw : ConvWrite) : Merged :=
  let q := run.runQuestion idx cw
  ⟨idx, q.record, q.result⟩

-- One conversation of phase 2: reconnect on the cached token, then its questions in order.
def groupFuture (tokens : TreeMap WireUuid String) (pre : Prepared) : GroupOutcome :=
  match tokens[pre.spaceId]? with
  | none =>
    ⟨none, pre.idxs.map (run.failed · "read-back: no cached data-plane token" false)⟩
  | some token =>
    match run.world.reconnect pre.convKey pre.spaceId token with
    | .error e => ⟨none, pre.idxs.map (run.failed · (reconnectError e) false)⟩
    | .ok _ =>
      { conversationWrite :=
          if run.isReadOnly then none else some (run.ledger pre.convKey pre.spaceId pre.cw)
        -- the list-only diagnostic asks nothing
        questions :=
          if run.config.verifyMemoryList then [] else pre.idxs.map (run.asked · pre.cw) }

/-- A finished run: the orders in which its two streams completed. -/
structure Schedule where
  ingested : List IngestOutcome
  ingested_perm : ingested.Perm (run.phase0.planned.map run.ingestFuture)
  readBack : List GroupOutcome
  readBack_perm : readBack.Perm ((preparedOf ingested).map (run.groupFuture run.phase0.tokens))

def sequential : run.Schedule where
  ingested := run.phase0.planned.map run.ingestFuture
  ingested_perm := List.Perm.refl _
  readBack := (preparedOf (run.phase0.planned.map run.ingestFuture)).map
    (run.groupFuture run.phase0.tokens)
  readBack_perm := List.Perm.refl _

def reversed : run.Schedule where
  ingested := (run.phase0.planned.map run.ingestFuture).reverse
  ingested_perm := List.reverse_perm _
  readBack := ((preparedOf (run.phase0.planned.map run.ingestFuture).reverse).map
    (run.groupFuture run.phase0.tokens)).reverse
  readBack_perm := List.reverse_perm _

namespace Schedule

variable {run} (s : run.Schedule)

def merged : List Merged := restoreInstanceOrder (s.readBack.flatMap (·.questions))

def pushes : List Merged := run.phase1Failures s.ingested ++ s.merged

def questionResults : List QuestionResult := s.pushes.map (·.result)

def questionRecords : List QuestionRecord := s.pushes.map (·.record)

def conversationWrites : List ConversationWrite :=
  sortByKey (·.conversationId) (s.readBack.filterMap (·.conversationWrite))

noncomputable def report (U : RustStr.UnicodeData) : RunReport :=
  let metrics := Metrics.computeFullMetrics U s.questionResults
  { write := { summary := metrics.writeQuality, conversations := s.conversationWrites }
    read :=
      { perQuestion := s.questionRecords
        failureAttribution := .fromRecords s.questionRecords }
    metrics := metrics }

end Schedule

end Run

def World.silent : World where
  newId convKey := Vector.replicate 16 (UInt8.ofNat (convKey.toList.map Char.toNat).sum)
  mint _ _ := .ok "token"
  connect _ _ _ := .ok ()
  encode _ sent := .ok ⟨sent.length, false⟩
  ingestMs _ _ := 1
  reconnect _ _ _ := .ok ()
  storedRecall _ _ _ := .ok ⟨.none, []⟩
  questionRecall _ _ := .ok ⟨.none, []⟩
  recallMs _ := 1
  queryTrace _ _ _ := .error "not traced"

def plainConfig : RunConfig where
  endpoint := "127.0.0.1:9090"
  maxQuestions := none
  maxResults := 10
  questionTypes := none
  persistSpaces := none
  readOnlySpaces := none
  retrievalOnly := false
  onlyConversation := none
  verifyMemoryList := false
  concurrency := 1

def plainRun (world : World) (loaded : List EvalInstance) : Run where
  benchmarkId := "sample"
  config := plainConfig
  judge := .heuristic
  synth := .heuristic
  fullTrace := false
  world := world
  loaded := loaded

def Run.inMode (run : Run) (retrievalOnly : Bool) : Run :=
  { run with config := { run.config with retrievalOnly := retrievalOnly } }

def sampleInstance (questionId conversationId : String) : EvalInstance where
  questionId := questionId
  question := "Where does Ann live?"
  answer := "Paris"
  questionType := .singleHop
  conversationId := some conversationId
  sessions := [⟨"session_1", [⟨"user", "Ann lives in Paris", none⟩]⟩]

end BrainEval.Runner
