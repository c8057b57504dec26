import Mathlib
import BrainEval.Lib.Grouping
import BrainEval.Score.Judge
import BrainEval.SpaceManifest
import BrainEval.Synthesize
import BrainEval.Report.RunReport

set_option autoImplicit false

namespace BrainEval.Runner

open RustStr Grouping Harness Report Synthesize

structure RunConfig where
  endpoint : String
  maxQuestions : Option Nat
  maxResults : Nat
  questionTypes : Option (List String)
  -- a path: that one is set is all the run reads of it
  persistSpaces : Option String
  -- the manifest loaded from the path
  readOnlySpaces : Option SpaceManifest
  retrievalOnly : Bool
  onlyConversation : Option String
  verifyMemoryList : Bool
  concurrency : Nat

/-- An LLM judge is its parsed replies to each question; `none` is a failed call or an unusable
reply. -/
inductive Judge where
  | heuristic
  | llm (verdict : Nat → String → Option (Bool × String))
      (support : Nat → List String → Option (Bool × String))

def Judge.grade (judge : Judge) (idx : Nat) (inst : EvalInstance) (systemAnswer : String) :
    JudgeResult :=
  let heuristic :=
    judgeAnswerHeuristic inst.questionId inst.questionType inst.answer systemAnswer
  match judge with
  | .heuristic => heuristic
  | .llm verdict _ =>
    match verdict idx systemAnswer with
    | some (correct, reasoning) =>
      judged inst.questionId (if correct then .correct else .incorrect) reasoning
    | none => heuristic

def Judge.gradeSupport (judge : Judge) (idx : Nat) (retrieved : List String) :
    Option Bool × String :=
  match judge with
  | .heuristic => (none, "")
  | .llm _ support =>
    if retrieved.isEmpty then (some false, "no memories retrieved")
    else
      match support idx retrieved with
      | some (supported, reasoning) => (some supported, reasoning)
      | none => (none, "")

inductive SynthSlot where
  | heuristic
  | llm (complete : Nat → RecallOutcome → Option String)

def SynthSlot.synthesize (synth : SynthSlot) (idx : Nat) (outcome : RecallOutcome)
    (episodicCap : Nat) : String :=
  let heuristic := synthesizeAnswer outcome episodicCap
  match synth with
  | .heuristic => heuristic
  | .llm complete =>
    if outcome.memories.isEmpty then dontKnow
    else
      match complete idx outcome with
      | some answer => if trim answer ≠ "" then trim answer else heuristic
      | none => heuristic

/-- Everything outside the program answers: per conversation key, and per question once the
conversation is open. -/
structure World where
  newId : String → WireUuid
  mint : String → WireUuid → Except String String
  connect : String → WireUuid → String → Except String Unit
  encode : String → List EncodeRequest → Except String EncodeResponse
  ingestMs : String → Nat → Nat
  reconnect : String → WireUuid → String → Except String Unit
  storedRecall : String → Nat → RecallRequest → Except String RecallAnswer
  questionRecall : Nat → RecallRequest → Except String RecallAnswer
  recallMs : Nat → Nat
  queryTrace : Nat → String → Nat → Except String PlanTrace

structure Run where
  benchmarkId : String
  config : RunConfig
  judge : Judge
  synth : SynthSlot
  fullTrace : Bool
  world : World
  loaded : List EvalInstance

def selectInstances (config : RunConfig) (loaded : List EvalInstance) : List EvalInstance :=
  -- both filters run before the count cap
  let typed :=
    match config.questionTypes with
    | some types => loaded.filter fun i => types.any (· == i.questionType.tag)
    | none => loaded
  let kept :=
    match config.onlyConversation with
    | some target => typed.filter fun i => i.conversationId = some target
    | none => typed
  match config.maxQuestions with
  | some n => kept.take n
  | none => kept

def convKey (inst : EvalInstance) : String := inst.conversationId.getD inst.questionId

namespace Run

variable (run : Run)

def instances : List EvalInstance := selectInstances run.config run.loaded

def inst (idx : Nat) : EvalInstance := run.instances.getD idx default

def isReadOnly : Bool := run.config.readOnlySpaces.isSome

def groups : Std.TreeMap String (List Nat) :=
  groupBy (fun entry : EvalInstance × Nat => convKey entry.1) Prod.snd run.instances.zipIdx

end Run

end BrainEval.Runner
