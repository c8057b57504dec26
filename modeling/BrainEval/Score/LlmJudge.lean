import Mathlib
import BrainEval.Score.JudgePrompt
import BrainEval.Score.JudgeReply

set_option autoImplicit false

namespace BrainEval

open RustStr

def isCharBoundary (s : String) (i : Nat) : Bool := (takeBytes s.toList i).isSome

-- No result where the cut is inside a character and the source panics.
def truncate (s : String) (max : Nat) : Option String :=
  if s.utf8ByteSize ≤ max then some s
  else
    let stop := ((List.range (max + 1)).reverse.find? (isCharBoundary s)).getD 0
    (takeBytes s.toList stop).map fun kept => String.ofList kept ++ "…"

theorem truncate_cases (s : String) (max : Nat) :
    truncate s max = some s ∨ ∃ kept rest, s.toList = kept ++ rest ∧ byteLen kept ≤ max ∧
      truncate s max = some (String.ofList kept ++ "…") := by
  by_cases short : s.utf8ByteSize ≤ max
  next => exact Or.inl (if_pos short)
  next =>
    have cut : ∃ stop ≤ max, isCharBoundary s stop = true ∧
        ((List.range (max + 1)).reverse.find? (isCharBoundary s)).getD 0 = stop := by
      cases found : (List.range (max + 1)).reverse.find? (isCharBoundary s) with
      | none => exact ⟨0, Nat.zero_le _, by simp [isCharBoundary], rfl⟩
      | some stop =>
        have listed := List.mem_of_find?_eq_some found
        rw [List.mem_reverse, List.mem_range, Nat.lt_succ_iff] at listed
        exact ⟨stop, listed, List.find?_some found, rfl⟩
    obtain ⟨stop, within, boundary, same⟩ := cut
    obtain ⟨kept, taken⟩ := Option.isSome_iff_exists.mp boundary
    obtain ⟨rest, text, size⟩ := takeBytes_eq_some_iff.mp taken
    refine Or.inr ⟨kept, rest, text, size.trans_le within, ?_⟩
    rw [truncate, if_neg short, same]
    simp only [taken, Option.map_some]

structure LlmJudge where
  warned : Bool
  heuristicFallbacks : Nat

-- What a grading call writes to stderr: through the log, with an error field, or as it stands.
inductive Stderr where
  | warn (error message : String)
  | eprintln (line : String)

namespace Stderr

def warnings (printed : List Stderr) : List (String × String) :=
  printed.filterMap fun
    | .warn error message => some (error, message)
    | .eprintln _ => none

def notices (printed : List Stderr) : List String :=
  printed.filterMap fun
    | .warn _ _ => none
    | .eprintln line => some line

@[simp] theorem warnings_nil : warnings [] = [] := rfl

@[simp] theorem notices_nil : notices [] = [] := rfl

@[simp] theorem warnings_append (earlier later : List Stderr) :
    warnings (earlier ++ later) = warnings earlier ++ warnings later := List.filterMap_append

@[simp] theorem notices_append (earlier later : List Stderr) :
    notices (earlier ++ later) = notices earlier ++ notices later := List.filterMap_append

end Stderr

namespace LlmJudge

def maxTokens : Nat := 512

def fromEnv : LlmJudge := ⟨false, 0⟩

def warning (message : String) : String :=
  "warning: LLM judge call failed (" ++ message ++ "). Falling back to the HEURISTIC judge for " ++
    "ungraded questions — reported accuracy is NOT LLM-judged. Check the API key / credit " ++
    "balance, or set BRAIN_EVAL_JUDGE_MODEL."

def fallback : String := "llm judge failed; heuristic fallback"

def warnOnce (j : LlmJudge) (message : String) : LlmJudge × List Stderr :=
  ({ j with warned := true },
    .warn message fallback :: if j.warned then [] else [.eprintln (warning message)])

theorem warnings_warnOnce (j : LlmJudge) (message : String) :
    Stderr.warnings (j.warnOnce message).2 = [(message, fallback)] := by
  cases warned : j.warned <;> simp [warnOnce, Stderr.warnings, warned]

theorem notices_warnOnce (j : LlmJudge) (message : String) :
    Stderr.notices (j.warnOnce message).2 = if j.warned then [] else [warning message] := by
  cases warned : j.warned <;> simp [warnOnce, Stderr.notices, warned]

def readCompletion {T : Type} (parse : String → Option (Option T)) (unparseable : String) :
    Except String String → Option (Except String T)
  | .ok reply => do
    match ← parse reply with
    | some result => return .ok result
    | none =>
      let shown ← truncate reply 120
      return .error (unparseable ++ shown)
  | .error e => some (.error e)

-- `complete_json` or `complete`, at a prompt and a token limit.
abbrev Completion := String → Nat → Except String String

section Judge

variable (verdictFromStr : String → Option VerdictReply)
  (supportFromStr : String → Option SupportReply)

def judge (j : LlmJudge) (completeJson : Completion) (questionId : String) (qtype : QuestionType)
    (question groundTruth systemAnswer : String) : Option (JudgeResult × LlmJudge × List Stderr) :=
  let prompt := renderVerdictPrompt qtype question groundTruth systemAnswer
  (readCompletion (parseVerdict verdictFromStr questionId) "unparseable reply: "
      (completeJson prompt maxTokens)).map fun
    | .ok result => (result, j, [])
    | .error message =>
      let counted : LlmJudge := { j with heuristicFallbacks := j.heuristicFallbacks + 1 }
      (judgeAnswerHeuristic questionId qtype groundTruth systemAnswer, counted.warnOnce message)

def judgeSupport (j : LlmJudge) (complete : Completion) (question groundTruth : String)
    (retrieved : List String) : Option (Option SupportVerdict × LlmJudge × List Stderr) :=
  if retrieved.isEmpty then some (some ⟨false, "no memories retrieved"⟩, j, [])
  else
    let prompt := renderSupportPrompt question groundTruth retrieved
    (readCompletion (parseSupport supportFromStr) "unparseable support reply: "
        (complete prompt maxTokens)).map fun
      | .ok result => (some result, j, [])
      | .error message => (none, j.warnOnce message)

inductive Call where
  | judge (questionId : String) (qtype : QuestionType) (question groundTruth systemAnswer : String)
  | support (question groundTruth : String) (retrieved : List String)

inductive Answer where
  | judge (result : JudgeResult)
  | support (result : Option SupportVerdict)

def call (j : LlmJudge) : Call × Completion → Option (Answer × LlmJudge × List Stderr)
  | (.judge questionId qtype question groundTruth systemAnswer, completeJson) =>
    (j.judge verdictFromStr completeJson questionId qtype question groundTruth systemAnswer).map
      fun (result, j, printed) => (.judge result, j, printed)
  | (.support question groundTruth retrieved, complete) =>
    (j.judgeSupport supportFromStr complete question groundTruth retrieved).map
      fun (result, j, printed) => (.support result, j, printed)

def runCalls (j : LlmJudge) :
    List (Call × Completion) → Option (List Answer × LlmJudge × List Stderr)
  | [] => some ([], j, [])
  | c :: calls => do
    let (answer, j, printed) ← j.call verdictFromStr supportFromStr c
    let (answers, j, later) ← j.runCalls calls
    return (answer :: answers, j, printed ++ later)

def failureOf {T : Type} : Option (Except String T) → Option String
  | some (.error message) => some message
  | _ => none

def failure : Call × Completion → Option String
  | (.judge questionId qtype question groundTruth systemAnswer, completeJson) =>
    failureOf (readCompletion (parseVerdict verdictFromStr questionId) "unparseable reply: "
      (completeJson (renderVerdictPrompt qtype question groundTruth systemAnswer) maxTokens))
  | (.support question groundTruth retrieved, complete) =>
    if retrieved.isEmpty then none
    else
      failureOf (readCompletion (parseSupport supportFromStr) "unparseable support reply: "
        (complete (renderSupportPrompt question groundTruth retrieved) maxTokens))

def Call.isJudge : Call → Bool
  | .judge .. => true
  | .support .. => false

end Judge

theorem isSome_truncate (s : String) (max : Nat) : (truncate s max).isSome = true := by
  rcases truncate_cases s max with whole | ⟨kept, rest, -, -, cut⟩
  next => rw [whole, Option.isSome_some]
  next => rw [cut, Option.isSome_some]

theorem isSome_readCompletion {T : Type} {parse : String → Option (Option T)}
    (total : ∀ reply, (parse reply).isSome = true) (unparseable : String)
    (completion : Except String String) :
    (readCompletion parse unparseable completion).isSome = true := by
  cases completion with
  | error e => rfl
  | ok reply =>
    obtain ⟨result, parsed⟩ := Option.isSome_iff_exists.mp (total reply)
    obtain ⟨shown, cut⟩ := Option.isSome_iff_exists.mp (isSome_truncate reply 120)
    cases result with
    | none => simp [readCompletion, parsed, cut]
    | some result => simp [readCompletion, parsed]

section Run

variable (verdictFromStr : String → Option VerdictReply)
  (supportFromStr : String → Option SupportReply)

-- A call fails or not; a failure is counted where a verdict was asked for, logged, and announced
-- if it is the first.
theorem call_eq (j : LlmJudge) (c : Call × Completion) :
    ∃ answer printed, j.call verdictFromStr supportFromStr c = some (answer,
      { warned := j.warned || (failure verdictFromStr supportFromStr c).isSome
        heuristicFallbacks := j.heuristicFallbacks +
          if c.1.isJudge && (failure verdictFromStr supportFromStr c).isSome then 1 else 0 },
      printed) ∧
      Stderr.warnings printed =
        (failure verdictFromStr supportFromStr c).toList.map (·, fallback) ∧
      Stderr.notices printed =
        if j.warned then []
        else (failure verdictFromStr supportFromStr c).toList.map warning := by
  obtain ⟨asked, complete⟩ := c
  cases asked with
  | judge questionId qtype question groundTruth systemAnswer =>
    obtain ⟨outcome, read⟩ : ∃ outcome, readCompletion (parseVerdict verdictFromStr questionId)
        "unparseable reply: " (complete (renderVerdictPrompt qtype question groundTruth
          systemAnswer) maxTokens) = some outcome :=
      Option.isSome_iff_exists.mp (isSome_readCompletion (fun reply => isSome_parseReply reply) _ _)
    cases outcome with
    | ok result =>
      exact ⟨.judge result, [], by simp [call, judge, failure, read, failureOf]⟩
    | error message =>
      refine ⟨.judge (judgeAnswerHeuristic questionId qtype groundTruth systemAnswer),
        (j.warnOnce message).2, ?_, ?_, ?_⟩
      · simp [call, judge, failure, read, failureOf, warnOnce, Call.isJudge]
      · simp [failure, read, failureOf, warnings_warnOnce]
      · simp [failure, read, failureOf, notices_warnOnce]
  | support question groundTruth retrieved =>
    by_cases empty : retrieved.isEmpty = true
    next =>
      refine ⟨.support (some ⟨false, "no memories retrieved"⟩), [], ?_⟩
      simp [call, judgeSupport, failure, empty, Call.isJudge]
    next =>
      obtain ⟨outcome, read⟩ : ∃ outcome, readCompletion (parseSupport supportFromStr)
          "unparseable support reply: " (complete (renderSupportPrompt question groundTruth
            retrieved) maxTokens) = some outcome :=
        Option.isSome_iff_exists.mp
          (isSome_readCompletion (fun reply => isSome_parseReply reply) _ _)
      cases outcome with
      | ok result =>
        exact ⟨.support (some result), [], by
          simp [call, judgeSupport, failure, empty, read, failureOf, Call.isJudge]⟩
      | error message =>
        refine ⟨.support none, (j.warnOnce message).2, ?_, ?_, ?_⟩
        · simp [call, judgeSupport, failure, empty, read, failureOf, warnOnce, Call.isJudge]
        · simp [failure, empty, read, failureOf, warnings_warnOnce]
        · simp [failure, empty, read, failureOf, notices_warnOnce]

theorem readCompletion_eq_ok {T : Type} {parse : String → Option (Option T)}
    {unparseable : String} {completion : Except String String} {result : T}
    (read : readCompletion parse unparseable completion = some (.ok result)) :
    ∃ reply, parse reply = some (some result) := by
  cases completion with
  | error e => simp [readCompletion] at read
  | ok reply =>
    simp only [readCompletion, Option.bind_eq_bind, Option.bind_eq_some_iff] at read
    obtain ⟨parsed, found, read⟩ := read
    cases parsed with
    | none =>
      obtain ⟨shown, -, read⟩ := Option.bind_eq_some_iff.mp read
      simp at read
    | some value =>
      obtain rfl : value = result := by simpa using read
      exact ⟨reply, found⟩

theorem judge_graded {j j' : LlmJudge} {completeJson : Completion} {questionId : String}
    {qtype : QuestionType} {question groundTruth systemAnswer : String} {result : JudgeResult}
    {printed : List Stderr}
    (answered : j.judge verdictFromStr completeJson questionId qtype question groundTruth
      systemAnswer = some (result, j', printed)) :
    result.verdict ≠ .notJudged ∧ result.score = result.verdict.score := by
  obtain ⟨outcome, read, same⟩ := Option.map_eq_some_iff.mp answered
  cases outcome with
  | ok graded =>
    obtain ⟨rfl, -⟩ := Prod.mk.inj same
    obtain ⟨reply, found⟩ := readCompletion_eq_ok read
    obtain ⟨json, parsed, -, -, rfl⟩ := parseReply_eq_some_iff.mp found
    refine ⟨?_, rfl⟩
    dsimp only
    split <;> simp only [judged_verdict, ne_eq, reduceCtorEq, not_false_eq_true]
  | error message =>
    obtain ⟨rfl, -⟩ := Prod.mk.inj same
    exact ⟨judgeAnswerHeuristic_graded _ _ _ _, judgeAnswerHeuristic_score _ _ _ _⟩

-- From whatever went before: each failure is logged, and the first of all is announced.
theorem runCalls_eq (j : LlmJudge) (calls : List (Call × Completion)) :
    ∃ answers printed, answers.length = calls.length ∧
      j.runCalls verdictFromStr supportFromStr calls = some (answers,
        { warned := j.warned || calls.any fun c =>
            (failure verdictFromStr supportFromStr c).isSome
          heuristicFallbacks := j.heuristicFallbacks + calls.countP fun c =>
            c.1.isJudge && (failure verdictFromStr supportFromStr c).isSome },
        printed) ∧
      Stderr.warnings printed =
        (calls.filterMap (failure verdictFromStr supportFromStr)).map (·, fallback) ∧
      Stderr.notices printed =
        if j.warned then []
        else (calls.findSome? (failure verdictFromStr supportFromStr)).toList.map warning := by
  induction calls generalizing j with
  | nil => exact ⟨[], [], rfl, by simp [runCalls]⟩
  | cons c calls ih =>
    obtain ⟨answer, now, here, logged, told⟩ := call_eq verdictFromStr supportFromStr j c
    obtain ⟨answers, later, long, rest, loggedLater, toldLater⟩ := ih _
    refine ⟨answer :: answers, now ++ later, by rw [List.length_cons, List.length_cons, long],
      ?_, ?_, ?_⟩
    · rw [runCalls, here, Option.bind_eq_bind, Option.bind_some]
      dsimp only
      rw [rest]
      cases failed : failure verdictFromStr supportFromStr c with
      | none => simp [failed]
      | some message => simp [failed, List.countP_cons, Nat.add_assoc, Nat.add_comm]
    · rw [Stderr.warnings_append, logged, loggedLater]
      cases failed : failure verdictFromStr supportFromStr c <;> simp [failed]
    · rw [Stderr.notices_append, told, toldLater]
      cases failed : failure verdictFromStr supportFromStr c with
      | none => simp [failed]
      | some message => cases j.warned <;> simp [failed]

-- Every failed call is logged; the notice of the fallback comes once, with the first failure.
theorem runCalls_fromEnv (calls : List (Call × Completion)) :
    ∃ answers j printed,
      fromEnv.runCalls verdictFromStr supportFromStr calls = some (answers, j, printed) ∧
        answers.length = calls.length ∧
        (j.heuristicFallbacks = calls.countP fun c =>
          c.1.isJudge && (failure verdictFromStr supportFromStr c).isSome) ∧
        Stderr.warnings printed =
          (calls.filterMap (failure verdictFromStr supportFromStr)).map (·, fallback) ∧
        Stderr.notices printed =
          (calls.findSome? (failure verdictFromStr supportFromStr)).toList.map warning ∧
        (Stderr.notices printed).length ≤ 1 ∧
        (Stderr.notices printed = [] ↔
          ∀ c ∈ calls, failure verdictFromStr supportFromStr c = none) := by
  obtain ⟨answers, printed, long, run, logged, told⟩ :=
    runCalls_eq verdictFromStr supportFromStr fromEnv calls
  have told : Stderr.notices printed =
      (calls.findSome? (failure verdictFromStr supportFromStr)).toList.map warning := by
    simpa [fromEnv] using told
  refine ⟨answers, _, printed, run, long, by simp [fromEnv], logged, told, ?_, ?_⟩
  · rw [told]
    cases calls.findSome? (failure verdictFromStr supportFromStr) <;> simp
  · rw [told, ← List.findSome?_eq_none_iff]
    cases calls.findSome? (failure verdictFromStr supportFromStr) <;> simp

end Run

end LlmJudge

end BrainEval
