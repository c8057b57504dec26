import Mathlib
import BrainEval.Lib.Attempts
import BrainEval.Score.LlmJudge

set_option autoImplicit false

namespace BrainEval

open RustStr Attempts

inductive Provider where
  | anthropic
  | openAI
  deriving DecidableEq, Repr

def Provider.name : Provider → String
  | .anthropic => "anthropic"
  | .openAI => "openai"

structure LlmClient where
  provider : Provider
  apiKey : String
  model : String
  deriving DecidableEq

structure CallError where
  message : String
  retryable : Bool
  deriving DecidableEq

-- What comes back for a request: a status, and the body as far as it could be read.
structure HttpReply where
  status : Nat
  text : Except String String

structure LlmRequest where
  url : String
  headers : List (String × String)
  model : String
  maxTokens : Nat
  prompt : String
  -- `response_format` asks for a JSON object
  jsonObject : Bool
  deriving DecidableEq

namespace LlmClient

def defaultModel : String := "gpt-4o-mini"

def maxRetries : Nat := 3

def nonemptyEnv (env : String → Option String) (key : String) : Option String :=
  (env key).filter fun value => trim value != ""

def providerForModel (model : String) : Provider :=
  if "claude".toList.isPrefixOf (toAsciiLowercase model).toList then .anthropic else .openAI

def fromEnv (env : String → Option String) (modelOverrideEnv : String) : Option LlmClient := do
  let apiKey ← nonemptyEnv env "BRAIN__LLM__API_KEY"
  let model := ((nonemptyEnv env modelOverrideEnv).or
    (nonemptyEnv env "BRAIN__LLM__MODEL")).getD defaultModel
  return ⟨providerForModel model, apiKey, model⟩

variable (client : LlmClient)

def request (prompt : String) (maxTokens : Nat) (jsonMode : Bool) : LlmRequest :=
  match client.provider with
  | .anthropic =>
    { url := "https://api.anthropic.com/v1/messages"
      headers := [("x-api-key", client.apiKey), ("anthropic-version", "2023-06-01")]
      model := client.model
      maxTokens := maxTokens
      prompt := prompt
      jsonObject := false }
  | .openAI =>
    { url := "https://api.openai.com/v1/chat/completions"
      headers := [("authorization", "Bearer " ++ client.apiKey)]
      model := client.model
      maxTokens := maxTokens
      prompt := prompt
      jsonObject := jsonMode }

def isSuccess (status : Nat) : Bool := 200 ≤ status && status < 300

def isServerError (status : Nat) : Bool := 500 ≤ status && status < 600

/-- What `call` makes of a reply. -/
structure Wire where
  -- the canonical reason of a status
  reason : Nat → String
  -- the texts of the content blocks, or of the choices
  fromStr : Provider → String → Except String (List String)

def netErr (e : String) : CallError := ⟨e, true⟩

def parseErr (e : String) : CallError := ⟨e, false⟩

variable (wire : Wire)

def httpErr (provider : String) (status : Nat) (body : String) : CallError where
  message := provider ++ " " ++ toString status ++ " " ++ wire.reason status ++ ": " ++
    (truncate body 300).get (LlmJudge.isSome_truncate body 300)
  retryable := isServerError status || status = 429

def textOf : Provider → List String → String
  | .anthropic, blocks => String.join blocks
  | .openAI, choices => choices.headD ""

def call : Except String HttpReply → Except CallError String
  | .error e => .error (netErr e)
  | .ok reply =>
    match reply.text with
    | .error e => .error (netErr e)
    | .ok text =>
      if isSuccess reply.status then
        match wire.fromStr client.provider text with
        | .error e => .error (parseErr e)
        | .ok parts => .ok (textOf client.provider parts)
      else .error (httpErr wire client.provider.name reply.status text)

/-- What `complete_inner` does, in order. -/
inductive Event where
  | slept (millis : Nat)
  | sent (request : LlmRequest)
  deriving DecidableEq

def attemptEvents (request : LlmRequest) (attempt : Nat) : List Event :=
  (if 0 < attempt then [.slept (500 * 2 ^ (attempt - 1))] else []) ++ [.sent request]

def completeLoop (request : LlmRequest) (answer : Nat → Except CallError String) :
    Nat → Nat → String → List Event × Except String String
  | 0, _, lastErr => ([], .error lastErr)
  | left + 1, attempt, _ =>
    let here := attemptEvents request attempt
    match answer attempt with
    | .ok text => (here, .ok text)
    | .error e =>
      if e.retryable then
        let (later, result) := completeLoop request answer left (attempt + 1) e.message
        (here ++ later, result)
      else (here, .error e.message)

def completeInner (send : Nat → LlmRequest → Except String HttpReply) (prompt : String)
    (maxTokens : Nat) (jsonMode : Bool) : List Event × Except String String :=
  let request := client.request prompt maxTokens jsonMode
  completeLoop request (fun attempt => client.call wire (send attempt request)) maxRetries 0
    "no attempt made"

def complete (send : Nat → LlmRequest → Except String HttpReply) (prompt : String)
    (maxTokens : Nat) : Except String String :=
  (client.completeInner wire send prompt maxTokens false).2

def completeJson (send : Nat → LlmRequest → Except String HttpReply) (prompt : String)
    (maxTokens : Nat) : Except String String :=
  (client.completeInner wire send prompt maxTokens true).2

-- JSON mode is OpenAI's alone.
theorem completeJson_anthropic (anthropic : client.provider = .anthropic)
    (send : Nat → LlmRequest → Except String HttpReply) (prompt : String) (maxTokens : Nat) :
    client.completeJson wire send prompt maxTokens =
      client.complete wire send prompt maxTokens := by
  simp only [completeJson, complete, completeInner, request, anthropic]

section Retry

-- No answer came, or one that says to come back later.
def Transient : Except String HttpReply → Prop
  | .error _ => True
  | .ok reply => (∃ e, reply.text = .error e) ∨ isServerError reply.status = true ∨
      reply.status = 429

-- A call that leaves the loop.
def settled : Except CallError String → Bool
  | .ok _ => true
  | .error e => !e.retryable

theorem settled_call_iff (reply : Except String HttpReply) :
    settled (client.call wire reply) = true ↔ ¬ Transient reply := by
  cases reply with
  | error e => simp [call, netErr, settled, Transient]
  | ok reply =>
    cases read : reply.text with
    | error e => simp [call, read, netErr, settled, Transient]
    | ok text =>
      by_cases success : isSuccess reply.status = true
      next =>
        have quiet : isServerError reply.status = false ∧ reply.status ≠ 429 := by
          simp only [isSuccess, isServerError, Bool.and_eq_true, decide_eq_true_eq,
            Bool.and_eq_false_iff, decide_eq_false_iff_not] at success ⊢
          omega
        cases parsed : wire.fromStr client.provider text <;>
          simp [call, read, success, parsed, parseErr, settled, Transient, quiet]
      next => simp [call, read, success, httpErr, settled, Transient]

theorem completeLoop_eq (request : LlmRequest) (answer : Nat → Except CallError String)
    {left : Nat} (allowed : 0 < left) (attempt : Nat) (lastErr : String) :
    completeLoop request answer left attempt lastErr =
      ((List.range (made settled left fun i => answer (attempt + i))).flatMap fun i =>
          attemptEvents request (attempt + i),
        (answer (attempt + (made settled left (fun i => answer (attempt + i)) - 1))).mapError
          CallError.message) := by
  induction left generalizing attempt lastErr with
  | zero => exact absurd allowed (Nat.lt_irrefl 0)
  | succ left ih =>
    have shift : (fun i => answer (attempt + (i + 1))) = fun i => answer (attempt + 1 + i) := by
      funext i
      rw [Nat.add_comm i, Nat.add_assoc]
    rw [completeLoop, made, shift]
    cases here : answer attempt with
    | ok text => simp [settled, here, Except.mapError]
    | error e =>
      by_cases again : e.retryable = true
      next =>
        cases left with
        | zero => simp [settled, here, again, made, completeLoop, Except.mapError]
        | succ left =>
          have later : 0 < made settled (left + 1) fun i => answer (attempt + 1 + i) :=
            made_pos settled (Nat.succ_pos left) _
          have last :
              attempt + (made settled (left + 1) (fun i => answer (attempt + 1 + i)) + 1 - 1) =
                attempt + 1 +
                  (made settled (left + 1) (fun i => answer (attempt + 1 + i)) - 1) := by
            omega
          have order : (fun i => attemptEvents request (attempt + (i + 1))) =
              fun i => attemptEvents request (attempt + 1 + i) := by
            funext i
            rw [Nat.add_comm i, Nat.add_assoc]
          simp only [Nat.add_zero, settled, again, Bool.not_true, Bool.false_eq_true,
            if_false, if_true, ih (Nat.succ_pos left), last, List.range_succ_eq_map,
            List.flatMap_cons, List.flatMap_map, Nat.succ_eq_add_one, order]
      next => simp [settled, here, again, Except.mapError]

def sleptMillis (events : List Event) : Nat :=
  (events.map fun
    | .slept millis => millis
    | .sent _ => 0).sum

def requests (events : List Event) : List LlmRequest :=
  events.filterMap fun
    | .slept _ => none
    | .sent request => some request

theorem attemptEvents_slept (request : LlmRequest) (m : Nat) :
    sleptMillis ((List.range m).flatMap (attemptEvents request)) = 500 * (2 ^ (m - 1) - 1) := by
  induction m with
  | zero => rfl
  | succ m ih =>
    have split : sleptMillis ((List.range (m + 1)).flatMap (attemptEvents request)) =
        sleptMillis ((List.range m).flatMap (attemptEvents request)) +
          sleptMillis (attemptEvents request m) := by
      simp [sleptMillis, List.range_succ]
    rw [split, ih]
    cases m with
    | zero => rfl
    | succ m =>
      have positive := Nat.one_le_two_pow (n := m)
      simp [sleptMillis, attemptEvents, Nat.pow_succ]
      omega

theorem attemptEvents_requests (request : LlmRequest) (m : Nat) :
    requests ((List.range m).flatMap (attemptEvents request)) = List.replicate m request := by
  induction m with
  | zero => rfl
  | succ m ih =>
    have one : requests (attemptEvents request m) = [request] := by
      by_cases waits : 0 < m <;> simp [attemptEvents, requests, waits]
    have split : requests ((List.range (m + 1)).flatMap (attemptEvents request)) =
        requests ((List.range m).flatMap (attemptEvents request)) ++
          requests (attemptEvents request m) := by
      simp [requests, List.range_succ]
    rw [split, ih, one, List.replicate_succ']

theorem completeInner_bounded (send : Nat → LlmRequest → Except String HttpReply)
    (prompt : String) (maxTokens : Nat) (jsonMode : Bool) :
    let request := client.request prompt maxTokens jsonMode
    let run := client.completeInner wire send prompt maxTokens jsonMode
    ∃ m, 0 < m ∧ m ≤ 3 ∧ requests run.1 = List.replicate m request ∧
      sleptMillis run.1 = 500 * (2 ^ (m - 1) - 1) ∧
      (∀ i, i + 1 < m → Transient (send i request)) ∧
      (m < 3 → ¬ Transient (send (m - 1) request)) ∧
      run.2 = (client.call wire (send (m - 1) request)).mapError CallError.message ∧
      ((∃ text, run.2 = .ok text) ↔ ∃ i < 3, (∀ j < i, Transient (send j request)) ∧
        ∃ text, client.call wire (send i request) = .ok text) := by
  intro request run
  let answer (i : Nat) := client.call wire (send i request)
  have ran : run = _ := completeLoop_eq request answer (Nat.succ_pos 2) 0 "no attempt made"
  simp only [Nat.zero_add] at ran
  have repeated {i : Nat} (before : i + 1 < made settled 3 answer) :
      Transient (send i request) := by
    have unsettled := goes_on_of_lt answer before
    by_contra lasting
    rw [(settled_call_iff client wire _).mpr lasting] at unsettled
    cases unsettled
  refine ⟨made settled 3 answer, made_pos settled (Nat.succ_pos 2) answer,
    made_le settled 3 answer, ?_, ?_, fun i => repeated, ?_, by rw [ran], ?_⟩
  · rw [ran, attemptEvents_requests]
  · rw [ran, attemptEvents_slept]
  · intro fewer
    exact (settled_call_iff client wire _).mp (last_stops answer fewer)
  · have result : (∃ text, run.2 = .ok text) ↔
        ∃ text, answer (made settled 3 answer - 1) = .ok text := by
      rw [ran]
      cases answer (made settled 3 answer - 1) <;> simp [Except.mapError]
    have some_made := made_pos settled (Nat.succ_pos 2) answer
    have within := made_le settled 3 answer
    rw [result]
    constructor
    · intro answered
      exact ⟨made settled 3 answer - 1, by omega, fun j before => repeated (by omega), answered⟩
    · rintro ⟨i, inside, transient, text, answered⟩
      have last : made settled 3 answer ≤ i + 1 := by
        by_contra more
        have unsettled : settled (answer i) = false := goes_on_of_lt answer (not_le.mp more)
        simp [answer, answered, settled] at unsettled
      have first : i ≤ made settled 3 answer - 1 := by
        by_contra earlier
        have fewer : made settled 3 answer < 3 := by omega
        have stopped := last_stops answer fewer
        exact (settled_call_iff client wire _).mp stopped (transient _ (not_le.mp earlier))
      have same : made settled 3 answer - 1 = i := by omega
      exact ⟨text, same ▸ answered⟩

end Retry

end LlmClient

end BrainEval
