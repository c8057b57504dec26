import Mathlib
import BrainEval.Blackbox.ConcurrentRun
import BrainEval.Blackbox.RecallQuality
import BrainEval.Blackbox.Scenario

set_option autoImplicit false

namespace BrainEval.Acceptance

open Scale Throughput

structure Gate where
  name : String
  perf : Bool
  passed : Bool
  detail : String

structure AcceptanceReport where
  gates : List Gate

namespace AcceptanceReport

variable (r : AcceptanceReport)

def allPass : Bool := r.gates.all (·.passed)

def correctnessPass : Bool := (r.gates.filter fun g => !g.perf).all (·.passed)

def yn (b : Bool) : String := if b then "PASS" else "FAIL"

def toText : String :=
  "=== v1.0 acceptance report ===\n" ++
    String.join (r.gates.map fun g =>
      "  [" ++ yn g.passed ++ "]" ++ (if g.perf then " (perf)" else "") ++ " " ++ g.name ++ " — " ++
        g.detail ++ "\n") ++
    "correctness: " ++ yn r.correctnessPass ++ "   overall: " ++ yn r.allPass ++ "\n"

end AcceptanceReport

-- The gates that boot a server of their own. The sizes of the other runs are in what these report.
structure AcceptanceConfig where
  runRestartRecovery : Bool
  runChaos : Bool
  runStorage : Bool

def AcceptanceConfig.smoke : AcceptanceConfig := ⟨false, false, false⟩

def AcceptanceConfig.fullScale : AcceptanceConfig := ⟨true, true, true⟩

-- What the pillars report.
structure World where
  endpoint : String
  connected : Except String WireUuid
  scale : Except String ScaleReport
  concurrent : Except String ConcurrentReport
  recallQuality : Except String RecallQualityReport
  core : List ScenarioOutcome
  typedGraph : List ScenarioOutcome
  invariants : List ScenarioOutcome
  admin : List ScenarioOutcome
  restartRecovery : ScenarioOutcome
  killDuringWrite : ScenarioOutcome
  storageFootprint : ScenarioOutcome

section Gates

-- How a float is printed to so many places, where it is a budget or a share and where it is real.
variable (fmt : Nat → WithTop ℚ → String) (fmtReal : Nat → ℝ → String)

def latencyGate (l : LatencyResult) : Gate where
  name := "latency:" ++ l.verb
  perf := true
  passed := l.pass
  detail := "p50 " ++ fmt 3 l.p50Ms ++ "ms (≤" ++ fmt 0 l.targetP50Ms ++ ") p99 " ++
    fmt 3 l.p99Ms ++ "ms (≤" ++ fmt 0 l.targetP99Ms ++ ")"

def throughputGate (t : ThroughputResult) : Gate where
  name := "throughput:" ++ t.verb
  perf := true
  passed := t.pass
  detail := fmt 1 t.opsPerSec ++ " ops/s (≥" ++ fmt 0 t.targetOpsPerSec ++ ")"

def scaleGates : Except String ScaleReport → List Gate
  | .ok report => report.latency.map (latencyGate fmt) ++ report.throughput.map (throughputGate fmt)
  | .error e => [⟨"scale", true, false, "scale run errored: " ++ e⟩]

def floorGate (r : VerbThroughput) : Gate where
  name := "tput:" ++ r.verb
  perf := true
  passed := r.meetsFloor
  detail := fmt 1 r.opsPerSec ++ " ops/s (≥" ++ fmt 0 r.targetOpsPerSec ++ ") over " ++
    toString r.clients ++ " clients; p50 " ++ fmt 2 r.p50Ms ++ "ms p99 " ++ fmt 2 r.p99Ms ++
    "ms; ops=" ++ toString r.ops ++ " err=" ++ toString r.errors ++ " timeout=" ++
    toString r.timeouts

def loadedLatencyGate (r : VerbThroughput) : Gate where
  name := "latency:tput:" ++ r.verb
  perf := true
  passed := r.meetsLatency
  detail := "p50 " ++ fmt 2 r.p50Ms ++ "ms (≤" ++ fmt 0 r.latencyTarget.p50Ms ++ ") p99 " ++
    fmt 2 r.p99Ms ++ "ms (≤" ++ fmt 0 r.latencyTarget.p99Ms ++ ")"

def concurrentGates : Except String ConcurrentReport → List Gate
  | .ok report =>
    (report.results.flatMap fun r => [floorGate fmt r, loadedLatencyGate fmt r]) ++
      [⟨"concurrent_no_errors", false, report.noErrors, report.errorSummary⟩]
  | .error e =>
    [⟨"concurrent_no_errors", false, false, "concurrent throughput run errored: " ++ e⟩]

def recallText (r : RecallQualityReport) : String :=
  "recall quality (" ++ toString r.queries ++ " queries, top_k=" ++ toString r.topK ++
    "): recall@1 " ++ fmt 3 r.recallAt1 ++ " (≥ " ++ fmt 2 r.targetAt1 ++ ")  recall@" ++
    toString r.topK ++ " " ++ fmt 3 r.recallAtK ++ " (≥ " ++ fmt 2 r.targetAtK ++ ")  MRR " ++
    fmt 3 r.mrr ++ " (≥ " ++ fmt 2 r.targetMrr ++ "~)  nDCG@" ++ toString r.topK ++ " " ++
    fmtReal 3 r.ndcgAtK ++ " (≥ " ++ fmt 2 r.targetNdcg ++ "~)  [" ++
    (if r.pass then "PASS" else "FAIL") ++ "]"

def recallGate : Except String RecallQualityReport → Gate
  | .ok rq => ⟨"recall_quality", false, rq.pass, recallText fmt fmtReal rq⟩
  | .error e => ⟨"recall_quality", false, false, "recall probe errored: " ++ e⟩

def scenarioGate (o : ScenarioOutcome) : Gate := ⟨o.name, false, o.passed, o.detail⟩

def endpointGates (w : World) : List Gate :=
  match w.connected with
  | .ok _ => scaleGates fmt w.scale ++ concurrentGates fmt w.concurrent ++
      [recallGate fmt fmtReal w.recallQuality]
  | .error e =>
    [⟨"connect", false, false, "could not connect to " ++ w.endpoint ++ ": " ++ e⟩]

def runAcceptance (cfg : AcceptanceConfig) (w : World) : AcceptanceReport where
  gates := endpointGates fmt fmtReal w ++ w.core.map scenarioGate ++ w.typedGraph.map scenarioGate ++
    w.invariants.map scenarioGate ++ w.admin.map scenarioGate ++
    (if cfg.runRestartRecovery then [scenarioGate w.restartRecovery] else []) ++
    (if cfg.runChaos then [scenarioGate w.killDuringWrite] else []) ++
    (if cfg.runStorage then [scenarioGate w.storageFootprint] else [])

def acceptanceConfig (full : Bool) : AcceptanceConfig :=
  if full then .fullScale else .smoke

-- What the command prints on its two streams, and its exit code.
structure CommandResult where
  out : String
  err : String
  code : Nat

-- `env` is the value of `BRAIN_EVAL_RESTART_RECOVERY`.
def acceptanceCmd (full : Bool) (env : Option String) (w : World) : CommandResult :=
  let head := "brain-eval :: v1.0 acceptance" ++ (if full then " (full-scale)" else "") ++
    "\n  endpoint : " ++ w.endpoint ++ "\n\n"
  let cfg := acceptanceConfig full
  -- the variable adds the gate and never takes it away
  let cfg := { cfg with runRestartRecovery := cfg.runRestartRecovery || env == some "1" }
  let report := runAcceptance fmt fmtReal cfg w
  if report.allPass then
    ⟨head ++ report.toText ++ "acceptance: PASS (all gates, including performance)\n", "", 0⟩
  else if report.correctnessPass then
    ⟨head ++ report.toText ++ "acceptance: correctness PASS; performance gates need reference " ++
      "hardware (16c/64GB/NVMe) to be meaningful — see the report above\n", "", 0⟩
  else
    ⟨head ++ report.toText, "acceptance: FAIL — a correctness gate did not pass\n", 1⟩

theorem correctness_of_all {r : AcceptanceReport} (all : r.allPass = true) :
    r.correctnessPass = true := by
  rw [AcceptanceReport.allPass, List.all_eq_true] at all
  rw [AcceptanceReport.correctnessPass, List.all_eq_true]
  exact fun g member => all g (List.mem_of_mem_filter member)

/-- Every gate of the list that is not a performance gate passes. -/
def Correct (gates : List Gate) : Prop := ∀ g ∈ gates, g.perf = false → g.passed = true

theorem correctnessPass_iff {r : AcceptanceReport} :
    r.correctnessPass = true ↔ Correct r.gates := by
  simp only [AcceptanceReport.correctnessPass, Correct, List.all_eq_true, List.mem_filter,
    Bool.not_eq_true', and_imp]

@[simp] theorem correct_append {first rest : List Gate} :
    Correct (first ++ rest) ↔ Correct first ∧ Correct rest := List.forall_mem_append

@[simp] theorem correct_scenarios {outcomes : List ScenarioOutcome} :
    Correct (outcomes.map scenarioGate) ↔ ∀ o ∈ outcomes, o.passed = true := by
  simp [Correct, scenarioGate]

theorem correct_optional {run : Bool} {o : ScenarioOutcome} :
    Correct (if run then [scenarioGate o] else []) ↔ (run = true → o.passed = true) := by
  cases run <;> simp [Correct, scenarioGate]

theorem correct_of_perf {gates : List Gate} (measured : ∀ g ∈ gates, g.perf = true) :
    Correct gates := by
  intro g member gated
  rw [measured g member] at gated
  cases gated

theorem correct_scaleGates (scale : Except String ScaleReport) : Correct (scaleGates fmt scale) := by
  apply correct_of_perf
  cases scale with
  | error e => simp [scaleGates]
  | ok report =>
    intro g member
    rcases List.mem_append.mp member with member | member <;>
      · obtain ⟨measured, -, rfl⟩ := List.mem_map.mp member
        rfl

theorem correct_concurrentGates {concurrent : Except String ConcurrentReport} :
    Correct (concurrentGates fmt concurrent) ↔
      ∃ report, concurrent = .ok report ∧ report.noErrors = true := by
  cases concurrent with
  | error e => simp [Correct, concurrentGates]
  | ok report =>
    have measured : Correct
        (report.results.flatMap fun r => [floorGate fmt r, loadedLatencyGate fmt r]) := by
      apply correct_of_perf
      intro g member
      obtain ⟨r, -, listed⟩ := List.mem_flatMap.mp member
      simp only [List.mem_cons, List.not_mem_nil, or_false] at listed
      rcases listed with rfl | rfl <;> rfl
    rw [concurrentGates, correct_append, and_iff_right measured]
    simp [Correct]

theorem correct_recallGate {quality : Except String RecallQualityReport} :
    Correct [recallGate fmt fmtReal quality] ↔ ∃ rq, quality = .ok rq ∧ rq.pass = true := by
  cases quality <;> simp [Correct, recallGate]

theorem correct_endpointGates {w : World} : Correct (endpointGates fmt fmtReal w) ↔
    (∃ id, w.connected = .ok id) ∧ (∃ report, w.concurrent = .ok report ∧ report.noErrors = true) ∧
      ∃ rq, w.recallQuality = .ok rq ∧ rq.pass = true := by
  rw [endpointGates]
  cases w.connected with
  | error e => simp [Correct]
  | ok id =>
    simp only [correct_append, correct_concurrentGates, correct_recallGate]
    simp [correct_scaleGates]

theorem acceptanceCmd_code (full : Bool) (env : Option String) (w : World) :
    (acceptanceCmd fmt fmtReal full env w).code = 0 ↔
      Correct (runAcceptance fmt fmtReal { acceptanceConfig full with
        runRestartRecovery := (acceptanceConfig full).runRestartRecovery || env == some "1" }
          w).gates := by
  rw [← correctnessPass_iff, acceptanceCmd]
  split
  next all => simpa using correctness_of_all all
  next =>
    split
    next correct => simpa using correct
    next wrong => simpa using wrong

end Gates

end BrainEval.Acceptance
