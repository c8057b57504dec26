import Mathlib
import BrainEval.Blackbox.Percentile

set_option autoImplicit false

namespace BrainEval

open SortBy OrderStatistic

-- A p99 budget of infinity is a budget the specification does not give.
structure VerbTarget where
  p50Ms : ℚ
  p99Ms : WithTop ℚ

def VerbTarget.pass (target : VerbTarget) (measuredP50Ms measuredP99Ms : ℚ) : Bool :=
  measuredP50Ms ≤ target.p50Ms && decide ((measuredP99Ms : WithTop ℚ) ≤ target.p99Ms)

structure Targets where
  encode : VerbTarget
  «recall» : VerbTarget
  statementCreate : VerbTarget
  relationCreate : VerbTarget
  entityResolveTier12 : VerbTarget
  encodeOpsPerSec : ℚ
  recallOpsPerSec : ℚ

def Targets.default : Targets where
  encode := ⟨12, (25 : ℚ)⟩
  «recall» := ⟨10, (50 : ℚ)⟩
  statementCreate := ⟨1, (5 : ℚ)⟩
  relationCreate := ⟨1, (5 : ℚ)⟩
  entityResolveTier12 := ⟨1, ⊤⟩
  encodeOpsPerSec := 100
  recallOpsPerSec := 1000

/-- Half of the samples are within the one budget, 99 in a hundred within the other. -/
def VerbTarget.Holds (target : VerbTarget) (samples : List ℚ) : Prop :=
  ⌈(1 / 2 : ℚ) * samples.length⌉₊ ≤ samples.countP (· ≤ target.p50Ms) ∧
    ⌈(99 / 100 : ℚ) * samples.length⌉₊ ≤
      samples.countP fun ms : ℚ => decide ((ms : WithTop ℚ) ≤ target.p99Ms)

section Measured

variable {samples : List ℚ}

theorem NearestRank.le_budget_iff {q v : ℚ} (rank : NearestRank samples q v)
    {budget : WithTop ℚ} :
    (v : WithTop ℚ) ≤ budget ↔ ⌈q * samples.length⌉₊ ≤
      samples.countP fun ms : ℚ => decide ((ms : WithTop ℚ) ≤ budget) := by
  cases budget with
  | top => simpa using rank.reached.trans List.countP_le_length
  | coe bound => simpa using rank.le_iff

-- The second helper call reads the buffer the first one sorted.
theorem percentiles_read (filled : samples ≠ []) :
    ∃ p50 p99, nearestRankPercentile samples (1 / 2) = some (p50, sortByKey id samples) ∧
      nearestRankPercentile (sortByKey id samples) (99 / 100) =
        some (p99, sortByKey id samples) ∧
      NearestRank samples (1 / 2) p50 ∧ NearestRank samples (99 / 100) p99 := by
  obtain ⟨p50, half, rank⟩ :=
    exists_nearestRank filled (by norm_num : (0 : ℚ) < 1 / 2) (by norm_num)
  obtain ⟨p99, tail, rank'⟩ :=
    exists_nearestRank filled (by norm_num : (0 : ℚ) < 99 / 100) (by norm_num)
  have sorted : nearestRankPercentile (sortByKey id samples) (99 / 100) =
      nearestRankPercentile samples (99 / 100) :=
    nearestRankPercentile_perm (sortByKey_perm id samples).symm
  exact ⟨p50, p99, half, sorted.trans tail, rank, rank'⟩

end Measured

namespace Scale

structure LatencyResult where
  verb : String
  samples : Nat
  p50Ms : ℚ
  p99Ms : ℚ
  targetP50Ms : ℚ
  targetP99Ms : WithTop ℚ

def LatencyResult.pass (r : LatencyResult) : Bool :=
  r.p50Ms ≤ r.targetP50Ms && decide ((r.p99Ms : WithTop ℚ) ≤ r.targetP99Ms)

def latency (verb : String) (samples : List ℚ) (target : VerbTarget) :
    Option (LatencyResult × List ℚ) := do
  let (p50, sorted) ← percentile samples (1 / 2)
  let (p99, sorted) ← percentile sorted (99 / 100)
  return ({
    verb
    samples := samples.length
    p50Ms := p50
    p99Ms := p99
    targetP50Ms := target.p50Ms
    targetP99Ms := target.p99Ms }, sorted)

structure ThroughputResult where
  verb : String
  ops : Nat
  opsPerSec : ℚ
  targetOpsPerSec : ℚ

def ThroughputResult.pass (r : ThroughputResult) : Bool := r.opsPerSec ≥ r.targetOpsPerSec

def throughput (verb : String) (ops : Nat) (targetOpsPerSec : ℚ) (sampleMs : List ℚ) :
    ThroughputResult :=
  let totalMs := sampleMs.sum
  { verb
    ops
    opsPerSec := if 0 < totalMs then ops * 1000 / totalMs else 0
    targetOpsPerSec }

structure ScaleReport where
  ingested : Nat
  latency : List LatencyResult
  throughput : List ThroughputResult

def ScaleReport.allPass (r : ScaleReport) : Bool :=
  r.latency.all (·.pass) && r.throughput.all (·.pass)

-- The report `run_scale` makes of its probes.
def report (ingested probeN : Nat) (targets : Targets) (encodeMs recallMs : List ℚ) :
    Option ScaleReport := do
  let encodeTput := throughput "encode" probeN targets.encodeOpsPerSec encodeMs
  let recallTput := throughput "recall" probeN targets.recallOpsPerSec recallMs
  let (encodeLatency, _) ← latency "encode" encodeMs targets.encode
  let (recallLatency, _) ← latency "recall" recallMs targets.recall
  return {
    ingested
    latency := [encodeLatency, recallLatency]
    throughput := [encodeTput, recallTput] }

theorem latency_pass_iff {samples : List ℚ} (filled : samples ≠ []) (verb : String)
    (target : VerbTarget) :
    ∃ r sorted, latency verb samples target = some (r, sorted) ∧
      (r.pass = true ↔ target.Holds samples) := by
  obtain ⟨p50, p99, half, tail, rank, rank'⟩ := percentiles_read filled
  refine ⟨⟨verb, samples.length, p50, p99, target.p50Ms, target.p99Ms⟩, sortByKey id samples,
    ?_, ?_⟩
  · simp only [latency, percentile, half, tail, Option.bind_eq_bind, Option.bind_some,
      Option.pure_def]
  · rw [LatencyResult.pass, Bool.and_eq_true, decide_eq_true_eq, decide_eq_true_eq, rank.le_iff,
      rank'.le_budget_iff, VerbTarget.Holds]

-- Probes with no time on the clock make no throughput.
theorem throughput_pass_iff {verb : String} {ops : Nat} {floor : ℚ} {sampleMs : List ℚ}
    (gated : 0 < floor) :
    (throughput verb ops floor sampleMs).pass = true ↔
      0 < sampleMs.sum ∧ floor * sampleMs.sum ≤ ops * 1000 := by
  rw [ThroughputResult.pass, decide_eq_true_eq, throughput, ge_iff_le]
  by_cases spent : 0 < sampleMs.sum
  next => rw [if_pos spent, le_div_iff₀ spent, and_iff_right spent]
  next => simp [spent, not_le.mpr gated]

theorem report_allPass_iff {encodeMs recallMs : List ℚ} (encoded : encodeMs ≠ [])
    (recalled : recallMs ≠ []) {targets : Targets} (encode_floor : 0 < targets.encodeOpsPerSec)
    (recall_floor : 0 < targets.recallOpsPerSec) (ingested probeN : Nat) :
    ∃ r, report ingested probeN targets encodeMs recallMs = some r ∧
      (r.allPass = true ↔
        targets.encode.Holds encodeMs ∧ targets.recall.Holds recallMs ∧
        (0 < encodeMs.sum ∧ targets.encodeOpsPerSec * encodeMs.sum ≤ probeN * 1000) ∧
        (0 < recallMs.sum ∧ targets.recallOpsPerSec * recallMs.sum ≤ probeN * 1000)) := by
  obtain ⟨e, sorted, measured, pass⟩ := latency_pass_iff encoded "encode" targets.encode
  obtain ⟨r, sorted', measured', pass'⟩ := latency_pass_iff recalled "recall" targets.recall
  refine ⟨⟨ingested, [e, r], [throughput "encode" probeN targets.encodeOpsPerSec encodeMs,
    throughput "recall" probeN targets.recallOpsPerSec recallMs]⟩, ?_, ?_⟩
  · simp only [report, measured, measured', Option.bind_eq_bind, Option.bind_some, Option.pure_def]
  · simp only [ScaleReport.allPass, List.all_cons, List.all_nil, Bool.and_true, Bool.and_eq_true,
      pass, pass', throughput_pass_iff encode_floor, throughput_pass_iff recall_floor, and_assoc]

end Scale

namespace Throughput

inductive TputVerb where
  | encode
  | statementCreate
  | relationCreate
  | entityResolve

def TputVerb.label : TputVerb → String
  | .encode => "encode"
  | .statementCreate => "statement_create"
  | .relationCreate => "relation_create"
  | .entityResolve => "entity_resolve"

def TputVerb.targetOpsPerSec : TputVerb → ℚ
  | .encode => 5000
  | .statementCreate => 10000
  | .relationCreate => 2000
  | .entityResolve => 10000

def TputVerb.latencyTarget (targets : Targets) : TputVerb → VerbTarget
  | .encode => targets.encode
  | .statementCreate => targets.statementCreate
  | .relationCreate => targets.relationCreate
  | .entityResolve => targets.entityResolveTier12

structure WorkerStat where
  ops : Nat
  errors : Nat
  timeouts : Nat
  latMs : List ℚ

def WorkerStat.default : WorkerStat := ⟨0, 0, 0, []⟩

/-- One operation of a worker; a connect that fails is an attempt too, and the last one. -/
inductive Attempt where
  | done (ms : ℚ)
  | timedOut
  | failed
  deriving DecidableEq

def WorkerStat.record (stat : WorkerStat) : Attempt → WorkerStat
  | .done ms => { stat with ops := stat.ops + 1, latMs := stat.latMs ++ [ms] }
  | .timedOut => { stat with timeouts := stat.timeouts + 1 }
  | .failed => { stat with errors := stat.errors + 1 }

def workerLoop (attempts : List Attempt) : WorkerStat := attempts.foldl .record .default

-- A worker that panicked joins without its tally.
def WorkerStat.join (total : WorkerStat) : Option WorkerStat → WorkerStat
  | some stat => {
      ops := total.ops + stat.ops
      errors := total.errors + stat.errors
      timeouts := total.timeouts + stat.timeouts
      latMs := total.latMs ++ stat.latMs }
  | none => { total with errors := total.errors + 1 }

def gather (joined : List (Option WorkerStat)) : WorkerStat := joined.foldl .join .default

structure VerbThroughput where
  verb : String
  clients : Nat
  windowSecs : ℚ
  ops : Nat
  errors : Nat
  timeouts : Nat
  opsPerSec : ℚ
  p50Ms : ℚ
  p99Ms : ℚ
  targetOpsPerSec : ℚ
  latencyTarget : VerbTarget

def VerbThroughput.meetsFloor (r : VerbThroughput) : Bool := r.opsPerSec ≥ r.targetOpsPerSec

def VerbThroughput.meetsLatency (r : VerbThroughput) : Bool :=
  r.latencyTarget.pass r.p50Ms r.p99Ms

def VerbThroughput.clean (r : VerbThroughput) : Bool := r.errors == 0

-- `measure_verb` behind its setup: the workers in the order they join.
def measureVerb (verb : TputVerb) (clients : Nat) (windowSecs : ℚ)
    (joined : List (Option WorkerStat)) : Option VerbThroughput := do
  let total := gather joined
  let (p50, sorted) ← percentile total.latMs (1 / 2)
  let (p99, _) ← percentile sorted (99 / 100)
  return {
    verb := verb.label
    clients
    windowSecs
    ops := total.ops
    errors := total.errors
    timeouts := total.timeouts
    opsPerSec := if 0 < windowSecs then total.ops / windowSecs else 0
    p50Ms := p50
    p99Ms := p99
    targetOpsPerSec := verb.targetOpsPerSec
    latencyTarget := verb.latencyTarget .default }

def Attempt.ms : Attempt → Option ℚ
  | .done ms => some ms
  | _ => none

theorem workerLoop_eq (attempts : List Attempt) :
    workerLoop attempts = {
      ops := (attempts.filterMap (·.ms)).length
      errors := attempts.count .failed
      timeouts := attempts.count .timedOut
      latMs := attempts.filterMap (·.ms) } := by
  have from_stat (stat : WorkerStat) : attempts.foldl .record stat = {
      ops := stat.ops + (attempts.filterMap (·.ms)).length
      errors := stat.errors + attempts.count .failed
      timeouts := stat.timeouts + attempts.count .timedOut
      latMs := stat.latMs ++ attempts.filterMap (·.ms) } := by
    induction attempts generalizing stat with
    | nil => simp
    | cons attempt attempts ih =>
      rw [List.foldl_cons, ih]
      cases attempt with
      | done ms => simp [WorkerStat.record, Attempt.ms, Nat.add_assoc, Nat.add_comm 1]
      | timedOut => simp [WorkerStat.record, Attempt.ms, Nat.add_assoc, Nat.add_comm 1]
      | failed => simp [WorkerStat.record, Attempt.ms, Nat.add_assoc, Nat.add_comm 1]
  rw [workerLoop, from_stat]
  simp [WorkerStat.default]

theorem gather_eq (joined : List (Option WorkerStat)) :
    gather joined = {
      ops := (joined.map fun stat => stat.elim 0 (·.ops)).sum
      errors := (joined.map fun stat => stat.elim 1 (·.errors)).sum
      timeouts := (joined.map fun stat => stat.elim 0 (·.timeouts)).sum
      latMs := joined.flatMap fun stat => stat.elim [] (·.latMs) } := by
  have from_total (total : WorkerStat) : joined.foldl .join total = {
      ops := total.ops + (joined.map fun stat => stat.elim 0 (·.ops)).sum
      errors := total.errors + (joined.map fun stat => stat.elim 1 (·.errors)).sum
      timeouts := total.timeouts + (joined.map fun stat => stat.elim 0 (·.timeouts)).sum
      latMs := total.latMs ++ joined.flatMap fun stat => stat.elim [] (·.latMs) } := by
    induction joined generalizing total with
    | nil => simp
    | cons stat joined ih =>
      rw [List.foldl_cons, ih]
      cases stat with
      | none => simp [WorkerStat.join, Nat.add_assoc]
      | some stat => simp [WorkerStat.join, Nat.add_assoc]
  rw [gather, from_total]
  simp [WorkerStat.default]

-- The workers may join in any order.
theorem measureVerb_perm {joined other : List (Option WorkerStat)} (perm : joined.Perm other)
    (verb : TputVerb) (clients : Nat) (windowSecs : ℚ) :
    measureVerb verb clients windowSecs other = measureVerb verb clients windowSecs joined := by
  have ops := (perm.map fun stat => stat.elim 0 (·.ops)).sum_eq
  have errors := (perm.map fun stat => stat.elim 1 (·.errors)).sum_eq
  have timeouts := (perm.map fun stat => stat.elim 0 (·.timeouts)).sum_eq
  have latencies := perm.flatMap_right fun stat : Option WorkerStat => stat.elim [] (·.latMs)
  have half : percentile _ (1 / 2) = percentile _ (1 / 2) := nearestRankPercentile_perm latencies
  simp only [measureVerb, gather_eq, ops, errors, timeouts, half]

section Workers

-- A worker that panicked, or what it attempted.
variable (workers : List (Option (List Attempt)))

def latencies : List ℚ := workers.flatMap fun worker => worker.elim [] fun attempts =>
  attempts.filterMap (·.ms)

def Clean : Prop := ∀ worker ∈ workers, ∃ attempts, worker = some attempts ∧ .failed ∉ attempts

theorem gather_workers :
    (gather (workers.map (·.map workerLoop))).ops = (latencies workers).length ∧
      (gather (workers.map (·.map workerLoop))).latMs = latencies workers ∧
      ((gather (workers.map (·.map workerLoop))).errors = 0 ↔ Clean workers) := by
  have opsOf (worker : Option (List Attempt)) :
      (worker.map workerLoop).elim 0 (·.ops) =
        (worker.elim [] fun attempts => attempts.filterMap (·.ms)).length := by
    cases worker <;> simp [workerLoop_eq]
  have latMsOf (worker : Option (List Attempt)) :
      (worker.map workerLoop).elim [] (·.latMs) =
        worker.elim [] fun attempts => attempts.filterMap (·.ms) := by
    cases worker <;> simp [workerLoop_eq]
  have errorsOf (worker : Option (List Attempt)) :
      (worker.map workerLoop).elim 1 (·.errors) = 0 ↔
        ∃ attempts, worker = some attempts ∧ .failed ∉ attempts := by
    cases worker <;> simp [workerLoop_eq, List.count_eq_zero]
  simp only [gather_eq, List.map_map, List.flatMap_map, Function.comp_def, opsOf, latMsOf]
  refine ⟨(List.length_flatMap ..).symm, rfl, ?_⟩
  rw [List.sum_eq_zero_iff, List.forall_mem_map, Clean]
  exact forall₂_congr fun worker _ => errorsOf worker

variable {workers}

theorem measureVerb_gates (filled : latencies workers ≠ []) {joined : List (Option WorkerStat)}
    (finished : (workers.map (·.map workerLoop)).Perm joined) (verb : TputVerb) (clients : Nat)
    (windowSecs : ℚ) :
    ∃ r, measureVerb verb clients windowSecs joined = some r ∧ r.ops = (latencies workers).length ∧
      (r.clean = true ↔ Clean workers) ∧
      (r.meetsLatency = true ↔ (verb.latencyTarget .default).Holds (latencies workers)) := by
  obtain ⟨ops, latMs, errors⟩ := gather_workers workers
  obtain ⟨p50, p99, half, tail, rank, rank'⟩ := percentiles_read filled
  rw [measureVerb_perm finished]
  simp only [measureVerb, percentile, latMs, half, tail, Option.bind_eq_bind, Option.bind_some,
    Option.pure_def, Option.some.injEq, exists_eq_left']
  refine ⟨ops, by rw [VerbThroughput.clean, beq_iff_eq, errors], ?_⟩
  rw [VerbThroughput.meetsLatency, VerbTarget.pass, Bool.and_eq_true, decide_eq_true_eq,
    decide_eq_true_eq, rank.le_iff, rank'.le_budget_iff, VerbTarget.Holds]

end Workers

end Throughput

end BrainEval
