import Mathlib
import BrainEval.SpaceManifest
import BrainEval.Blackbox.LatencyGates

set_option autoImplicit false

namespace BrainEval.Throughput

inductive BrainError where
  | timeout (message : String)
  | other (message : String)
  deriving DecidableEq

def isTimeout : BrainError → Bool
  | .timeout _ => true
  | .other _ => false

structure ConcurrentConfig where
  clients : Nat
  verbs : List TputVerb

def TputVerb.all : List TputVerb := [.encode, .statementCreate, .relationCreate, .entityResolve]

def ConcurrentConfig.default : ConcurrentConfig := ⟨48, TputVerb.all⟩

def ConcurrentConfig.smoke : ConcurrentConfig := ⟨16, TputVerb.all⟩

inductive WorkerPlan where
  | encode
  | resolve (name : String)
  | statement (subject : WireUuid)
  | relation (source target : WireUuid)

inductive Prepared where
  | shared (plan : WorkerPlan)
  | resolve (name : String)
  | statement (subjects : List WireUuid)
  | relation (pairs : List (WireUuid × WireUuid))

-- No plan where the source indexes past its list.
def Prepared.forWorker (prepared : Prepared) (w : Nat) : Option WorkerPlan :=
  match prepared with
  | .shared plan => some plan
  | .resolve name => some (.resolve name)
  | .statement subjects => subjects[w]?.map .statement
  | .relation pairs => pairs[w]?.map fun (source, target) => .relation source target

def shortHex (id : WireUuid) : String :=
  String.ofList ((id.toList.take 6).flatMap fun x =>
    [SpaceManifest.hexDigit (x.toNat / 16), SpaceManifest.hexDigit (x.toNat % 16)])

section Prepare

variable (spaceId : WireUuid) (create : String → Except BrainError WireUuid)

def subjectName (w : Nat) : String := "Stmt Subject " ++ toString w ++ " " ++ shortHex spaceId

def sourceName (w : Nat) : String := "Rel From " ++ toString w ++ " " ++ shortHex spaceId

def targetName (w : Nat) : String := "Rel To " ++ toString w ++ " " ++ shortHex spaceId

def prepare (clients : Nat) : TputVerb → Except BrainError Prepared
  | .encode => .ok (.shared .encode)
  | .entityResolve => do
    let name := "Resolve Target " ++ shortHex spaceId
    let _ ← create name
    return .resolve name
  | .statementCreate => do
    let subjects ← (List.range clients).mapM fun w => create (subjectName spaceId w)
    return .statement subjects
  | .relationCreate => do
    let pairs ← (List.range clients).mapM fun w => do
      let source ← create (sourceName spaceId w)
      let target ← create (targetName spaceId w)
      return (source, target)
    return .relation pairs

end Prepare

def verbSetupFailed (verb : TputVerb) (clients : Nat) (e : BrainError) : VerbThroughput where
  verb := verb.label
  clients
  windowSecs := 0
  ops := 0
  errors := if isTimeout e then 0 else 1
  timeouts := if isTimeout e then 1 else 0
  opsPerSec := 0
  p50Ms := 0
  p99Ms := 0
  targetOpsPerSec := verb.targetOpsPerSec
  latencyTarget := verb.latencyTarget .default

/-- What one verb's run meets: its setup, what each worker attempts (nothing where its task panics),
and the tallies in the order in which the workers join. -/
structure VerbRun (clients : Nat) where
  connected : Except BrainError Unit
  create : String → Except BrainError WireUuid
  attempts : Nat → Option (List Attempt)
  joined : List (Option WorkerStat)
  finished : (((List.range clients).map attempts).map (·.map workerLoop)).Perm joined
  windowSecs : ℚ

def VerbRun.setup {clients : Nat} (run : VerbRun clients) (spaceId : WireUuid) (verb : TputVerb) :
    Except BrainError Prepared := do
  run.connected
  prepare spaceId run.create clients verb

-- `measure_verb`, with its setup.
def measureVerbSetup (clients : Nat) (spaceId : WireUuid) (verb : TputVerb)
    (run : VerbRun clients) : Option VerbThroughput :=
  match run.setup spaceId verb with
  | .error e => some (verbSetupFailed verb clients e)
  | .ok prepared => do
    let _ ← (List.range clients).mapM prepared.forWorker
    measureVerb verb clients run.windowSecs run.joined

structure ConcurrentReport where
  results : List VerbThroughput

namespace ConcurrentReport

variable (r : ConcurrentReport)

def noErrors : Bool :=
  !r.results.isEmpty && r.results.all (·.clean) && decide (0 < (r.results.map (·.ops)).sum)

def allMeetFloor : Bool := !r.results.isEmpty && r.results.all (·.meetsFloor)

def errorSummary : String :=
  "; ".intercalate (r.results.map fun v =>
    v.verb ++ ": " ++ toString v.ops ++ " ok / " ++ toString v.errors ++ " err / " ++
      toString v.timeouts ++ " timeout")

end ConcurrentReport

-- No report where the run panics.
def runConcurrentThroughput (cfg : ConcurrentConfig) (spaceId : WireUuid)
    (minted : Except String Unit) (runs : Nat → VerbRun cfg.clients) :
    Option (Except String ConcurrentReport) :=
  match minted with
  | .error e => some (.error e)
  | .ok _ =>
    (cfg.verbs.zipIdx.mapM fun (verb, i) =>
      measureVerbSetup cfg.clients spaceId verb (runs i)).map fun results => .ok ⟨results⟩

section Setup

variable {spaceId : WireUuid} {create : String → Except BrainError WireUuid} {clients : Nat}

theorem length_of_mapM_ok {ε α β : Type} {f : α → Except ε β} {items : List α} {found : List β}
    (ok : items.mapM f = .ok found) : found.length = items.length := by
  induction items generalizing found with
  | nil =>
    obtain rfl : [] = found := Except.ok.inj ok
    rfl
  | cons item items ih =>
    rw [List.mapM_cons] at ok
    cases first : f item with
    | error e => simp [first, bind, Except.bind] at ok
    | ok b =>
      cases rest : items.mapM f with
      | error e => simp [first, rest, bind, Except.bind] at ok
      | ok bs =>
        obtain rfl : b :: bs = found := by
          simpa [first, rest, bind, Except.bind, pure, Except.pure] using ok
        rw [List.length_cons, List.length_cons, ih rest]

-- A setup that succeeds has a plan for each worker.
theorem isSome_forWorker {verb : TputVerb} {prepared : Prepared}
    (ok : prepare spaceId create clients verb = .ok prepared) {w : Nat} (inside : w < clients) :
    (prepared.forWorker w).isSome = true := by
  cases verb with
  | encode =>
    obtain rfl := Except.ok.inj ok
    rfl
  | entityResolve =>
    simp only [prepare, bind, Except.bind] at ok
    split at ok
    next => cases ok
    next =>
      obtain rfl := Except.ok.inj ok
      rfl
  | statementCreate =>
    simp only [prepare, bind, Except.bind] at ok
    split at ok
    next => cases ok
    next subjects made =>
      obtain rfl := Except.ok.inj ok
      have all : w < subjects.length := by
        rwa [length_of_mapM_ok made, List.length_range]
      simp [Prepared.forWorker, List.getElem?_eq_getElem all]
  | relationCreate =>
    rw [prepare] at ok
    cases made : (List.range clients).mapM fun w => do
      let source ← create (sourceName spaceId w)
      let target ← create (targetName spaceId w)
      return (source, target) with
    | error e =>
      rw [made] at ok
      cases ok
    | ok pairs =>
      rw [made] at ok
      obtain rfl := Except.ok.inj ok
      have all : w < pairs.length := by
        rwa [length_of_mapM_ok made, List.length_range]
      simp [Prepared.forWorker, List.getElem?_eq_getElem all]

end Setup

theorem exists_mapM {α β : Type} {f : α → Option β} {P : α → β → Prop} {items : List α}
    (each : ∀ item ∈ items, ∃ b, f item = some b ∧ P item b) :
    ∃ found, items.mapM f = some found ∧ List.Forall₂ P items found := by
  induction items with
  | nil => exact ⟨[], rfl, .nil⟩
  | cons item items ih =>
    obtain ⟨b, made, holds⟩ := each item List.mem_cons_self
    obtain ⟨bs, rest, all⟩ := ih fun other member => each other (List.mem_cons_of_mem _ member)
    exact ⟨b :: bs, by simp [made, rest], .cons holds all⟩

theorem forall_mem_iff {α β : Type} {P : α → β → Prop} {p : α → Prop} {q : β → Prop}
    (same : ∀ a b, P a b → (q b ↔ p a)) {items : List α} {found : List β}
    (all : List.Forall₂ P items found) : (∀ b ∈ found, q b) ↔ ∀ a ∈ items, p a := by
  induction all with
  | nil => simp
  | cons here _ ih => rw [List.forall_mem_cons, List.forall_mem_cons, ih, same _ _ here]

section Verdict

variable {clients : Nat}

theorem exists_measureVerb (verb : TputVerb) (clients : Nat) (windowSecs : ℚ)
    (joined : List (Option WorkerStat)) :
    ∃ r, measureVerb verb clients windowSecs joined = some r ∧ r.ops = (gather joined).ops ∧
      r.errors = (gather joined).errors := by
  obtain ⟨⟨p50, sorted⟩, half⟩ := Option.isSome_iff_exists.mp
    (isSome_nearestRankPercentile (gather joined).latMs (1 / 2))
  obtain ⟨⟨p99, sorted'⟩, tail⟩ := Option.isSome_iff_exists.mp
    (isSome_nearestRankPercentile sorted (99 / 100))
  simp only [measureVerb, percentile, half, tail, Option.bind_eq_bind, Option.bind_some,
    Option.pure_def, Option.some.injEq, exists_eq_left', and_self]

def VerbRun.workers (run : VerbRun clients) : List (Option (List Attempt)) :=
  (List.range clients).map run.attempts

-- Nothing but timeouts went wrong: not in the setup, and not in any worker.
structure VerbRun.NoDefect (run : VerbRun clients) (spaceId : WireUuid) (verb : TputVerb) :
    Prop where
  setup : ∀ e, run.setup spaceId verb = .error e → isTimeout e = true
  workers : ∀ prepared, run.setup spaceId verb = .ok prepared → Clean run.workers

def VerbRun.completed (run : VerbRun clients) (spaceId : WireUuid) (verb : TputVerb) : List ℚ :=
  match run.setup spaceId verb with
  | .error _ => []
  | .ok _ => latencies run.workers

theorem measureVerbSetup_spec (spaceId : WireUuid) (verb : TputVerb) (run : VerbRun clients) :
    ∃ r, measureVerbSetup clients spaceId verb run = some r ∧
      r.ops = (run.completed spaceId verb).length ∧
      (r.clean = true ↔ run.NoDefect spaceId verb) := by
  unfold measureVerbSetup VerbRun.completed
  cases prepared : run.setup spaceId verb with
  | error e =>
    refine ⟨_, rfl, rfl, ?_⟩
    have verdict : (verbSetupFailed verb clients e).clean = true ↔ isTimeout e = true := by
      cases e <;> simp [verbSetupFailed, VerbThroughput.clean, isTimeout]
    rw [verdict]
    constructor
    · intro slow
      refine ⟨fun e' failed => ?_, fun ready ok => ?_⟩
      · obtain rfl := Except.error.inj (prepared.symm.trans failed)
        exact slow
      · cases prepared.symm.trans ok
    · exact fun none => none.setup e prepared
  | ok ready =>
    have plan (w : Nat) (member : w ∈ List.range clients) :
        ∃ plan, ready.forWorker w = some plan ∧ True := by
      have made : prepare spaceId run.create clients verb = .ok ready := by
        cases reached : run.connected with
        | error e => simp [VerbRun.setup, reached, bind, Except.bind] at prepared
        | ok _ => simpa [VerbRun.setup, reached, bind, Except.bind] using prepared
      obtain ⟨plan, given⟩ :=
        Option.isSome_iff_exists.mp (isSome_forWorker made (List.mem_range.mp member))
      exact ⟨plan, given, trivial⟩
    obtain ⟨plans, given, -⟩ := exists_mapM plan
    obtain ⟨r, measured, ops, errors⟩ :=
      exists_measureVerb verb clients run.windowSecs (run.workers.map (·.map workerLoop))
    obtain ⟨gathered, -, clean⟩ := gather_workers run.workers
    refine ⟨r, ?_, by rw [ops, gathered], ?_⟩
    · change ((List.range clients).mapM ready.forWorker).bind _ = some r
      rw [given, Option.bind_some, ← measured]
      exact measureVerb_perm run.finished verb clients run.windowSecs
    · rw [VerbThroughput.clean, beq_iff_eq, errors, clean]
      constructor
      · refine fun all => ⟨fun e failed => ?_, fun _ _ => all⟩
        cases prepared.symm.trans failed
      · exact fun none => none.workers ready prepared

theorem concurrent_no_errors_iff (cfg : ConcurrentConfig) (spaceId : WireUuid)
    (runs : Nat → VerbRun cfg.clients) :
    ∃ report, runConcurrentThroughput cfg spaceId (.ok ()) runs = some (.ok report) ∧
      (report.noErrors = true ↔ cfg.verbs ≠ [] ∧
        (∀ i verb, cfg.verbs[i]? = some verb → (runs i).NoDefect spaceId verb) ∧
        ∃ i verb, cfg.verbs[i]? = some verb ∧ (runs i).completed spaceId verb ≠ []) := by
  have measured (item : TputVerb × Nat) (_ : item ∈ cfg.verbs.zipIdx) :
      ∃ r, measureVerbSetup cfg.clients spaceId item.1 (runs item.2) = some r ∧
        r.ops = ((runs item.2).completed spaceId item.1).length ∧
        (r.clean = true ↔ (runs item.2).NoDefect spaceId item.1) :=
    measureVerbSetup_spec spaceId item.1 (runs item.2)
  obtain ⟨results, ran, each⟩ := exists_mapM measured
  have filled : results.isEmpty = true ↔ cfg.verbs = [] := by
    have lengths := each.length_eq
    rw [List.length_zipIdx] at lengths
    rw [List.isEmpty_iff, ← List.length_eq_zero_iff, ← lengths, List.length_eq_zero_iff]
  have listed (P : TputVerb → Nat → Prop) : (∀ item ∈ cfg.verbs.zipIdx, P item.1 item.2) ↔
      ∀ i verb, cfg.verbs[i]? = some verb → P verb i := by
    simp only [Prod.forall, List.mem_zipIdx_iff_getElem?]
    exact forall_comm
  have clean : (∀ r ∈ results, r.clean = true) ↔
      ∀ i verb, cfg.verbs[i]? = some verb → (runs i).NoDefect spaceId verb :=
    (forall_mem_iff (fun _ _ holds => holds.2) each).trans (listed _)
  have idle : (∀ r ∈ results, r.ops = 0) ↔
      ∀ i verb, cfg.verbs[i]? = some verb → (runs i).completed spaceId verb = [] :=
    (forall_mem_iff (fun _ _ holds => by rw [holds.1, List.length_eq_zero_iff]) each).trans
      (listed _)
  refine ⟨⟨results⟩, by rw [runConcurrentThroughput, ran, Option.map_some], ?_⟩
  rw [ConcurrentReport.noErrors, Bool.and_eq_true, Bool.and_eq_true, Bool.not_eq_true',
    ← Bool.not_eq_true, filled, List.all_eq_true, clean, decide_eq_true_eq, Nat.pos_iff_ne_zero,
    ne_eq, List.sum_eq_zero_iff, List.forall_mem_map, idle, and_assoc]
  push Not
  rfl

end Verdict

end BrainEval.Throughput
