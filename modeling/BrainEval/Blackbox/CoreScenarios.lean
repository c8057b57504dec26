import Mathlib
import BrainEval.Lib.Attempts
import BrainEval.SpaceManifest
import BrainEval.Blackbox.Scenario

set_option autoImplicit false

namespace BrainEval.CoreScenarios

open Early Scenario RustStr

def anyTextContains (hits : List MemoryResult) (needle : String) : Bool :=
  hits.any fun m => contains m.text needle

theorem anyTextContains_iff {hits : List MemoryResult} {needle : String} :
    anyTextContains hits needle = true ↔ ∃ m ∈ hits, contains m.text needle = true := by
  rw [anyTextContains, List.any_eq_true]

abbrev Hits : Type := Except HarnessError (List MemoryResult)

section Poll

variable (found : List MemoryResult → Bool)

def pollFrom : Nat → (Nat → Hits) → Hits
  | 0, answers => answers 0
  | n + 1, answers => do
    let hits ← answers 0
    if found hits then return hits
    pollFrom n fun i => answers (i + 1)

-- The first recall and nine more, as the server would answer each.
def pollRecallUntil (answers : Nat → Hits) : Hits := pollFrom found 9 answers

def settles : Hits → Bool
  | .ok hits => found hits
  | .error _ => true

theorem pollFrom_eq (n : Nat) (answers : Nat → Hits) :
    pollFrom found n answers = answers (Attempts.made (settles found) (n + 1) answers - 1) := by
  induction n generalizing answers with
  | zero => cases stops : settles found (answers 0) <;> simp [pollFrom, Attempts.made, stops]
  | succ n ih =>
    have later := Attempts.made_pos (settles found) (Nat.succ_pos n) fun i => answers (i + 1)
    rw [pollFrom, Attempts.made, ih]
    cases first : answers 0 with
    | error e => simp [settles, first, bind, Except.bind]
    | ok hits =>
      by_cases seen : found hits = true
      next => simp [settles, first, seen, bind, Except.bind, pure, Except.pure]
      next => simp [settles, seen, bind, Except.bind, Nat.sub_add_cancel later]

/-- Some attempt sees it, and no attempt before that one is refused. -/
def SeenWithin (n : Nat) (answers : Nat → Hits) : Prop :=
  ∃ i < n, (∃ hits, answers i = .ok hits ∧ found hits = true) ∧
    ∀ j < i, ∃ hits, answers j = .ok hits

theorem seen_iff {answers : Nat → Hits} :
    (∃ hits, pollRecallUntil found answers = .ok hits ∧ found hits = true) ↔
      SeenWithin found 10 answers := by
  simp only [pollRecallUntil, pollFrom_eq, Nat.reduceAdd]
  have within := Attempts.made_le (settles found) 10 answers
  have some_made := Attempts.made_pos (settles found) (n := 10) (by decide) answers
  constructor
  · rintro ⟨hits, last, seen⟩
    refine ⟨_, by omega, ⟨hits, last, seen⟩, fun j before => ?_⟩
    have goes_on := Attempts.goes_on_of_lt answers
      (show j + 1 < Attempts.made (settles found) 10 answers by omega)
    cases answered : answers j with
    | ok hits => exact ⟨hits, rfl⟩
    | error e => simp [settles, answered] at goes_on
  · rintro ⟨i, inside, ⟨hits, answered, seen⟩, earlier⟩
    have stops : settles found (answers i) = true := by rw [answered]; exact seen
    rcases Nat.lt_trichotomy (Attempts.made (settles found) 10 answers - 1) i with
      fewer | rfl | more
    · obtain ⟨last, given⟩ := earlier _ fewer
      have settled := Attempts.last_stops answers
        (show Attempts.made (settles found) 10 answers < 10 by omega)
      rw [given] at settled
      exact ⟨last, given, settled⟩
    · exact ⟨hits, answered, seen⟩
    · have goes_on := Attempts.goes_on_of_lt answers
        (show i + 1 < Attempts.made (settles found) 10 answers by omega)
      rw [stops] at goes_on
      cases goes_on

end Poll

def Shows (answer : Hits) (marker : String) : Prop :=
  ∃ hits, answer = .ok hits ∧ anyTextContains hits marker = true

def Hides (answer : Hits) (marker : String) : Prop :=
  ∃ hits, answer = .ok hits ∧ anyTextContains hits marker = false

def sdk {α : Type} (result : Except HarnessError α) : Scenario α :=
  labelled "sdk error: " (result.mapError HarnessError.display)

theorem yields_sdk_iff {α : Type} {result : Except HarnessError α} {a : α} :
    Yields (sdk result) a ↔ result = .ok a := by
  rw [sdk, yields_labelled_iff]
  cases result <;> simp [Except.mapError]

def markerOf (name : String) (spaceId : WireUuid) : String :=
  name ++ "-" ++ SpaceManifest.hex16 spaceId

-- The two connections of an isolation scenario, as they answer.
structure TwoSpaces where
  connectA : Except HarnessError WireUuid
  connectB : Except HarnessError Unit
  encode : String → Except HarnessError WireMemoryId
  recallA : String → Hits
  closeA : Except HarnessError Unit
  closeB : Except HarnessError Unit

def TwoSpaces.close (w : TwoSpaces) : Scenario Unit := do
  sdk w.closeA
  sdk w.closeB

theorem TwoSpaces.yields_close_iff {w : TwoSpaces} {u : Unit} :
    Yields w.close u ↔ w.closeA = .ok () ∧ w.closeB = .ok () := by
  simp only [TwoSpaces.close, yields_bind_iff, yields_sdk_iff]
  exact ⟨fun ⟨_, first, second⟩ => ⟨first, second⟩, fun ⟨first, second⟩ => ⟨(), first, second⟩⟩

structure IsolationWorld extends TwoSpaces where
  recallB : String → Hits

def secret (marker : String) : String := marker ++ ": the vault code is alpha-tango-niner"

def runIsolation (w : IsolationWorld) : Scenario ScenarioOutcome := do
  let spaceA ← sdk w.connectA
  sdk w.connectB
  let marker := markerOf "isolation-marker" spaceA
  let _ ← sdk (w.encode (secret marker))
  let bHits ← sdk (w.recallB marker)
  let aHits ← sdk (w.recallA marker)
  w.close
  require (anyTextContains bHits marker = false)
    "space B recalled space A's memory — isolation breach"
  require (anyTextContains aHits marker = true)
    "space A could not recall its own just-written memory"
  return .pass "multi_space_isolation" "A sees its memory; B (different space) does not"

def IsolationWorld.Isolated (w : IsolationWorld) : Prop :=
  ∃ spaceA, w.connectA = .ok spaceA ∧ w.connectB = .ok () ∧
    let marker := markerOf "isolation-marker" spaceA
    (∃ id, w.encode (secret marker) = .ok id) ∧ Hides (w.recallB marker) marker ∧
      Shows (w.recallA marker) marker ∧ w.closeA = .ok () ∧ w.closeB = .ok ()

theorem isolation_passes_iff {w : IsolationWorld} :
    Passes (outcome "multi_space_isolation" (runIsolation w)) ↔ w.Isolated := by
  simp only [passes_outcome_iff, runIsolation, yields_bind_iff, yields_sdk_iff,
    TwoSpaces.yields_close_iff, yields_require_iff, yields_pure_iff]
  constructor
  · rintro ⟨o, ⟨spaceA, a, _, b, id, written, bHits, inB, aHits, inA, -, closed, -, hidden, -,
      shown, -⟩, -⟩
    exact ⟨spaceA, a, b, ⟨id, written⟩, ⟨bHits, inB, hidden⟩, ⟨aHits, inA, shown⟩, closed⟩
  · rintro ⟨spaceA, a, b, ⟨id, written⟩, ⟨bHits, inB, hidden⟩, ⟨aHits, inA, shown⟩, closed⟩
    exact ⟨_, ⟨spaceA, a, (), b, id, written, bHits, inB, aHits, inA, (), closed, (), hidden, (),
      shown, rfl⟩, rfl⟩

structure PlanStep where
  memoryId : WireMemoryId
  text : String
  stepIndex : Nat

structure Inference where
  claim : String
  supportingMemories : List WireMemoryId
  contradictingMemories : List WireMemoryId
  stepIndex : Nat

def PlanStep.leaks (marker : String) (victim : WireMemoryId) (step : PlanStep) : Bool :=
  step.memoryId = victim || contains step.text marker

def Inference.leaks (marker : String) (victim : WireMemoryId) (inf : Inference) : Bool :=
  contains inf.claim marker || inf.supportingMemories.contains victim ||
    inf.contradictingMemories.contains victim

-- `plan` and `reason` are asked from space B, seeded on a memory of space A.
structure WalkWorld extends TwoSpaces where
  plan : WireMemoryId → Except HarnessError (List PlanStep)
  reason : WireMemoryId → Except HarnessError (List Inference)

def launchKey (marker : String) : String := marker ++ ": the launch key rotates every friday"

def refuse {β : Type} (close : Scenario Unit) (detail : β → String) : Option β → Scenario Unit
  | none => pure ()
  | some found => do
    close
    throw (detail found)

theorem yields_refuse_iff {β : Type} {close : Scenario Unit} {detail : β → String}
    {found : Option β} {u : Unit} : Yields (refuse close detail found) u ↔ found = none := by
  cases found with
  | none => simp [refuse, yields_pure_iff]
  | some b => simp [refuse, yields_bind_iff, not_yields_throw]

def planLeak (victim : WireMemoryId) (step : PlanStep) : String :=
  "PLAN from space B surfaced space A's memory (step " ++ toString step.stepIndex ++
    ", id_match=" ++ toString (decide (step.memoryId = victim)) ++ ") — cross-tenant seed leak"

def reasonLeak (inf : Inference) : String :=
  "REASON from space B surfaced space A's memory (inference " ++ toString inf.stepIndex ++
    ") — cross-tenant seed leak"

def runPlanReasonIsolation (w : WalkWorld) : Scenario ScenarioOutcome := do
  let spaceA ← sdk w.connectA
  sdk w.connectB
  let marker := markerOf "planreason-isolation" spaceA
  let victim ← sdk (w.encode (launchKey marker))
  let aHits ← sdk (w.recallA marker)
  requireOpen w.close (anyTextContains aHits marker = true)
    "space A could not recall its own just-written memory (setup failed)"
  let planSteps ← sdk (w.plan victim)
  refuse w.close (planLeak victim) (planSteps.find? (·.leaks marker victim))
  let inferences ← sdk (w.reason victim)
  refuse w.close reasonLeak (inferences.find? (·.leaks marker victim))
  w.close
  return .pass "plan_reason_isolation"
    "neither PLAN nor REASON in space B could reach space A's memory via a ByMemoryId seed"

def WalkWorld.Walled (w : WalkWorld) : Prop :=
  ∃ spaceA, w.connectA = .ok spaceA ∧ w.connectB = .ok () ∧
    let marker := markerOf "planreason-isolation" spaceA
    ∃ victim, w.encode (launchKey marker) = .ok victim ∧ Shows (w.recallA marker) marker ∧
      (∃ steps, w.plan victim = .ok steps ∧
        ∀ step ∈ steps, step.memoryId ≠ victim ∧ contains step.text marker = false) ∧
      (∃ inferences, w.reason victim = .ok inferences ∧
        ∀ inf ∈ inferences, contains inf.claim marker = false ∧ victim ∉ inf.supportingMemories ∧
          victim ∉ inf.contradictingMemories) ∧ w.closeA = .ok () ∧ w.closeB = .ok ()

theorem PlanStep.no_leak_iff {steps : List PlanStep} {marker : String} {victim : WireMemoryId} :
    steps.find? (·.leaks marker victim) = none ↔
      ∀ step ∈ steps, step.memoryId ≠ victim ∧ contains step.text marker = false := by
  simp [List.find?_eq_none, PlanStep.leaks]

theorem Inference.no_leak_iff {inferences : List Inference} {marker : String}
    {victim : WireMemoryId} :
    inferences.find? (·.leaks marker victim) = none ↔
      ∀ inf ∈ inferences, contains inf.claim marker = false ∧ victim ∉ inf.supportingMemories ∧
        victim ∉ inf.contradictingMemories := by
  simp [List.find?_eq_none, Inference.leaks, and_assoc]

theorem plan_reason_passes_iff {w : WalkWorld} :
    Passes (outcome "plan_reason_isolation" (runPlanReasonIsolation w)) ↔ w.Walled := by
  simp only [passes_outcome_iff, runPlanReasonIsolation, yields_bind_iff, yields_sdk_iff,
    TwoSpaces.yields_close_iff, yields_requireOpen_iff, yields_refuse_iff, PlanStep.no_leak_iff,
    Inference.no_leak_iff, yields_pure_iff]
  constructor
  · rintro ⟨o, ⟨spaceA, a, _, b, victim, written, aHits, inA, -, shown, steps, planned, -, walked,
      inferences, reasoned, -, inferred, -, closed, -⟩, -⟩
    exact ⟨spaceA, a, b, victim, written, ⟨aHits, inA, shown⟩, ⟨steps, planned, walked⟩,
      ⟨inferences, reasoned, inferred⟩, closed⟩
  · rintro ⟨spaceA, a, b, victim, written, ⟨aHits, inA, shown⟩, ⟨steps, planned, walked⟩,
      ⟨inferences, reasoned, inferred⟩, closed⟩
    exact ⟨_, ⟨spaceA, a, (), b, victim, written, aHits, inA, (), shown, steps, planned, (), walked,
      inferences, reasoned, (), inferred, (), closed, rfl⟩, rfl⟩

structure ForgetWorld where
  connect : Except HarnessError WireUuid
  encode : String → Except HarnessError WireMemoryId
  recallBefore : String → Hits
  forget : WireMemoryId → Except HarnessError Unit
  recallAfter : String → Hits
  close : Except HarnessError Unit

def migration (marker : String) : String := marker ++ ": the migration ran at midnight"

def runForget (w : ForgetWorld) : Scenario ScenarioOutcome := do
  let spaceId ← sdk w.connect
  let marker := markerOf "forget-marker" spaceId
  let memoryId ← sdk (w.encode (migration marker))
  let before ← sdk (w.recallBefore marker)
  requireOpen (sdk w.close) (anyTextContains before marker = true)
    "memory was not recallable immediately after ENCODE"
  sdk (w.forget memoryId)
  let after ← sdk (w.recallAfter marker)
  sdk w.close
  require (anyTextContains after marker = false) "memory still recalled after a hard FORGET"
  return .pass "encode_recall_forget" "recalled before FORGET, gone after"

def ForgetWorld.Forgets (w : ForgetWorld) : Prop :=
  ∃ spaceId, w.connect = .ok spaceId ∧
    let marker := markerOf "forget-marker" spaceId
    ∃ id, w.encode (migration marker) = .ok id ∧ Shows (w.recallBefore marker) marker ∧
      w.forget id = .ok () ∧ Hides (w.recallAfter marker) marker ∧ w.close = .ok ()

theorem forget_passes_iff {w : ForgetWorld} :
    Passes (outcome "encode_recall_forget" (runForget w)) ↔ w.Forgets := by
  simp only [passes_outcome_iff, runForget, yields_bind_iff, yields_sdk_iff, yields_requireOpen_iff,
    yields_require_iff, yields_pure_iff]
  constructor
  · rintro ⟨o, ⟨spaceId, connected, id, written, hits, first, -, shown, _, forgotten, later, second,
      _, closed, -, hidden, -⟩, -⟩
    exact ⟨spaceId, connected, id, written, ⟨hits, first, shown⟩, forgotten,
      ⟨later, second, hidden⟩, closed⟩
  · rintro ⟨spaceId, connected, id, written, ⟨hits, first, shown⟩, forgotten,
      ⟨later, second, hidden⟩, closed⟩
    exact ⟨_, ⟨spaceId, connected, id, written, hits, first, (), shown, (), forgotten, later,
      second, (), closed, (), hidden, rfl⟩, rfl⟩

structure TxnWorld where
  connect : Except HarnessError WireUuid
  txnBegin : Except HarnessError Unit
  encode : String → Except HarnessError WireMemoryId
  recallInTxn : String → Hits
  txnCommit : Except HarnessError Unit
  -- how the server answers each recall after the commit
  recallPlain : String → Nat → Hits
  close : Except HarnessError Unit

def provisional (marker : String) : String := marker ++ ": provisional note inside a transaction"

def runTxn (w : TxnWorld) : Scenario ScenarioOutcome := do
  let spaceId ← sdk w.connect
  let marker := markerOf "txn-marker" spaceId
  sdk w.txnBegin
  let _ ← sdk (w.encode (provisional marker))
  let inTxnHits ← sdk (w.recallInTxn marker)
  sdk w.txnCommit
  let after ← sdk (pollRecallUntil (anyTextContains · marker) (w.recallPlain marker))
  sdk w.close
  require (anyTextContains inTxnHits marker = true)
    "in-txn read did not see the txn's buffered write"
  require (anyTextContains after marker = true) "committed write not visible to a plain read"
  return .pass "txn_read_your_writes" "buffered write visible in-txn; visible to all after commit"

def TxnWorld.ReadsItsWrites (w : TxnWorld) : Prop :=
  ∃ spaceId, w.connect = .ok spaceId ∧ w.txnBegin = .ok () ∧
    let marker := markerOf "txn-marker" spaceId
    (∃ id, w.encode (provisional marker) = .ok id) ∧ Shows (w.recallInTxn marker) marker ∧
      w.txnCommit = .ok () ∧
      SeenWithin (anyTextContains · marker) 10 (w.recallPlain marker) ∧ w.close = .ok ()

theorem txn_passes_iff {w : TxnWorld} :
    Passes (outcome "txn_read_your_writes" (runTxn w)) ↔ w.ReadsItsWrites := by
  simp only [passes_outcome_iff, runTxn, yields_bind_iff, yields_sdk_iff, yields_require_iff,
    yields_pure_iff, TxnWorld.ReadsItsWrites, ← seen_iff]
  constructor
  · rintro ⟨o, ⟨spaceId, connected, _, begun, id, written, hits, inside, _, committed, later, plain,
      _, closed, -, shown, -, seen, -⟩, -⟩
    exact ⟨spaceId, connected, begun, ⟨id, written⟩, ⟨hits, inside, shown⟩, committed,
      ⟨later, plain, seen⟩, closed⟩
  · rintro ⟨spaceId, connected, begun, ⟨id, written⟩, ⟨hits, inside, shown⟩, committed,
      ⟨later, plain, seen⟩, closed⟩
    exact ⟨_, ⟨spaceId, connected, (), begun, id, written, hits, inside, (), committed, later,
      plain, (), closed, (), shown, (), seen, rfl⟩, rfl⟩

structure ActAs where
  «namespace» : String
  space : String
  grant : Nat

structure DelegatedWorld where
  svcSpace : WireUuid
  mintWithMayAct : WireUuid → List String → List String → Except HarnessError String
  connectWithToken : WireUuid → String → Except HarnessError Unit
  txnBegin : Option ActAs → Except HarnessError Unit
  encode : String → Except HarnessError WireMemoryId
  txnCommit : Except HarnessError Unit
  recallDelegated : ActAs → String → Nat → Hits
  recallOwn : String → Hits
  close : Except HarnessError Unit

def DelegatedWorld.delegated (w : DelegatedWorld) : ActAs :=
  let salt := SpaceManifest.hex16 w.svcSpace
  ⟨"tenant_txn_" ++ salt, "space-txn-" ++ salt, 0⟩

def pagerCode (marker : String) : String := marker ++ ": the pager code is 8080"

def sees (marker : String) (mem : WireMemoryId) (hits : List MemoryResult) : Bool :=
  (hits.any fun m => m.memoryId = mem) || anyTextContains hits marker

def runDelegatedTxn (w : DelegatedWorld) : Scenario ScenarioOutcome := do
  let marker := markerOf "delegated-txn" w.svcSpace
  let token ← sdk (w.mintWithMayAct w.svcSpace ["ACT_AS", "STANDARD_SPACE"]
    [w.delegated.namespace])
  sdk (w.connectWithToken w.svcSpace token)
  sdk (w.txnBegin (some w.delegated))
  let mem ← sdk (w.encode (pagerCode marker))
  sdk w.txnCommit
  let delegatedHits ←
    sdk (pollRecallUntil (sees marker mem) (w.recallDelegated w.delegated marker))
  let ownHits ← sdk (w.recallOwn marker)
  sdk w.close
  require (sees marker mem delegatedHits = true)
    "delegated identity did not see the txn-committed memory"
  require (sees marker mem ownHits = false)
    "the committing connection's own identity saw the delegated txn write"
  return .pass "delegated_txn"
    "delegated txn write reachable by the tenant, invisible to the connection identity"

def DelegatedWorld.Delegates (w : DelegatedWorld) : Prop :=
  let marker := markerOf "delegated-txn" w.svcSpace
  (∃ token, w.mintWithMayAct w.svcSpace ["ACT_AS", "STANDARD_SPACE"] [w.delegated.namespace] =
      .ok token ∧ w.connectWithToken w.svcSpace token = .ok ()) ∧
    w.txnBegin (some w.delegated) = .ok () ∧
    ∃ mem, w.encode (pagerCode marker) = .ok mem ∧ w.txnCommit = .ok () ∧
      SeenWithin (sees marker mem) 10 (w.recallDelegated w.delegated marker) ∧
      (∃ hits, w.recallOwn marker = .ok hits ∧ sees marker mem hits = false) ∧ w.close = .ok ()

theorem delegated_passes_iff {w : DelegatedWorld} :
    Passes (outcome "delegated_txn" (runDelegatedTxn w)) ↔ w.Delegates := by
  simp only [passes_outcome_iff, runDelegatedTxn, yields_bind_iff, yields_sdk_iff,
    yields_require_iff, yields_pure_iff, DelegatedWorld.Delegates, ← seen_iff]
  constructor
  · rintro ⟨o, ⟨token, minted, _, connected, _, begun, mem, written, _, committed, hits, delegated,
      own, mine, _, closed, -, seen, -, unseen, -⟩, -⟩
    exact ⟨⟨token, minted, connected⟩, begun, mem, written, committed, ⟨hits, delegated, seen⟩,
      ⟨own, mine, unseen⟩, closed⟩
  · rintro ⟨⟨token, minted, connected⟩, begun, mem, written, committed, ⟨hits, delegated, seen⟩,
      ⟨own, mine, unseen⟩, closed⟩
    exact ⟨_, ⟨token, minted, (), connected, (), begun, mem, written, (), committed, hits,
      delegated, own, mine, (), closed, (), seen, (), unseen, rfl⟩, rfl⟩

structure CoreWorld where
  isolation : IsolationWorld
  walk : WalkWorld
  forget : ForgetWorld
  txn : TxnWorld
  delegated : DelegatedWorld

def runCoreScenarios (w : CoreWorld) : List (Option ScenarioOutcome) :=
  [outcome "multi_space_isolation" (runIsolation w.isolation),
    outcome "plan_reason_isolation" (runPlanReasonIsolation w.walk),
    outcome "encode_recall_forget" (runForget w.forget),
    outcome "txn_read_your_writes" (runTxn w.txn),
    outcome "delegated_txn" (runDelegatedTxn w.delegated)]

theorem core_scenarios_pass_iff {w : CoreWorld} :
    (∀ o ∈ runCoreScenarios w, Passes o) ↔
      w.isolation.Isolated ∧ w.walk.Walled ∧ w.forget.Forgets ∧ w.txn.ReadsItsWrites ∧
        w.delegated.Delegates := by
  simp only [runCoreScenarios, List.forall_mem_cons, List.not_mem_nil, false_implies, implies_true,
    and_true, isolation_passes_iff, plan_reason_passes_iff, forget_passes_iff, txn_passes_iff,
    delegated_passes_iff]

end BrainEval.CoreScenarios
