import Mathlib
import BrainEval.Synthesize
import BrainEval.Probe.StagedOrder

set_option autoImplicit false

namespace BrainEval.Staged

open RustStr Harness Runner Synthesize

def episodicCap : Nat := 10

-- What answers one read: the server, and the judge as it replies to this question.
structure ReadCalls where
  server : EvalInstance → RecallRequest → Except String RecallAnswer
  recallMs : EvalInstance → Nat
  judge : EvalInstance → Judge

inductive Loss where
  | abstained
  | dropped
  | missed
  | unattributed
  deriving DecidableEq

def Loss.text : Loss → String
  | .abstained => "abstention (router returned nothing)"
  | .dropped => "answer dropped it (gold WAS retrieved)"
  | .missed => "retrieval missed the gold"
  | .unattributed => "wrong answer (support unknown; heuristic judge)"

def failStageOf (verdict : Verdict) (r8Answered : Bool) (support : Option Bool) : Option String :=
  if verdict = .correct then none
  else if !r8Answered then some Loss.abstained.text
  else
    match support with
    | some true => some Loss.dropped.text
    | some false => some Loss.missed.text
    | none => some Loss.unattributed.text

def stagedRead (calls : ReadCalls) (inst : EvalInstance) : Except String ReadRecord := do
  let outcome ← (recallScoped (calls.server inst) (calls.recallMs inst) inst.question episodicCap
    .space).mapError fun e => "harness: " ++ e.display
  let r8Answered := !outcome.memories.isEmpty
  let answer := synthesizeAnswer outcome episodicCap
  let judged := (calls.judge inst).grade 0 inst answer
  let support := ((calls.judge inst).gradeSupport 0 (outcome.memories.map (·.text))).1
  return ⟨r8Answered, judged.verdict, failStageOf judged.verdict r8Answered support⟩

def ReadRollup.score (agg : ReadRollup) : ℚ :=
  if agg.total = 0 then 0 else agg.scoreSum / agg.total

def ReadRecord.Fate (r : ReadRecord) : Prop :=
  r.verdict = .correct ∧ r.failStage = none ∨
    ∃ loss : Loss, r.verdict ≠ .correct ∧ r.failStage = some loss.text

/-- What the running totals say of the reads so far. -/
structure ReadRollup.Accounts (agg : ReadRollup) (reads : List ReadRecord) : Prop where
  total : agg.total = reads.length
  correct : agg.correct = reads.countP (·.verdict = .correct)
  partialCredit : agg.partialCredit = reads.countP (·.verdict = .partialCredit)
  scoreSum : agg.scoreSum = (reads.map (·.verdict.score)).sum
  failAbstention : agg.failAbstention = reads.countP (·.failStage = some Loss.abstained.text)
  failAnswerDrop : agg.failAnswerDrop = reads.countP (·.failStage = some Loss.dropped.text)
  failRetrieval : agg.failRetrieval = reads.countP (·.failStage = some Loss.missed.text)
  failWrong : agg.failWrong = reads.countP (·.failStage = some Loss.unattributed.text)

theorem ReadRollup.Accounts.zero : ReadRollup.zero.Accounts [] := by
  constructor <;> rfl

theorem fate_of_read {calls : ReadCalls} {inst : EvalInstance} {r : ReadRecord}
    (read : stagedRead calls inst = .ok r) : r.Fate := by
  obtain ⟨outcome, -, told⟩ := bind_ok read
  rw [← Except.ok.inj told]
  by_cases verdict : ((calls.judge inst).grade 0 inst
      (synthesizeAnswer outcome episodicCap)).verdict = .correct
  next => exact .inl ⟨verdict, if_pos verdict⟩
  next =>
    refine .inr ?_
    simp only [failStageOf, if_neg verdict]
    split
    next => exact ⟨.abstained, verdict, rfl⟩
    next =>
      split
      next => exact ⟨.dropped, verdict, rfl⟩
      next => exact ⟨.missed, verdict, rfl⟩
      next => exact ⟨.unattributed, verdict, rfl⟩

-- The phrases that the rollup looks for tell the four stages apart.
theorem Loss.text_sorts (loss : Loss) :
    contains loss.text "abstention" = decide (loss = .abstained) ∧
      contains loss.text "answer dropped" = decide (loss = .dropped) ∧
      contains loss.text "retrieval" = decide (loss = .missed) := by
  cases loss <;> decide +kernel

@[simp] theorem Loss.text_inj {loss loss' : Loss} : loss.text = loss'.text ↔ loss = loss' := by
  cases loss <;> cases loss' <;> decide

theorem record_graded (agg : ReadRollup) (r : ReadRecord) :
    (agg.record r).total = agg.total + 1 ∧
      (agg.record r).scoreSum = agg.scoreSum + r.verdict.score ∧
      (agg.record r).correct = agg.correct + (if r.verdict = .correct then 1 else 0) ∧
      (agg.record r).partialCredit =
        agg.partialCredit + (if r.verdict = .partialCredit then 1 else 0) := by
  obtain ⟨answered, verdict, stage⟩ := r
  cases verdict <;> cases stage <;> simp [ReadRollup.record] <;> split_ifs <;> simp

theorem record_failed (agg : ReadRollup) {r : ReadRecord} (fate : r.Fate) :
    (agg.record r).failAbstention =
        agg.failAbstention + (if r.failStage = some Loss.abstained.text then 1 else 0) ∧
      (agg.record r).failAnswerDrop =
        agg.failAnswerDrop + (if r.failStage = some Loss.dropped.text then 1 else 0) ∧
      (agg.record r).failRetrieval =
        agg.failRetrieval + (if r.failStage = some Loss.missed.text then 1 else 0) ∧
      (agg.record r).failWrong =
        agg.failWrong + (if r.failStage = some Loss.unattributed.text then 1 else 0) := by
  obtain ⟨answered, verdict, stage⟩ := r
  rcases fate with ⟨rfl, rfl⟩ | ⟨loss, -, rfl⟩
  next => simp [ReadRollup.record]
  next =>
    obtain ⟨abstained, dropped, missed⟩ := loss.text_sorts
    cases verdict <;> cases loss <;> simp [ReadRollup.record, abstained, dropped, missed]

theorem ReadRollup.Accounts.record {agg : ReadRollup} {reads : List ReadRecord} {r : ReadRecord}
    (accounts : agg.Accounts reads) (fate : r.Fate) : (agg.record r).Accounts (reads ++ [r]) := by
  obtain ⟨total, scoreSum, correct, partialCredit⟩ := record_graded agg r
  obtain ⟨abstained, dropped, missed, unattributed⟩ := record_failed agg fate
  constructor
  · rw [total, accounts.total, List.length_append, List.length_singleton]
  · simp [correct, accounts.correct, List.countP_singleton]
  · simp [partialCredit, accounts.partialCredit, List.countP_singleton]
  · simp [scoreSum, accounts.scoreSum]
  · simp [abstained, accounts.failAbstention, List.countP_singleton]
  · simp [dropped, accounts.failAnswerDrop, List.countP_singleton]
  · simp [missed, accounts.failRetrieval, List.countP_singleton]
  · simp [unattributed, accounts.failWrong, List.countP_singleton]

-- Every read is in one of five places, and in one only.
theorem fates_sum {reads : List ReadRecord} (each : ∀ r ∈ reads, r.Fate) :
    reads.countP (·.verdict = .correct) +
        reads.countP (·.failStage = some Loss.abstained.text) +
        reads.countP (·.failStage = some Loss.dropped.text) +
        reads.countP (·.failStage = some Loss.missed.text) +
        reads.countP (·.failStage = some Loss.unattributed.text) = reads.length := by
  induction reads with
  | nil => rfl
  | cons r reads ih =>
    obtain ⟨here, rest⟩ := List.forall_mem_cons.mp each
    have later := ih rest
    simp only [List.countP_cons, List.length_cons]
    rcases here with ⟨verdict, stage⟩ | ⟨loss, verdict, stage⟩
    next =>
      simp only [verdict, stage, decide_true, if_true, reduceCtorEq, decide_false,
        Bool.false_eq_true, if_false]
      omega
    next => cases loss <;> simp [verdict, stage] <;> omega

theorem scores_sum (reads : List ReadRecord) :
    (reads.map (·.verdict.score)).sum = (reads.countP (·.verdict = .correct) : ℚ) +
      reads.countP (·.verdict = .partialCredit) / 2 := by
  induction reads with
  | nil => simp
  | cons r reads ih =>
    rw [List.map_cons, List.sum_cons, ih, List.countP_cons, List.countP_cons]
    cases verdict : r.verdict <;> simp [Verdict.score] <;> ring

section Told

def ReadCalls.world (calls : ReadCalls) (rest : StagedWorld) : StagedWorld :=
  { rest with stagedRead := stagedRead calls }

def Progress.Told (calls : ReadCalls) (p : Progress) : Prop :=
  ∃ reads, p.asked.map (stagedRead calls) = reads.map .ok ∧ p.agg.Accounts reads

variable {calls : ReadCalls} {rest : StagedWorld} {maxQuestions : Option Nat}
  {p result : Progress}

theorem told_start : Progress.start.Told calls := ⟨[], rfl, .zero⟩

theorem Progress.Told.read (told : p.Told calls) {inst : EvalInstance} {r : ReadRecord}
    (read : stagedRead calls inst = .ok r) :
    Progress.Told calls { p with asked := p.asked ++ [inst], agg := p.agg.record r } := by
  obtain ⟨reads, asked, accounts⟩ := told
  refine ⟨reads ++ [r], ?_, accounts.record (fate_of_read read)⟩
  rw [List.map_append, List.map_append, asked, List.map_singleton, List.map_singleton, read]

theorem Progress.Told.readQuestions {insts : List EvalInstance} (told : p.Told calls)
    (done : readQuestions (calls.world rest) maxQuestions insts p = .ok result) :
    result.Told calls := by
  induction insts generalizing p with
  | nil =>
    obtain rfl := Except.ok.inj done
    exact told
  | cons inst insts ih =>
    rw [Staged.readQuestions] at done
    by_cases capped : p.capped maxQuestions = true
    next =>
      rw [if_pos capped] at done
      obtain rfl := Except.ok.inj done
      exact told
    next =>
      rw [if_neg capped] at done
      obtain ⟨r, read, done⟩ := bind_ok done
      exact ih (told.read read) done

theorem Progress.Told.writeStage {reuse : Bool} {conv : String} {insts : List EvalInstance}
    (told : p.Told calls)
    (done : writeStage (calls.world rest) reuse conv insts p = .ok result) :
    result.Told calls := by
  unfold Staged.writeStage at done
  dsimp only at done
  split at done
  next =>
    obtain ⟨_, -, done⟩ := bind_ok done
    rwa [← Except.ok.inj done]
  next =>
    obtain ⟨durable, -, done⟩ := bind_ok done
    obtain ⟨_, -, done⟩ := bind_ok done
    rw [← Except.ok.inj done]
    exact told

theorem Progress.Told.runGroups {reuse : Bool} {focusQid : Option String}
    {groups : List (String × List EvalInstance)} (told : p.Told calls)
    (done : runGroups (calls.world rest) maxQuestions reuse focusQid groups p = .ok result) :
    result.Told calls := by
  induction groups generalizing p with
  | nil =>
    obtain rfl := Except.ok.inj done
    exact told
  | cons group groups ih =>
    obtain ⟨conv, insts⟩ := group
    unfold Staged.runGroups at done
    by_cases capped : p.capped maxQuestions = true
    next =>
      rw [if_pos capped] at done
      obtain rfl := Except.ok.inj done
      exact told
    next =>
      rw [if_neg capped] at done
      obtain ⟨_, -, done⟩ := bind_ok done
      cases focusQid with
      | some qid =>
        obtain ⟨_, -, done⟩ := bind_ok done
        obtain rfl := Except.ok.inj done
        exact told
      | none =>
        obtain ⟨written, wrote, done⟩ := bind_ok done
        obtain ⟨read, asked, done⟩ := bind_ok done
        obtain ⟨_, -, done⟩ := bind_ok done
        have carried := (told.writeStage wrote).readQuestions asked
        split at done
        next =>
          obtain rfl := Except.ok.inj done
          exact carried
        next => exact ih carried done

/-- The rollup of a staged run that ends, capped, focused or on a reused space, accounts for every
question asked: it is correct or lost at exactly one stage, the stage that its read names; the score
is the mean of the verdicts; and the run passes exactly where something was asked and every read was
graded correct. -/
theorem staged_rollup_accounts {reuse : Bool} {focusQid : Option String}
    {instances : List EvalInstance} {passed : Bool}
    (done : runStaged (calls.world rest) maxQuestions reuse focusQid instances =
      .ok (result, passed)) :
    ∃ reads, result.asked.map (stagedRead calls) = reads.map .ok ∧
      result.agg.Accounts reads ∧
      result.agg.correct + result.agg.failAbstention + result.agg.failAnswerDrop +
        result.agg.failRetrieval + result.agg.failWrong = result.asked.length ∧
      result.agg.score * result.asked.length = result.agg.correct + result.agg.partialCredit / 2 ∧
      (passed = true ↔ result.asked ≠ [] ∧ ∀ r ∈ reads, r.verdict = .correct) := by
  obtain ⟨p, ran, same⟩ := bind_ok done
  obtain ⟨rfl, rfl⟩ := Prod.mk.inj (Except.ok.inj same)
  obtain ⟨reads, asked, accounts⟩ := told_start.runGroups ran
  have length : p.asked.length = reads.length := by
    have lengths := congrArg List.length asked
    rwa [List.length_map, List.length_map] at lengths
  have fates : ∀ r ∈ reads, r.Fate := by
    intro r member
    have read : Except.ok r ∈ p.asked.map (stagedRead calls) := by
      rw [asked]
      exact List.mem_map_of_mem member
    obtain ⟨inst, -, read⟩ := List.mem_map.mp read
    exact fate_of_read read
  refine ⟨reads, asked, accounts, ?_, ?_, ?_⟩
  · rw [accounts.correct, accounts.failAbstention, accounts.failAnswerDrop, accounts.failRetrieval,
      accounts.failWrong, fates_sum fates, length]
  · rw [length, accounts.correct, accounts.partialCredit, ← scores_sum, ← accounts.scoreSum,
      ReadRollup.score, accounts.total]
    by_cases none : reads = []
    next => simp [none, accounts.scoreSum]
    next =>
      have some_read : (reads.length : ℚ) ≠ 0 := by simpa using none
      rw [if_neg (by simpa using none), div_mul_cancel₀ _ some_read]
  · have asked_none : p.asked = [] ↔ reads = [] := by
      rw [← List.length_eq_zero_iff, length, List.length_eq_zero_iff]
    rw [Bool.and_eq_true, beq_iff_eq, decide_eq_true_iff, accounts.correct, accounts.total,
      List.countP_eq_length, gt_iff_lt, List.length_pos_iff, Ne, Ne, asked_none, and_comm]
    simp only [decide_eq_true_iff]

end Told

-- A server that recalls the gold answer, but for one question nothing.
def forgetfulCalls : ReadCalls where
  server inst _ :=
    if inst.questionId = "b-q" then .ok ⟨.none, []⟩
    else .ok ⟨.single, [⟨1, inst.answer, 1, 1, none, 1, [], none⟩]⟩
  recallMs _ := 0
  judge _ := .heuristic

theorem forgetful_run_accounts :
    ∃ result passed reads,
      runStaged (forgetfulCalls.world calmWorld) none false none
        [oneQuestion "a", oneQuestion "b"] = .ok (result, passed) ∧
      result.asked.map (stagedRead forgetfulCalls) = reads.map .ok ∧
      result.agg.Accounts reads ∧
      (passed = true ↔ result.asked ≠ [] ∧ ∀ r ∈ reads, r.verdict = .correct) := by
  have ends : (runStaged (forgetfulCalls.world calmWorld) none false none
      [oneQuestion "a", oneQuestion "b"]).isOk = true := by decide +kernel
  cases run : runStaged (forgetfulCalls.world calmWorld) none false none
      [oneQuestion "a", oneQuestion "b"] with
  | error e => simp [run, Except.isOk, Except.toBool] at ends
  | ok pair =>
    obtain ⟨reads, asked, accounts, -, -, passes⟩ := staged_rollup_accounts run
    exact ⟨pair.1, pair.2, reads, rfl, asked, accounts, passes⟩

end BrainEval.Staged
