import Mathlib
import BrainEval.Runner.Failures
import BrainEval.Runner.Manifest

set_option autoImplicit false

namespace BrainEval.Report

def FailureAttribution.total (a : FailureAttribution) : Nat :=
  a.failRetrieval + a.failAnswerDrop + a.failAbstention + a.failWrong

theorem FailureAttribution.record_total (a : FailureAttribution) (stage : Option FailStage) :
    (a.record stage).total = a.total + if stage.isSome then 1 else 0 := by
  rcases stage with _ | stage
  · rfl
  · cases stage <;> simp [record, total] <;> omega

theorem FailureAttribution.foldl_total (records : List QuestionRecord) (a : FailureAttribution) :
    (records.foldl (fun a r => a.record r.failStage) a).total =
      a.total + records.countP (·.failStage.isSome) := by
  induction records generalizing a with
  | nil => rfl
  | cons r records ih =>
    rw [List.foldl_cons, ih, record_total, List.countP_cons]
    omega

theorem FailureAttribution.fromRecords_total (records : List QuestionRecord) :
    (fromRecords records).total = records.countP (·.failStage.isSome) :=
  (foldl_total records _).trans (Nat.zero_add _)

theorem FailStage.attribute_isSome (correct : Bool) (memoriesRetrieved : Nat)
    (contextSupported : Option Bool) :
    (FailStage.attribute correct memoriesRetrieved contextSupported).isSome = !correct := by
  unfold FailStage.attribute
  cases correct with
  | true => rfl
  | false =>
    by_cases none : memoriesRetrieved = 0
    next => simp [none]
    next => rcases contextSupported with _ | _ | _ <;> simp [none]

end BrainEval.Report

namespace BrainEval.Runner

open Harness Report Metrics

def infraFailed (r : QuestionResult) : Bool := r.ingestionFailed || r.retrievalFailed

def genuineLoss (r : QuestionResult) : Bool := r.verdict ≠ .correct && !infraFailed r

structure ExactAttribution (read : ReadReport) (results : List QuestionResult) : Prop where
  total : read.failureAttribution.total = results.countP genuineLoss
  clean : ∀ r ∈ read.perQuestion, infraFailed r.result = true → r.failStage = none

namespace Run

variable (run : Run)

-- An ENCODE of the question's conversation is refused, to a run that writes.
def writeRefused (idx : Nat) : Prop :=
  run.isReadOnly = false ∧
    FailsWithin (run.world.encode (run.key idx)) []
      (requestsOf (run.inst ((run.membersOf (run.key idx)).headD 0)))

def graded (idx : Nat) : Verdict := (run.verdictOn idx (run.reading idx).systemAnswer).verdict

theorem convWrite_ingestFailed_iff {pl : Planned} (member : pl ∈ run.phase0.planned) {idx : Nat}
    (inside : idx ∈ pl.idxs) :
    (run.convWrite pl).ingestFailed = true ↔ run.writeRefused idx := by
  have members := (run.mem_planned member).1
  unfold convWrite writeRefused
  rw [run.key_of_mem member inside, ← members]
  cases run.isReadOnly with
  | true => simp [ConvWrite.skipped]
  | false =>
    have accepted := ingestSessions_failed_iff (run.world.encode pl.convKey)
      (run.world.ingestMs pl.convKey) (run.inst (pl.idxs.headD 0))
    rw [← not_failsWithin_iff, ← Bool.not_eq_true, not_iff_not] at accepted
    simpa [ConvWrite.fromIngest] using accepted

-- A question that was asked carries its own conversation's write.
theorem outcome_asked {idx : Nat} {m : Merged} (within : idx < run.instances.length)
    (settled : run.outcome idx = some m) (read : run.readBack idx = true) :
    ∃ pl ∈ run.phase0.planned, idx ∈ pl.idxs ∧ m = run.asked idx (run.convWrite pl) := by
  obtain ⟨pl, member, inside, planned⟩ := run.planOf_key within
  rw [outcome, planned, Option.bind_some] at settled
  rw [readBack, planned, Option.any_some, Fate.isOpened_iff] at read
  obtain ⟨id, met⟩ := read
  rw [met] at settled
  by_cases listed : run.config.verifyMemoryList = true
  next => simp [listed] at settled
  next =>
    have asked := Option.some.inj ((if_neg listed).symm.trans settled)
    exact ⟨pl, member, inside, asked.symm⟩

theorem failed_settled (idx : Nat) (reason : String) (ingestFailed : Bool) :
    (run.failed idx reason ingestFailed).record.failStage = none ∧
      infraFailed (run.failed idx reason ingestFailed).result = true := by
  cases ingestFailed <;> exact ⟨rfl, rfl⟩

theorem reading_retrievalFailed (idx : Nat) :
    (run.reading idx).retrievalFailed = run.recallFails idx := by
  unfold reading recallFails
  cases run.recallOutcome idx <;> rfl

theorem asked_infraFailed (idx : Nat) (cw : ConvWrite) :
    infraFailed (run.asked idx cw).result = (cw.ingestFailed || run.recallFails idx) := by
  rw [← reading_retrievalFailed]
  rfl

theorem asked_failStage (judging : run.config.retrievalOnly = false) (idx : Nat)
    (cw : ConvWrite) :
    (run.asked idx cw).record.failStage.isSome =
      (!run.recallFails idx && run.graded idx ≠ .correct) := by
  unfold asked QuestionRun.record runQuestion
  simp only [reading_retrievalFailed, judging, Bool.or_false]
  cases run.recallFails idx with
  | true => rfl
  | false =>
    by_cases correct : (run.verdictOn idx (run.reading idx).systemAnswer).verdict = .correct <;>
      simp [FailStage.attribute_isSome, graded, correct]

theorem asked_lost_iff (judging : run.config.retrievalOnly = false) (idx : Nat)
    (cw : ConvWrite) :
    (run.asked idx cw).record.failStage.isSome = genuineLoss (run.asked idx cw).result ↔
      (run.recallFails idx = false → cw.ingestFailed = true → run.graded idx = .correct) := by
  have verdict : (run.asked idx cw).result.verdict = run.graded idx := rfl
  rw [run.asked_failStage judging, genuineLoss, asked_infraFailed, verdict]
  cases run.recallFails idx with
  | true => simp
  | false => cases cw.ingestFailed <;> simp

-- A question never asked is an infrastructure failure without a stage.
theorem outcome_lost_iff (judging : run.config.retrievalOnly = false) {idx : Nat} {m : Merged}
    (within : idx < run.instances.length) (settled : run.outcome idx = some m) :
    m.record.failStage.isSome = genuineLoss m.result ↔
      (run.readBack idx = true → run.recallFails idx = false → run.writeRefused idx →
        run.graded idx = .correct) := by
  rcases run.outcome_cases settled with ⟨unread, reason, ingestFailed, rfl⟩ | ⟨read, -⟩
  · obtain ⟨none, infra⟩ := run.failed_settled idx reason ingestFailed
    rw [none, genuineLoss, infra]
    simp [unread]
  · obtain ⟨pl, member, inside, rfl⟩ := run.outcome_asked within settled read
    rw [run.asked_lost_iff judging, run.convWrite_ingestFailed_iff member inside]
    simp [read]

namespace Schedule

variable {run} (U : RustStr.UnicodeData) (s : run.Schedule)

theorem report_total :
    (s.report U).read.failureAttribution.total =
      s.pushes.countP fun m => m.record.failStage.isSome := by
  refine (FailureAttribution.fromRecords_total s.questionRecords).trans ?_
  rw [questionRecords, List.countP_map]
  rfl

theorem exactAttribution_of_each
    (each : ∀ m ∈ s.pushes, m.record.failStage.isSome = genuineLoss m.result) :
    ExactAttribution (s.report U).read s.questionResults := by
  constructor
  · rw [report_total, questionResults, List.countP_map]
    refine List.countP_congr fun m member => ?_
    rw [each m member]
    rfl
  · intro r member infra
    obtain ⟨m, pushed, rfl⟩ := List.mem_map.mp member
    have paired : m.record.result = m.result := by
      obtain ⟨idx, _, settled⟩ := s.mem_pushes.mp pushed
      exact (run.outcome_reports settled).record
    rw [paired] at infra
    have none : m.record.failStage.isSome = false := by
      rw [each m pushed, genuineLoss, infra]
      simp
    simpa using none

end Schedule

theorem attribution_exact_iff (U : RustStr.UnicodeData) (s : run.Schedule)
    (judging : run.config.retrievalOnly = false) (asking : run.config.verifyMemoryList = false) :
    ExactAttribution (s.report U).read s.questionResults ↔
      ∀ idx, idx < run.instances.length → run.readBack idx = true →
        run.recallFails idx = false → run.writeRefused idx → run.graded idx = .correct := by
  constructor
  · intro exact idx within read answers refused
    obtain ⟨m, settled⟩ := run.outcome_isSome asking within
    obtain ⟨pl, member, inside, rfl⟩ := run.outcome_asked within settled read
    have partly := (run.convWrite_ingestFailed_iff member inside).mpr refused
    have unattributed : (run.asked idx (run.convWrite pl)).record.failStage = none := by
      apply exact.clean _ (List.mem_map_of_mem (s.mem_pushes.mpr ⟨idx, within, settled⟩))
      change infraFailed (run.asked idx (run.convWrite pl)).result = true
      rw [asked_infraFailed, partly, Bool.true_or]
    have stage := run.asked_failStage judging idx (run.convWrite pl)
    simpa [unattributed, answers] using stage
  · intro expected
    apply s.exactAttribution_of_each U
    intro m member
    obtain ⟨idx, within, settled⟩ := s.mem_pushes.mp member
    exact (run.outcome_lost_iff judging within settled).mpr (expected idx within)

def refusedWrite (questionType : QuestionType) : Run :=
  plainRun { World.silent with encode := fun _ _ => .error "over quota" }
    [{ sampleInstance "q0" "a" with questionType := questionType }]

theorem attribution_exact_of_declined :
    (refusedWrite .abstention).graded 0 = .correct ∧
      ExactAttribution ((refusedWrite .abstention).sequential.report .ascii).read
        (refusedWrite .abstention).sequential.questionResults := by
  have declined : (refusedWrite .abstention).graded 0 = .correct := by decide +kernel
  refine ⟨declined, (attribution_exact_iff _ .ascii _ rfl rfl).mpr ?_⟩
  intro idx within _ _ _
  have one : (refusedWrite .abstention).instances.length = 1 := rfl
  obtain rfl : idx = 0 := by omega
  exact declined

-- The ENCODE was refused, yet the question counts as an abstention of the model's.
theorem refused_write_attributed :
    (refusedWrite .singleHop).sequential.questionRecords.map
        (fun r => (r.result.ingestionFailed, r.failStage)) = [(true, some .abstention)] ∧
      (refusedWrite .singleHop).sequential.questionResults.countP genuineLoss = 0 ∧
      ¬ ExactAttribution ((refusedWrite .singleHop).sequential.report .ascii).read
        (refusedWrite .singleHop).sequential.questionResults := by
  have records : (refusedWrite .singleHop).sequential.questionRecords.map
      (fun r => (r.result.ingestionFailed, r.failStage)) = [(true, some .abstention)] := by
    decide +kernel
  have none : (refusedWrite .singleHop).sequential.questionResults.countP genuineLoss = 0 := by
    decide +kernel
  have counted : (FailureAttribution.fromRecords
      (refusedWrite .singleHop).sequential.questionRecords).total = 1 := by
    decide +kernel
  refine ⟨records, none, fun exact => ?_⟩
  have total := exact.total
  rw [none] at total
  exact absurd (counted.symm.trans total) (by decide)

end Run

end BrainEval.Runner
