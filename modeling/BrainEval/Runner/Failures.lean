import Mathlib
import BrainEval.Runner.Agreement

set_option autoImplicit false

namespace BrainEval.Runner

open RustStr Metrics Report

structure NoCredit (r : QuestionResult) : Prop where
  score : r.score = 0
  verdict : r.verdict ≠ .correct

structure GradesNothing (results : List QuestionResult) (metrics : EvalMetrics) : Prop where
  correct : metrics.correct = 0
  partialCredit : metrics.partialCredit = 0
  incorrect : metrics.incorrect = 0
  verdicts : ∀ r ∈ results, r.verdict = .notJudged

theorem gradesNothing_iff (U : UnicodeData) (results : List QuestionResult) :
    GradesNothing results (computeFullMetrics U results) ↔
      ∀ r ∈ results, r.verdict = .notJudged := by
  constructor
  · exact fun nothing => nothing.verdicts
  · intro ungraded
    have none : results.filter (·.verdict.isGraded) = [] := by
      rw [List.filter_eq_nil_iff]
      intro r member
      simp [ungraded r member]
    refine ⟨?_, ?_, ?_, ungraded⟩ <;>
      simp [computeFullMetrics, none, correctCount, partialCreditCount]

namespace Run

variable (run : Run)

def recallFails (idx : Nat) : Bool := !(run.recallOutcome idx).isOk

def infraFails (idx : Nat) : Bool := !run.readBack idx || run.recallFails idx

@[simp] theorem failed_result (idx : Nat) (reason : String) (ingestFailed : Bool) :
    (run.failed idx reason ingestFailed).result =
      failedQuestionResult (run.inst idx) reason ingestFailed := rfl

theorem failed_noCredit (idx : Nat) (reason : String) (ingestFailed : Bool) :
    NoCredit (run.failed idx reason ingestFailed).result :=
  ⟨rfl, by simp [failedQuestionResult]⟩

theorem reading_of_recallFails {idx : Nat} (fails : run.recallFails idx = true) :
    run.reading idx = ⟨.error, [], 0, true, ""⟩ := by
  unfold recallFails at fails
  unfold reading
  cases met : run.recallOutcome idx with
  | error e => rfl
  | ok outcome => simp [met, Except.isOk, Except.toBool] at fails

@[simp] theorem asked_verdict (idx : Nat) (cw : ConvWrite) :
    (run.asked idx cw).result.verdict =
      (run.verdictOn idx (run.reading idx).systemAnswer).verdict := rfl

@[simp] theorem asked_score (idx : Nat) (cw : ConvWrite) :
    (run.asked idx cw).result.score =
      (run.verdictOn idx (run.reading idx).systemAnswer).score := rfl

section Judged

variable (heuristic : run.judge = .heuristic) (judging : run.config.retrievalOnly = false)

include heuristic judging

theorem verdictOn_heuristic (idx : Nat) (systemAnswer : String) :
    run.verdictOn idx systemAnswer =
      judgeAnswerHeuristic (run.inst idx).questionId (run.inst idx).questionType
        (run.inst idx).answer systemAnswer := by
  rw [verdictOn, judging, if_neg Bool.false_ne_true, heuristic]
  rfl

theorem asked_noCredit_iff {idx : Nat} (cw : ConvWrite) (fails : run.recallFails idx = true) :
    NoCredit (run.asked idx cw).result ↔
      (run.inst idx).questionType ≠ .abstention ∧ trim (run.inst idx).answer ≠ "" := by
  -- the failed RECALL leaves the empty answer, and that is what is judged
  have answer : (run.reading idx).systemAnswer = "" := by rw [run.reading_of_recallFails fails]
  have verdict := judgeAnswerHeuristic_empty (run.inst idx).questionId
    (run.inst idx).questionType (run.inst idx).answer
  have score := judgeAnswerHeuristic_score (run.inst idx).questionId
    (run.inst idx).questionType (run.inst idx).answer ""
  constructor
  · rintro ⟨_, wrong⟩
    rw [asked_verdict, run.verdictOn_heuristic heuristic judging, answer, verdict] at wrong
    by_contra expected
    rw [← not_or, not_not] at expected
    exact wrong (if_pos expected)
  · intro expected
    rw [← not_or] at expected
    rw [if_neg expected] at verdict
    rw [verdict] at score
    constructor
    · rw [asked_score, run.verdictOn_heuristic heuristic judging, answer, score]
      rfl
    · rw [asked_verdict, run.verdictOn_heuristic heuristic judging, answer, verdict]
      decide

theorem infra_failure_no_credit_iff (s : run.Schedule) (m : Merged) (member : m ∈ s.pushes) :
    (run.infraFails m.idx = true → NoCredit m.result) ↔
      (run.readBack m.idx = true → run.recallFails m.idx = true →
        (run.inst m.idx).questionType ≠ .abstention ∧ trim (run.inst m.idx).answer ≠ "") := by
  obtain ⟨idx, _, settled⟩ := s.mem_pushes.mp member
  rcases run.outcome_cases settled with ⟨unread, reason, ingestFailed, rfl⟩ | ⟨read, _, cw, rfl⟩
  · have closed : run.readBack (run.failed idx reason ingestFailed).idx = false := unread
    constructor
    · intro _ read
      simp [closed] at read
    · exact fun _ _ => run.failed_noCredit idx reason ingestFailed
  · change (run.infraFails idx = true → _) ↔
      (run.readBack idx = true → run.recallFails idx = true → _)
    rw [infraFails, read]
    constructor
    · intro none _ fails
      exact (run.asked_noCredit_iff heuristic judging cw fails).mp (none (by simp [fails]))
    · intro expected fails
      have unanswered : run.recallFails idx = true := by simpa using fails
      exact (run.asked_noCredit_iff heuristic judging cw unanswered).mpr (expected rfl unanswered)

end Judged

def unanswered (questionType : QuestionType) : Run :=
  plainRun { World.silent with questionRecall := fun _ _ => .error "timed out" }
    [{ sampleInstance "q0" "a" with questionType := questionType }]

theorem unanswered_idx (questionType : QuestionType) (m : Merged)
    (member : m ∈ (unanswered questionType).sequential.pushes) : m.idx = 0 := by
  obtain ⟨idx, within, settled⟩ := (unanswered questionType).sequential.mem_pushes.mp member
  have one : (unanswered questionType).instances.length = 1 := rfl
  rw [(unanswered questionType).outcome_idx settled]
  omega

theorem unanswered_fact_no_credit : (unanswered .singleHop).infraFails 0 = true ∧
    ∀ m ∈ (unanswered .singleHop).sequential.pushes,
      (unanswered .singleHop).infraFails m.idx = true → NoCredit m.result := by
  refine ⟨by decide +kernel, fun m member => ?_⟩
  refine (infra_failure_no_credit_iff _ rfl rfl _ m member).mpr fun _ _ => ?_
  rw [unanswered_idx .singleHop m member]
  decide

theorem unanswered_abstention_earns_credit :
    (unanswered .abstention).infraFails 0 = true ∧
      (unanswered .abstention).sequential.pushes.map
        (fun m => (m.idx, m.result.verdict, m.result.score)) = [(0, .correct, 1)] ∧
      ∃ m ∈ (unanswered .abstention).sequential.pushes,
        (unanswered .abstention).infraFails m.idx = true ∧ ¬ NoCredit m.result := by
  have credited : (unanswered .abstention).sequential.pushes.map
      (fun m => (m.idx, m.result.verdict, m.result.score)) = [(0, .correct, 1)] := by
    decide +kernel
  have failed : (unanswered .abstention).infraFails 0 = true := by decide +kernel
  refine ⟨failed, credited, ?_⟩
  have shown : ((0, .correct, 1) : Nat × Verdict × ℚ) ∈
      (unanswered .abstention).sequential.pushes.map
        (fun m => (m.idx, m.result.verdict, m.result.score)) := by
    rw [credited]
    exact List.mem_singleton.mpr rfl
  obtain ⟨m, member, same⟩ := List.mem_map.mp shown
  simp only [Prod.mk.injEq] at same
  obtain ⟨index, verdict, _⟩ := same
  exact ⟨m, member, by rw [index, failed], fun none => none.verdict verdict⟩

theorem retrieval_only_grades_nothing_iff (U : UnicodeData) (s : run.Schedule)
    (retrieval : run.config.retrievalOnly = true) :
    GradesNothing s.questionResults (s.report U).metrics ↔
      ∀ idx, idx < run.instances.length → run.readBack idx = true := by
  change GradesNothing s.questionResults (computeFullMetrics U s.questionResults) ↔ _
  rw [gradesNothing_iff, Schedule.questionResults, List.forall_mem_map]
  constructor
  · intro ungraded idx within
    by_contra unread
    obtain ⟨pl, _, _, planned⟩ := run.planOf_key within
    have failed : ∃ m, run.outcome idx = some m := by
      rw [readBack, planned, Option.any_some] at unread
      rw [outcome, planned, Option.bind_some]
      cases met : run.fate pl with
      | unavailable reason => exact ⟨_, rfl⟩
      | lost id reason => exact ⟨_, rfl⟩
      | opened id => simp [met, Fate.isOpened] at unread
    obtain ⟨m, settled⟩ := failed
    have verdict := ungraded m (s.mem_pushes.mpr ⟨idx, within, settled⟩)
    rcases run.outcome_cases settled with ⟨_, _, _, rfl⟩ | ⟨read, _⟩
    · simp [failedQuestionResult] at verdict
    · exact unread read
  · intro read m member
    obtain ⟨idx, within, settled⟩ := s.mem_pushes.mp member
    rcases run.outcome_cases settled with ⟨unread, _⟩ | ⟨_, _, cw, rfl⟩
    · simp [read idx within] at unread
    · simp [verdictOn, retrieval]

theorem retrieval_only_silent_grades_nothing :
    GradesNothing
      ((plainRun .silent [sampleInstance "q0" "a"]).inMode true).sequential.questionResults
      (((plainRun .silent [sampleInstance "q0" "a"]).inMode true).sequential.report
        .ascii).metrics :=
  (retrieval_only_grades_nothing_iff _ .ascii _ rfl).mpr (by decide +kernel)

def refusedRetrieval : Run :=
  (plainRun { World.silent with connect := fun _ _ _ => .error "refused" }
    [sampleInstance "q0" "a"]).inMode true

theorem refused_retrieval_grades_incorrect :
    refusedRetrieval.config.retrievalOnly = true ∧
      refusedRetrieval.sequential.questionResults.map (·.verdict) = [.incorrect] ∧
      ¬ GradesNothing refusedRetrieval.sequential.questionResults
        (refusedRetrieval.sequential.report .ascii).metrics := by
  have verdicts : refusedRetrieval.sequential.questionResults.map (·.verdict) = [.incorrect] := by
    decide +kernel
  refine ⟨rfl, verdicts, fun nothing => ?_⟩
  have ungraded := nothing.verdicts
  rw [← List.forall_mem_map (f := QuestionResult.verdict) (P := (· = .notJudged)), verdicts]
    at ungraded
  simp at ungraded

end Run

end BrainEval.Runner
