import Mathlib
import BrainEval.Runner.Failures
import BrainEval.Score.AnswerShape
import BrainEval.Score.Commitment

set_option autoImplicit false

namespace BrainEval.Runner

open RustStr Metrics Retrieval Harness Report Synthesize

structure SameRetrievalSide (m m' : EvalMetrics) : Prop where
  single : m.answerShape.single = m'.answerShape.single
  many : m.answerShape.many = m'.answerShape.many
  abstained : m.answerShape.abstained = m'.answerShape.abstained
  errored : m.answerShape.errored = m'.answerShape.errored
  committed : m.answerShape.committed = m'.answerShape.committed
  retrieval : m.retrieval = m'.retrieval

-- The model's reply to an outcome, where it is not blank.
def SynthSlot.reply (synth : SynthSlot) (idx : Nat) (outcome : RecallOutcome) : Option String :=
  match synth with
  | .heuristic => none
  | .llm complete => (complete idx outcome).filter fun reply => trim reply ≠ ""

/-- What is said to a recall outcome holds a decline phrase: the reply to it does, or a memory that
is shown in place of a reply. -/
def SynthSlot.Declines (synth : SynthSlot) (idx : Nat) (outcome : RecallOutcome)
    (episodicCap : Nat) : Prop :=
  outcome.memories = [] ∨
    match synth.reply idx outcome with
    | some reply => hasDeclinePhrase (toAsciiLowercase (trim reply)) = true
    | none => ∃ m ∈ shown outcome episodicCap, hasDeclinePhrase (toAsciiLowercase m.text) = true

theorem SynthSlot.synthesize_eq (synth : SynthSlot) (idx : Nat) {outcome : RecallOutcome}
    (episodicCap : Nat) (filled : outcome.memories ≠ []) :
    synth.synthesize idx outcome episodicCap =
      match synth.reply idx outcome with
      | some reply => trim reply
      | none => synthesizeAnswer outcome episodicCap := by
  cases synth with
  | heuristic => rfl
  | llm complete =>
    cases replied : complete idx outcome with
    | none => simp [SynthSlot.synthesize, SynthSlot.reply, filled, replied]
    | some reply =>
      by_cases blank : trim reply = ""
      next => simp [SynthSlot.synthesize, SynthSlot.reply, Option.filter_some, filled, replied, blank]
      next => simp [SynthSlot.synthesize, SynthSlot.reply, Option.filter_some, filled, replied, blank]

theorem SynthSlot.reply_ne_blank {synth : SynthSlot} {idx : Nat} {outcome : RecallOutcome}
    {reply : String} (replied : synth.reply idx outcome = some reply) : trim reply ≠ "" := by
  cases synth with
  | heuristic => cases replied
  | llm complete => simpa using (Option.filter_eq_some_iff.mp replied).2

theorem isDecline_dontKnow : isDecline dontKnow = true := by decide

theorem isDecline_synthesize_iff (synth : SynthSlot) (idx : Nat) (outcome : RecallOutcome)
    (episodicCap : Nat) :
    isDecline (synth.synthesize idx outcome episodicCap) = true ↔
      synth.Declines idx outcome episodicCap := by
  by_cases empty : outcome.memories = []
  · have answer : synth.synthesize idx outcome episodicCap = dontKnow := by
      cases synth <;> simp [SynthSlot.synthesize, synthesizeAnswer, empty]
    rw [answer, SynthSlot.Declines]
    exact iff_of_true isDecline_dontKnow (.inl empty)
  · rw [SynthSlot.Declines, or_iff_right empty, synth.synthesize_eq idx episodicCap empty]
    cases replied : synth.reply idx outcome with
    | none => exact isDecline_answer episodicCap empty
    | some reply => simp [isDecline, trim_trim, SynthSlot.reply_ne_blank replied]

namespace Run

variable (run : Run)

@[simp] theorem inMode_planOf (mode : Bool) (k : String) :
    (run.inMode mode).planOf k = run.planOf k := rfl

@[simp] theorem inMode_fate (mode : Bool) (pl : Planned) :
    (run.inMode mode).fate pl = run.fate pl := rfl

@[simp] theorem inMode_recallOutcome (mode : Bool) (idx : Nat) :
    (run.inMode mode).recallOutcome idx = run.recallOutcome idx := rfl

@[simp] theorem inMode_readBack (mode : Bool) (idx : Nat) :
    (run.inMode mode).readBack idx = run.readBack idx := rfl

theorem asked_retrievalSide (mode : Bool) (idx : Nat) (cw : ConvWrite) :
    retrievalSide ((run.inMode mode).asked idx cw).result =
      retrievalSide (run.asked idx cw).result := by
  have contents : ((run.inMode mode).asked idx cw).result.retrievedMemoryContents =
      (run.asked idx cw).result.retrievedMemoryContents := by
    refine (runQuestion_contents _ idx cw).trans (Eq.trans ?_ (runQuestion_contents _ idx cw).symm)
    rw [reading, reading, inMode_recallOutcome]
    cases run.recallOutcome idx <;> rfl
  have kind : ((run.inMode mode).asked idx cw).result.answerKind =
      (run.asked idx cw).result.answerKind := by
    change ((run.inMode mode).reading idx).answerKind = (run.reading idx).answerKind
    rw [reading, reading, inMode_recallOutcome]
    cases run.recallOutcome idx <;> rfl
  have missed : ((run.inMode mode).asked idx cw).result.retrievalFailed =
      (run.asked idx cw).result.retrievalFailed := by
    change ((run.inMode mode).reading idx).retrievalFailed = (run.reading idx).retrievalFailed
    rw [reading, reading, inMode_recallOutcome]
    cases run.recallOutcome idx <;> rfl
  rw [retrievalSide, retrievalSide, contents, kind, missed]
  rfl

theorem outcome_retrievalSide (mode : Bool) (idx : Nat) :
    ((run.inMode mode).outcome idx).map (fun m => retrievalSide m.result) =
      (run.outcome idx).map fun m => retrievalSide m.result := by
  have same : (run.inMode mode).key idx = run.key idx := rfl
  rw [outcome, outcome, same, inMode_planOf]
  rcases run.planOf (run.key idx) with _ | pl
  · rfl
  · simp only [Option.bind_some, inMode_fate]
    cases run.fate pl with
    | unavailable reason => rfl
    | lost id reason => rfl
    | opened id =>
      change (if run.config.verifyMemoryList = true then none
        else some ((run.inMode mode).asked idx (run.convWrite pl))).map _ = _
      by_cases listed : run.config.verifyMemoryList = true
      · simp [listed]
      · simp [listed, run.asked_retrievalSide mode idx]

-- Both modes report the same questions with the same retrieval-side fields.
theorem results_retrievalSide {mode mode' : Bool} (s : (run.inMode mode).Schedule)
    (s' : (run.inMode mode').Schedule) :
    (s.questionResults.map retrievalSide).Perm (s'.questionResults.map retrievalSide) := by
  have view : ∀ {mode : Bool} (s : (run.inMode mode).Schedule),
      (s.questionResults.map retrievalSide).Perm ((List.range run.instances.length).filterMap
        fun idx => (run.outcome idx).map fun m => retrievalSide m.result) := by
    intro mode s
    have perm := s.pushes_perm.map fun m => retrievalSide m.result
    rw [List.map_filterMap] at perm
    simp only [outcome_retrievalSide] at perm
    rw [Schedule.questionResults, List.map_map]
    exact perm
  exact (view s).trans (view s').symm

theorem countP_ofKind {mode mode' : Bool} (s : (run.inMode mode).Schedule)
    (s' : (run.inMode mode').Schedule) (kind : AnswerKind) :
    s.questionResults.countP (ofKind kind) = s'.questionResults.countP (ofKind kind) := by
  have counted := (run.results_retrievalSide s s').countP_eq (ofKind kind)
  rw [List.countP_map, List.countP_map] at counted
  exact counted

theorem sameRetrievalSide_iff (U : UnicodeData) {mode mode' : Bool}
    (s : (run.inMode mode).Schedule) (s' : (run.inMode mode').Schedule) :
    SameRetrievalSide (s.report U).metrics (s'.report U).metrics ↔
      s.questionResults.countP isCommitted = s'.questionResults.countP isCommitted := by
  obtain ⟨single, many, abstained, errored, committed⟩ := answerShape_counts s.questionResults
  obtain ⟨single', many', abstained', errored', committed'⟩ := answerShape_counts s'.questionResults
  constructor
  · intro same
    exact committed.symm.trans (same.committed.trans committed')
  · intro same
    refine ⟨?_, ?_, ?_, ?_, committed.trans (same.trans committed'.symm), ?_⟩
    · exact single.trans ((run.countP_ofKind s s' _).trans single'.symm)
    · exact many.trans ((run.countP_ofKind s s' _).trans many'.symm)
    · exact abstained.trans ((run.countP_ofKind s s' _).trans abstained'.symm)
    · exact errored.trans ((run.countP_ofKind s s' _).trans errored'.symm)
    · change computeRetrievalStats U s.questionResults = computeRetrievalStats U s'.questionResults
      rw [← computeRetrievalStats_retrievalSide U s.questionResults,
        ← computeRetrievalStats_retrievalSide U s'.questionResults,
        computeRetrievalStats_perm U (run.results_retrievalSide s s')]

theorem failed_uncommitted (idx : Nat) (reason : String) (ingestFailed : Bool) :
    isCommitted (run.failed idx reason ingestFailed).result = false := rfl

theorem isDecline_empty : isDecline "" = true := by decide

theorem retrievalOnly_uncommitted (s : (run.inMode true).Schedule) :
    s.questionResults.countP isCommitted = 0 := by
  rw [List.countP_eq_zero, Schedule.questionResults, List.forall_mem_map]
  intro m member
  obtain ⟨idx, _, settled⟩ := s.mem_pushes.mp member
  rcases outcome_cases _ settled with ⟨_, reason, ingestFailed, rfl⟩ | ⟨_, _, cw, rfl⟩
  · exact Bool.eq_false_iff.mp (failed_uncommitted _ idx reason ingestFailed)
  · have answer : ((run.inMode true).asked idx cw).result.systemAnswer = "" := by
      change ((run.inMode true).reading idx).systemAnswer = ""
      rw [reading]
      cases (run.inMode true).recallOutcome idx <;> rfl
    simp [isCommitted, answer, isDecline_empty]

def synthAnswer (idx : Nat) (outcome : RecallOutcome) : String :=
  run.synth.synthesize idx outcome run.config.maxResults

theorem isDecline_synthAnswer_iff (idx : Nat) (outcome : RecallOutcome) :
    isDecline (run.synthAnswer idx outcome) = true ↔
      run.synth.Declines idx outcome run.config.maxResults :=
  isDecline_synthesize_iff run.synth idx outcome run.config.maxResults

theorem judged_committed (idx : Nat) (cw : ConvWrite) :
    isCommitted ((run.inMode false).asked idx cw).result = true ↔
      ∃ outcome, run.recallOutcome idx = .ok outcome ∧ outcome.answerKind ≠ .none ∧
        isDecline (run.synthAnswer idx outcome) = false := by
  have kind : ((run.inMode false).asked idx cw).result.answerKind =
      ((run.inMode false).reading idx).answerKind := rfl
  have answer : ((run.inMode false).asked idx cw).result.systemAnswer =
      ((run.inMode false).reading idx).systemAnswer := rfl
  rw [isCommitted, kind, answer, reading, inMode_recallOutcome]
  cases met : run.recallOutcome idx with
  | error e => simp
  | ok outcome =>
    have synthesised : (if (run.inMode false).config.retrievalOnly = true then ""
        else (run.inMode false).synth.synthesize idx outcome (run.inMode false).config.maxResults) =
        run.synthAnswer idx outcome := rfl
    have answered : (answerKindFromWire outcome.answerKind = .single ∨
        answerKindFromWire outcome.answerKind = .many) ↔ outcome.answerKind ≠ .none := by
      cases outcome.answerKind <;> decide
    simp [synthesised, answered]

-- Retrieval-only mode keeps every retrieval-side number exactly when each outcome that answers a
-- question has nothing shown to it but what reads as a decline.
theorem retrieval_only_same_numbers_iff (U : UnicodeData) (s : (run.inMode true).Schedule)
    (s' : (run.inMode false).Schedule) :
    SameRetrievalSide (s.report U).metrics (s'.report U).metrics ↔
      ∀ idx, idx < run.instances.length → run.readBack idx = true →
        run.config.verifyMemoryList = false → ∀ outcome, run.recallOutcome idx = .ok outcome →
          outcome.answerKind ≠ .none →
            run.synth.Declines idx outcome run.config.maxResults := by
  simp only [← run.isDecline_synthAnswer_iff]
  rw [sameRetrievalSide_iff, retrievalOnly_uncommitted, eq_comm, List.countP_eq_zero,
    Schedule.questionResults, List.forall_mem_map]
  constructor
  · intro uncommitted idx within read asking outcome answered shape
    obtain ⟨m, settled⟩ := (run.inMode false).outcome_isSome asking within
    have silent := uncommitted m (s'.mem_pushes.mpr ⟨idx, within, settled⟩)
    rcases outcome_cases _ settled with ⟨unread, _⟩ | ⟨_, _, cw, rfl⟩
    · rw [inMode_readBack, read] at unread
      exact absurd unread (by decide)
    · by_contra committing
      exact silent ((run.judged_committed idx cw).mpr
        ⟨outcome, answered, shape, Bool.eq_false_iff.mpr committing⟩)
  · intro declines m member
    obtain ⟨idx, within, settled⟩ := s'.mem_pushes.mp member
    rcases outcome_cases _ settled with ⟨_, reason, ingestFailed, rfl⟩ | ⟨read, asking, cw, rfl⟩
    · exact Bool.eq_false_iff.mp (failed_uncommitted _ idx reason ingestFailed)
    · intro committed
      obtain ⟨outcome, answered, shape, commits⟩ := (run.judged_committed idx cw).mp committed
      rw [declines idx within read asking outcome answered shape] at commits
      exact absurd commits (by decide)

def answeredRun : Run :=
  plainRun { World.silent with
      questionRecall := fun _ _ =>
        .ok ⟨.single, [⟨1, "Ann lives in Paris", 1, 1, none, 1, [.semantic], none⟩]⟩ }
    [sampleInstance "q0" "a"]

theorem retrieval_only_drops_commitment :
    ((answeredRun.inMode true).sequential.report .ascii).metrics.answerShape.committed = 0 ∧
      ((answeredRun.inMode false).sequential.report .ascii).metrics.answerShape.committed = 1 ∧
      ¬ SameRetrievalSide ((answeredRun.inMode true).sequential.report .ascii).metrics
        ((answeredRun.inMode false).sequential.report .ascii).metrics := by
  have none : (computeAnswerShape (answeredRun.inMode true).sequential.questionResults).committed =
      0 := by decide +kernel
  have one : (computeAnswerShape (answeredRun.inMode false).sequential.questionResults).committed =
      1 := by decide +kernel
  refine ⟨none, one, fun same => ?_⟩
  have equal : 0 = 1 := none.symm.trans (same.committed.trans one)
  omega

end Run

end BrainEval.Runner
