import Mathlib
import BrainEval.Client.Harness
import BrainEval.Score.Judge

set_option autoImplicit false

namespace BrainEval

open RustStr Harness

@[ext] structure ContaminationReport where
  considered : Nat
  answerInContext : Nat
  answerInQuestion : Nat
  deriving DecidableEq

namespace ContaminationReport

variable (r : ContaminationReport)

def leakRate (leaks : Nat) : ℚ := if r.considered = 0 then 0 else leaks / r.considered

def contextLeakRate : ℚ := r.leakRate r.answerInContext

def questionLeakRate : ℚ := r.leakRate r.answerInQuestion

instance : Add ContaminationReport where
  add r r' :=
    ⟨r.considered + r'.considered, r.answerInContext + r'.answerInContext,
      r.answerInQuestion + r'.answerInQuestion⟩

@[simp] theorem add_considered (r r' : ContaminationReport) :
    (r + r').considered = r.considered + r'.considered := rfl

@[simp] theorem add_answerInContext (r r' : ContaminationReport) :
    (r + r').answerInContext = r.answerInContext + r'.answerInContext := rfl

@[simp] theorem add_answerInQuestion (r r' : ContaminationReport) :
    (r + r').answerInQuestion = r.answerInQuestion + r'.answerInQuestion := rfl

end ContaminationReport

namespace Contamination

def foldedGold (inst : EvalInstance) : String := toAsciiLowercase (trim inst.answer)

def holdsGold (inst : EvalInstance) (text : String) : Bool :=
  contains (toAsciiLowercase text) (foldedGold inst)

def scanInstance (r : ContaminationReport) (inst : EvalInstance) : ContaminationReport :=
  -- a short gold answer is skipped; the question type is not looked at
  if (foldedGold inst).utf8ByteSize < 4 then r
  else
    { considered := r.considered + 1
      answerInContext :=
        r.answerInContext +
          if inst.sessions.any fun s => s.turns.any fun t => holdsGold inst t.content then 1 else 0
      answerInQuestion := r.answerInQuestion + if holdsGold inst inst.question then 1 else 0 }

def contaminationReport (instances : List EvalInstance) : ContaminationReport :=
  instances.foldl scanInstance ⟨0, 0, 0⟩

def isLong (inst : EvalInstance) : Bool := 4 ≤ (trim inst.answer).utf8ByteSize

def isLeakable (inst : EvalInstance) : Bool := inst.questionType ≠ .abstention && isLong inst

-- The text, handed to the judge as the answer, is graded correct.
def answers (inst : EvalInstance) (text : String) : Bool :=
  (judgeAnswerHeuristic inst.questionId inst.questionType inst.answer text).verdict = .correct

def leaksToContext (ingested : TurnRecord → Bool) (inst : EvalInstance) : Bool :=
  inst.sessions.any fun s => s.turns.any fun t => ingested t && answers inst t.content

def holdsInContext (inst : EvalInstance) : Bool :=
  inst.sessions.any fun s => s.turns.any fun t => holdsGold inst t.content

/-- The report counts what the judge would credit. -/
structure AgreesWithJudge (ingested : TurnRecord → Bool) (instances : List EvalInstance) :
    Prop where
  considered : (contaminationReport instances).considered = instances.countP isLeakable
  inContext : (contaminationReport instances).answerInContext =
    instances.countP fun inst => isLeakable inst && leaksToContext ingested inst
  inQuestion : (contaminationReport instances).answerInQuestion =
    instances.countP fun inst => isLeakable inst && answers inst inst.question
  additive : ∀ more, contaminationReport (instances ++ more) =
    contaminationReport instances + contaminationReport more
  contextBounded : (contaminationReport instances).answerInContext ≤
    (contaminationReport instances).considered
  questionBounded : (contaminationReport instances).answerInQuestion ≤
    (contaminationReport instances).considered

theorem foldedGold_short_iff (inst : EvalInstance) :
    (foldedGold inst).utf8ByteSize < 4 ↔ ¬ isLong inst = true := by
  rw [foldedGold, utf8ByteSize_toAsciiLowercase, isLong, decide_eq_true_eq, not_le]

def share (inst : EvalInstance) : ContaminationReport :=
  ⟨if isLong inst then 1 else 0, if isLong inst && holdsInContext inst then 1 else 0,
    if isLong inst && holdsGold inst inst.question then 1 else 0⟩

theorem scanInstance_eq (r : ContaminationReport) (inst : EvalInstance) :
    scanInstance r inst = r + share inst := by
  unfold scanInstance share
  rw [← holdsInContext]
  by_cases long : isLong inst = true
  next =>
    rw [if_neg ((foldedGold_short_iff inst).not.mpr (not_not.mpr long))]
    ext <;> simp [long]
  next =>
    rw [if_pos ((foldedGold_short_iff inst).mpr long)]
    ext <;> simp [long]

theorem foldl_scanInstance (instances : List EvalInstance) (r : ContaminationReport) :
    instances.foldl scanInstance r = r +
      ⟨instances.countP isLong, instances.countP fun inst => isLong inst && holdsInContext inst,
        instances.countP fun inst => isLong inst && holdsGold inst inst.question⟩ := by
  induction instances generalizing r with
  | nil => rfl
  | cons inst instances ih =>
    rw [List.foldl_cons, ih, scanInstance_eq]
    ext <;> simp only [ContaminationReport.add_considered, ContaminationReport.add_answerInContext,
      ContaminationReport.add_answerInQuestion, share, List.countP_cons] <;> omega

theorem contaminationReport_eq (instances : List EvalInstance) :
    contaminationReport instances =
      ⟨instances.countP isLong, instances.countP fun inst => isLong inst && holdsInContext inst,
        instances.countP fun inst => isLong inst && holdsGold inst inst.question⟩ := by
  rw [contaminationReport, foldl_scanInstance]
  ext <;> simp

theorem contaminationReport_append (instances more : List EvalInstance) :
    contaminationReport (instances ++ more) =
      contaminationReport instances + contaminationReport more := by
  ext <;> simp [contaminationReport_eq]

theorem contaminationReport_bounded (instances : List EvalInstance) :
    (contaminationReport instances).answerInContext ≤
        (contaminationReport instances).considered ∧
      (contaminationReport instances).answerInQuestion ≤
        (contaminationReport instances).considered := by
  rw [contaminationReport_eq]
  constructor
  · exact List.countP_mono_left fun inst _ leaks => (Bool.and_eq_true_iff.mp leaks).1
  · exact List.countP_mono_left fun inst _ leaks => (Bool.and_eq_true_iff.mp leaks).1

-- The judge trims the text; the gold answer is trimmed, so that loses no occurrence.
theorem answers_eq_holdsGold {inst : EvalInstance} (leakable : isLeakable inst = true)
    (text : String) : answers inst text = holdsGold inst text := by
  obtain ⟨asked, long⟩ := Bool.and_eq_true_iff.mp leakable
  have some : trim inst.answer ≠ "" := by
    intro blank
    simp [isLong, blank] at long
  rw [answers, Bool.eq_iff_iff, decide_eq_true_eq,
    judgeAnswerHeuristic_correct_iff (by simpa using asked) some, holdsGold, foldedGold,
    toAsciiLowercase_trim text, contains_trim (trim_toAsciiLowercase_trim inst.answer)]

theorem holdsInContext_of_leaks {ingested : TurnRecord → Bool} {inst : EvalInstance}
    (leakable : isLeakable inst = true) (leaks : leaksToContext ingested inst = true) :
    holdsInContext inst = true := by
  obtain ⟨s, session, some⟩ := List.any_eq_true.mp leaks
  obtain ⟨t, turn, given⟩ := List.any_eq_true.mp some
  rw [answers_eq_holdsGold leakable, Bool.and_eq_true] at given
  exact List.any_eq_true.mpr ⟨s, session, List.any_eq_true.mpr ⟨t, turn, given.2⟩⟩

theorem countP_eq_iff {α : Type} {p q : α → Bool} {l : List α}
    (within : ∀ x ∈ l, p x = true → q x = true) :
    l.countP q = l.countP p ↔ ∀ x ∈ l, q x = true → p x = true := by
  constructor
  · intro same
    have whole : (l.filter q).filter p = l.filter p := by
      rw [List.filter_filter]
      apply List.filter_congr
      intro x member
      by_cases first : p x = true
      next => simp [first, within x member first]
      next => simp [first]
    intro x member second
    have all : (l.filter q).filter p = l.filter q := by
      apply List.filter_sublist.eq_of_length
      rw [whole, ← List.countP_eq_length_filter, ← List.countP_eq_length_filter, same]
    exact List.filter_eq_self.mp all x (List.mem_filter.mpr ⟨member, second⟩)
  · intro back
    exact List.countP_congr fun x member => ⟨back x member, within x member⟩

def AbstentionsShort (instances : List EvalInstance) : Prop :=
  ∀ inst ∈ instances, isLong inst = true → inst.questionType ≠ .abstention

-- Where a turn holds the gold answer, a turn that is ingested does.
def LeaksIngested (ingested : TurnRecord → Bool) (instances : List EvalInstance) : Prop :=
  ∀ inst ∈ instances, isLong inst = true → holdsInContext inst = true →
    ∃ s ∈ inst.sessions, ∃ t ∈ s.turns, ingested t = true ∧ holdsGold inst t.content = true

theorem considered_iff (instances : List EvalInstance) :
    (contaminationReport instances).considered = instances.countP isLeakable ↔
      AbstentionsShort instances := by
  rw [contaminationReport_eq]
  refine (countP_eq_iff fun inst _ leakable => (Bool.and_eq_true_iff.mp leakable).2).trans ?_
  apply forall₃_congr
  intro inst member long
  simp [long]

theorem inContext_iff {ingested : TurnRecord → Bool} {instances : List EvalInstance}
    (short : AbstentionsShort instances) :
    ((contaminationReport instances).answerInContext =
        instances.countP fun inst => isLeakable inst && leaksToContext ingested inst) ↔
      LeaksIngested ingested instances := by
  rw [contaminationReport_eq, countP_eq_iff]
  · apply forall₂_congr
    intro inst member
    rw [Bool.and_eq_true, and_imp]
    refine forall₂_congr fun long holds => ?_
    have leakable : isLeakable inst = true := by simp [isLeakable, long, short inst member long]
    simp [leakable, leaksToContext, answers_eq_holdsGold leakable]
  · intro inst _ leaks
    obtain ⟨leakable, leaks⟩ := Bool.and_eq_true_iff.mp leaks
    rw [(Bool.and_eq_true_iff.mp leakable).2, holdsInContext_of_leaks leakable leaks]
    rfl

theorem agreesWithJudge_iff (ingested : TurnRecord → Bool) (instances : List EvalInstance) :
    AgreesWithJudge ingested instances ↔
      AbstentionsShort instances ∧ LeaksIngested ingested instances := by
  constructor
  · intro agrees
    have short := (considered_iff instances).mp agrees.considered
    exact ⟨short, (inContext_iff short).mp agrees.inContext⟩
  · rintro ⟨short, given⟩
    refine
      { considered := (considered_iff instances).mpr short
        inContext := (inContext_iff short).mpr given
        inQuestion := ?_
        additive := contaminationReport_append instances
        contextBounded := (contaminationReport_bounded instances).1
        questionBounded := (contaminationReport_bounded instances).2 }
    rw [contaminationReport_eq]
    apply List.countP_congr
    intro inst member
    by_cases long : isLong inst = true
    next =>
      have leakable : isLeakable inst = true := by simp [isLeakable, long, short inst member long]
      rw [long, leakable, answers_eq_holdsGold leakable]
    next =>
      have nothing : isLeakable inst = false := by simp [isLeakable, long]
      simp [long, nothing]

theorem leakRate_mem (instances : List EvalInstance) :
    (contaminationReport instances).contextLeakRate ∈ Set.Icc (0 : ℚ) 1 ∧
      (contaminationReport instances).questionLeakRate ∈ Set.Icc (0 : ℚ) 1 := by
  have rate {leaks : Nat} (bounded : leaks ≤ (contaminationReport instances).considered) :
      (contaminationReport instances).leakRate leaks ∈ Set.Icc (0 : ℚ) 1 := by
    unfold ContaminationReport.leakRate
    split
    next => simp
    next => exact ⟨by positivity, div_le_one_of_le₀ (Nat.cast_le.mpr bounded) (Nat.cast_nonneg _)⟩
  obtain ⟨inContext, inQuestion⟩ := contaminationReport_bounded instances
  exact ⟨rate inContext, rate inQuestion⟩

theorem contamination_agrees_iff (instances : List EvalInstance) :
    (AgreesWithJudge isWritten instances ↔
      AbstentionsShort instances ∧ LeaksIngested isWritten instances) ∧
    (AgreesWithJudge (fun _ => true) instances ↔ AbstentionsShort instances) := by
  refine ⟨agreesWithJudge_iff isWritten instances, ?_⟩
  refine (agreesWithJudge_iff (fun _ => true) instances).trans (and_iff_left ?_)
  intro inst _ _ holds
  simpa [holdsInContext] using holds

def leaky (questionType : QuestionType) (role : String) : EvalInstance where
  questionId := "q1"
  question := "Where does Ann live?"
  answer := "Paris"
  questionType := questionType
  conversationId := none
  sessions := [⟨"session-0", [⟨role, "Ann lives in Paris now.", none⟩]⟩]

-- An abstention question is considered, and a turn that no ENCODE carries is a leak.
theorem abstention_is_considered :
    contaminationReport [leaky .abstention "user"] = ⟨1, 1, 0⟩ ∧
      ¬ AgreesWithJudge isWritten [leaky .abstention "user"] ∧
      ¬ AgreesWithJudge (fun _ => true) [leaky .abstention "user"] ∧
      contaminationReport [leaky .singleHop "assistant"] = ⟨1, 1, 0⟩ ∧
      ¬ AgreesWithJudge isWritten [leaky .singleHop "assistant"] := by
  refine ⟨by decide +kernel, ?_, ?_, by decide +kernel, ?_⟩
  · intro agrees
    exact absurd agrees.considered (by decide +kernel)
  · intro agrees
    exact absurd agrees.considered (by decide +kernel)
  · intro agrees
    exact absurd agrees.inContext (by decide +kernel)

end Contamination

end BrainEval
