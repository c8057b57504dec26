import Mathlib
import BrainEval.Score.Metrics

set_option autoImplicit false

namespace BrainEval.Metrics

open RustStr

def isCommitted (r : QuestionResult) : Bool :=
  (r.answerKind = .single || r.answerKind = .many) && !isDecline r.systemAnswer

def ofKind (kind : AnswerKind) (r : QuestionResult) : Bool := r.answerKind = kind

section Commit

variable (m : ShapeTally) (r : QuestionResult)

@[simp] theorem commit_single : (m.commit r).single = m.single := by
  unfold ShapeTally.commit
  split_ifs <;> rfl

@[simp] theorem commit_many : (m.commit r).many = m.many := by
  unfold ShapeTally.commit
  split_ifs <;> rfl

@[simp] theorem commit_abstained : (m.commit r).abstained = m.abstained := by
  unfold ShapeTally.commit
  split_ifs <;> rfl

@[simp] theorem commit_errored : (m.commit r).errored = m.errored := by
  unfold ShapeTally.commit
  split_ifs <;> rfl

theorem commit_committed :
    (m.commit r).committed = m.committed + if isDecline r.systemAnswer = false then 1 else 0 := by
  unfold ShapeTally.commit
  by_cases declined : isDecline r.systemAnswer = true
  · simp [declined]
  · rw [if_neg declined, if_pos (Bool.eq_false_iff.mpr declined)]
    split_ifs <;> rfl

theorem step_counts :
    (m.step r).single = m.single + (if ofKind .single r then 1 else 0) ∧
      (m.step r).many = m.many + (if ofKind .many r then 1 else 0) ∧
      (m.step r).abstained = m.abstained + (if ofKind .none r then 1 else 0) ∧
      (m.step r).errored = m.errored + (if ofKind .error r then 1 else 0) ∧
      (m.step r).committed = m.committed + if isCommitted r then 1 else 0 := by
  unfold ShapeTally.step ofKind isCommitted
  cases r.answerKind <;> simp [commit_committed]

end Commit

theorem foldl_step_counts (results : List QuestionResult) (m : ShapeTally) :
    (results.foldl ShapeTally.step m).single = m.single + results.countP (ofKind .single) ∧
      (results.foldl ShapeTally.step m).many = m.many + results.countP (ofKind .many) ∧
      (results.foldl ShapeTally.step m).abstained = m.abstained + results.countP (ofKind .none) ∧
      (results.foldl ShapeTally.step m).errored = m.errored + results.countP (ofKind .error) ∧
      (results.foldl ShapeTally.step m).committed = m.committed + results.countP isCommitted := by
  induction results generalizing m with
  | nil => simp
  | cons r results ih =>
    obtain ⟨single, many, abstained, errored, committed⟩ := ih (m.step r)
    obtain ⟨single', many', abstained', errored', committed'⟩ := step_counts m r
    simp only [List.foldl_cons, List.countP_cons]
    omega

-- The shape counters count the questions of each kind and the committed ones.
theorem answerShape_counts (results : List QuestionResult) :
    (computeAnswerShape results).single = results.countP (ofKind .single) ∧
      (computeAnswerShape results).many = results.countP (ofKind .many) ∧
      (computeAnswerShape results).abstained = results.countP (ofKind .none) ∧
      (computeAnswerShape results).errored = results.countP (ofKind .error) ∧
      (computeAnswerShape results).committed = results.countP isCommitted := by
  have counts := foldl_step_counts results .zero
  simpa [ShapeTally.zero, computeAnswerShape] using counts

end BrainEval.Metrics
