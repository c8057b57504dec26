import Mathlib

set_option autoImplicit false

namespace BrainEval

structure TurnRecord where
  role : String
  content : String
  occurredAtUnixNanos : Option Nat
  deriving DecidableEq, Repr

structure Session where
  sessionId : String
  turns : List TurnRecord
  deriving DecidableEq, Repr

inductive QuestionType where
  | singleHop
  | multiHop
  | temporal
  | knowledgeUpdate
  | abstention
  | preference
  | adversarial
  | other
  deriving DecidableEq, Repr, Inhabited

def QuestionType.tag : QuestionType → String
  | .singleHop => "single_hop"
  | .multiHop => "multi_hop"
  | .temporal => "temporal"
  | .knowledgeUpdate => "knowledge_update"
  | .abstention => "abstention"
  | .preference => "preference"
  | .adversarial => "adversarial"
  | .other => "other"

theorem QuestionType.tag_injective : Function.Injective QuestionType.tag := by
  intro a b same
  cases a <;> cases b <;> first | rfl | exact absurd same (by decide)

-- The order only indexes the model of a hash map; the source never compares question types.
instance : Ord QuestionType := ⟨compareOn QuestionType.tag⟩

instance : Std.TransOrd QuestionType :=
  inferInstanceAs (Std.TransCmp (compareOn QuestionType.tag))

instance : Std.LawfulEqOrd QuestionType where
  eq_of_compare same := QuestionType.tag_injective (Std.compare_eq_iff_eq.mp same)

structure EvalInstance where
  questionId : String
  question : String
  answer : String
  questionType : QuestionType
  conversationId : Option String
  sessions : List Session
  deriving DecidableEq, Repr, Inhabited

end BrainEval
