import Mathlib
import BrainEval.Core.Outcome
import BrainEval.Lib.Str

set_option autoImplicit false

namespace BrainEval

open RustStr

def declinePhrases : List String :=
  ["don't know", "do not know", "not sure", "unknown", "not mentioned", "no information"]

def significantTokens (s : String) : List String :=
  ((s.toList.splitOnP fun c => !c.isAlphanum).filter (3 ≤ ·.length)).map String.ofList

def hasDeclinePhrase (ansLower : String) : Bool := declinePhrases.any (contains ansLower)

def matchedTokens (gtTokens : List String) (ansLower : String) : Nat :=
  gtTokens.countP (contains ansLower)

def judged (questionId : String) (verdict : Verdict) (reasoning : String) : JudgeResult where
  questionId := questionId
  verdict := verdict
  score := verdict.score
  reasoning := reasoning

@[simp] theorem judged_verdict (questionId : String) (verdict : Verdict) (reasoning : String) :
    (judged questionId verdict reasoning).verdict = verdict := rfl

def judgeAnswerHeuristic (questionId : String) (qtype : QuestionType)
    (groundTruth systemAnswer : String) : JudgeResult :=
  let gt := trim groundTruth
  let ans := trim systemAnswer
  let gtLower := toAsciiLowercase gt
  let ansLower := toAsciiLowercase ans
  let gtTokens := significantTokens gtLower
  let matched := matchedTokens gtTokens ansLower
  let overlap : ℚ := matched / gtTokens.length
  -- abstention rule
  if qtype = .abstention ∨ gt = "" then
    if ans = "" ∨ hasDeclinePhrase ansLower then
      judged questionId .correct "abstention: system correctly declined to answer"
    else
      judged questionId .incorrect "abstention: system produced an answer when none was expected"
  else if contains ansLower gtLower then
    judged questionId .correct "heuristic: answer contains ground truth as substring"
  else if gtTokens.isEmpty then
    judged questionId .incorrect "heuristic: ground truth has no significant tokens"
  else
    judged questionId (if 1 / 2 ≤ overlap then .partialCredit else .incorrect)
      ("heuristic: token overlap " ++ toString matched ++ "/" ++ toString gtTokens.length ++
        " = " ++ formatFixed2 (nearestF64 overlap))

theorem significantTokens_length {s token : String} (kept : token ∈ significantTokens s) :
    3 ≤ token.toList.length := by
  simp only [significantTokens, List.mem_map, List.mem_filter, decide_eq_true_eq] at kept
  obtain ⟨piece, ⟨_, long⟩, rfl⟩ := kept
  simpa using long

theorem judgeAnswerHeuristic_score (questionId : String) (qtype : QuestionType)
    (groundTruth systemAnswer : String) :
    (judgeAnswerHeuristic questionId qtype groundTruth systemAnswer).score =
      (judgeAnswerHeuristic questionId qtype groundTruth systemAnswer).verdict.score := by
  simp only [judgeAnswerHeuristic]
  split_ifs <;> rfl

theorem judgeAnswerHeuristic_graded (questionId : String) (qtype : QuestionType)
    (groundTruth systemAnswer : String) :
    (judgeAnswerHeuristic questionId qtype groundTruth systemAnswer).verdict ≠ .notJudged := by
  unfold judgeAnswerHeuristic
  dsimp only
  split_ifs <;> simp only [judged_verdict, ne_eq, reduceCtorEq, not_false_eq_true]

theorem hasDeclinePhrase_trim (s : String) :
    hasDeclinePhrase (toAsciiLowercase (trim s)) = hasDeclinePhrase (toAsciiLowercase s) := by
  have phrases : ∀ phrase ∈ declinePhrases, trim phrase = phrase := by decide +kernel
  rw [hasDeclinePhrase, hasDeclinePhrase, toAsciiLowercase_trim, Bool.eq_iff_iff]
  simp only [List.any_eq_true]
  apply exists_congr
  intro phrase
  apply and_congr_right
  intro member
  rw [contains_trim (phrases phrase member)]

theorem judgeAnswerHeuristic_correct_iff {questionId : String} {qtype : QuestionType}
    {groundTruth systemAnswer : String} (asked : qtype ≠ .abstention)
    (gold : trim groundTruth ≠ "") :
    (judgeAnswerHeuristic questionId qtype groundTruth systemAnswer).verdict = .correct ↔
      contains (toAsciiLowercase (trim systemAnswer)) (toAsciiLowercase (trim groundTruth)) =
        true := by
  unfold judgeAnswerHeuristic
  dsimp only
  rw [if_neg (not_or.mpr ⟨asked, gold⟩)]
  by_cases found : contains (toAsciiLowercase (trim systemAnswer))
      (toAsciiLowercase (trim groundTruth)) = true
  · rw [if_pos found]
    exact iff_of_true rfl found
  · rw [if_neg found]
    refine iff_of_false ?_ found
    split_ifs <;> simp only [judged_verdict, reduceCtorEq, not_false_eq_true]

theorem judgeAnswerHeuristic_unanswerable {questionId : String} {qtype : QuestionType}
    {groundTruth systemAnswer : String} (expected : qtype = .abstention ∨ trim groundTruth = "") :
    (judgeAnswerHeuristic questionId qtype groundTruth systemAnswer).verdict =
      if trim systemAnswer = "" ∨ hasDeclinePhrase (toAsciiLowercase (trim systemAnswer)) then
        .correct
      else .incorrect := by
  unfold judgeAnswerHeuristic
  dsimp only
  rw [if_pos expected]
  split <;> rfl

theorem matchedTokens_empty (gold : String) : matchedTokens (significantTokens gold) "" = 0 := by
  rw [matchedTokens, List.countP_eq_zero]
  intro token kept
  -- a token has three characters at least, the empty answer none
  have long := significantTokens_length kept
  rw [contains_empty, decide_eq_true_eq]
  rintro rfl
  simp at long

theorem judgeAnswerHeuristic_empty (questionId : String) (qtype : QuestionType)
    (groundTruth : String) :
    (judgeAnswerHeuristic questionId qtype groundTruth "").verdict =
      if qtype = .abstention ∨ trim groundTruth = "" then .correct else .incorrect := by
  unfold judgeAnswerHeuristic
  dsimp only
  rw [trim_empty, toAsciiLowercase_empty]
  by_cases expected : qtype = .abstention ∨ trim groundTruth = ""
  · rw [if_pos expected, if_pos expected, if_pos (Or.inl rfl)]
    rfl
  · have gold : ¬ contains "" (toAsciiLowercase (trim groundTruth)) = true := by
      rw [contains_empty, decide_eq_true_eq, toAsciiLowercase_eq_empty]
      exact fun empty => expected (Or.inr empty)
    rw [if_neg expected, if_neg expected, if_neg gold, matchedTokens_empty, Nat.cast_zero, zero_div,
      if_neg (by norm_num : ¬ (1 / 2 : ℚ) ≤ 0)]
    split <;> rfl

end BrainEval
