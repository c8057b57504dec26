import Mathlib
import BrainEval.Score.Judge

set_option autoImplicit false

namespace BrainEval

open RustStr

theorem trim_significantToken {s token : String} (kept : token ∈ significantTokens s) :
    trim token = token := by
  simp only [significantTokens, List.mem_map, List.mem_filter] at kept
  obtain ⟨piece, ⟨cut, _⟩, rfl⟩ := kept
  have solid : ∀ c ∈ piece, isWhitespace c = false := by
    intro c member
    apply isWhitespace_of_isAlphanum
    simpa using mem_splitOnP cut c member
  rw [trim, String.toList_ofList, trimChars_eq_self]
  · exact fun x first => solid x (List.mem_of_mem_head? first)
  · exact fun y last => solid y (List.mem_of_getLast? last)

section Answerable

variable {questionId : String} {qtype : QuestionType} {gold : String}
  (asked : qtype ≠ .abstention) (some : trim gold ≠ "")

include asked some

theorem judgeAnswerHeuristic_tiers (answer : String) :
    (judgeAnswerHeuristic questionId qtype gold answer).score =
      if contains (toAsciiLowercase (trim answer)) (toAsciiLowercase (trim gold)) then 1
      else if (significantTokens (toAsciiLowercase (trim gold))).isEmpty then 0
      else if 1 / 2 ≤ (matchedTokens (significantTokens (toAsciiLowercase (trim gold)))
          (toAsciiLowercase (trim answer)) /
        (significantTokens (toAsciiLowercase (trim gold))).length : ℚ) then 1 / 2
      else 0 := by
  unfold judgeAnswerHeuristic
  dsimp only
  rw [if_neg (not_or.mpr ⟨asked, some⟩)]
  split_ifs <;> rfl

-- An answer in which every trimmed text of another is found is graded no lower.
theorem judgeAnswerHeuristic_mono {answer longer : String}
    (found : ∀ pattern, trim pattern = pattern →
      contains (toAsciiLowercase (trim answer)) pattern = true →
        contains (toAsciiLowercase (trim longer)) pattern = true) :
    (judgeAnswerHeuristic questionId qtype gold answer).score ≤
      (judgeAnswerHeuristic questionId qtype gold longer).score := by
  have whole := found _ (trim_toAsciiLowercase_trim gold)
  have tokens : matchedTokens (significantTokens (toAsciiLowercase (trim gold)))
      (toAsciiLowercase (trim answer)) ≤
        matchedTokens (significantTokens (toAsciiLowercase (trim gold)))
          (toAsciiLowercase (trim longer)) :=
    List.countP_mono_left fun token kept => found token (trim_significantToken kept)
  rw [judgeAnswerHeuristic_tiers asked some, judgeAnswerHeuristic_tiers asked some]
  by_cases credited :
      contains (toAsciiLowercase (trim answer)) (toAsciiLowercase (trim gold)) = true
  next => rw [if_pos credited, if_pos (whole credited)]
  next =>
    rw [if_neg credited]
    generalize significantTokens (toAsciiLowercase (trim gold)) = goldTokens at tokens
    have overlap :
        (matchedTokens goldTokens (toAsciiLowercase (trim answer)) / goldTokens.length : ℚ) ≤
        matchedTokens goldTokens (toAsciiLowercase (trim longer)) / goldTokens.length :=
      div_le_div_of_nonneg_right (Nat.cast_le.mpr tokens) (Nat.cast_nonneg _)
    by_cases half : (1 / 2 : ℚ) ≤
        matchedTokens goldTokens (toAsciiLowercase (trim answer)) / goldTokens.length
    next =>
      rw [if_pos half, if_pos (half.trans overlap)]
      split_ifs <;> norm_num
    next =>
      rw [if_neg half]
      split_ifs <;> norm_num

end Answerable

theorem contains_surrounded {answer pattern : String} (trimmed : trim pattern = pattern)
    (found : contains (toAsciiLowercase (trim answer)) pattern = true) (before after : String) :
    contains (toAsciiLowercase (trim (before ++ answer ++ after))) pattern = true := by
  rw [toAsciiLowercase_trim, contains_trim trimmed] at found ⊢
  rw [toAsciiLowercase_append, toAsciiLowercase_append]
  exact contains_append found _ _

-- The judge reads nothing of the case of either text.
theorem judgeAnswerHeuristic_congr {questionId : String} {qtype : QuestionType}
    {gold gold' answer answer' : String} (golds : toAsciiLowercase gold' = toAsciiLowercase gold)
    (answers : toAsciiLowercase answer' = toAsciiLowercase answer) :
    judgeAnswerHeuristic questionId qtype gold' answer' =
      judgeAnswerHeuristic questionId qtype gold answer := by
  have lowered {s s' : String} (same : toAsciiLowercase s' = toAsciiLowercase s) :
      toAsciiLowercase (trim s') = toAsciiLowercase (trim s) := by
    rw [toAsciiLowercase_trim, toAsciiLowercase_trim, same]
  have blank {s s' : String} (same : toAsciiLowercase s' = toAsciiLowercase s) :
      trim s' = "" ↔ trim s = "" := by
    rw [← toAsciiLowercase_eq_empty, lowered same, toAsciiLowercase_eq_empty]
  simp only [judgeAnswerHeuristic, lowered golds, lowered answers, blank golds, blank answers]

theorem heuristic_judge_monotone (questionId : String) {qtype : QuestionType} {gold : String}
    (asked : qtype ≠ .abstention) (some : trim gold ≠ "") (answer : String) :
    (∀ before after : String,
      (judgeAnswerHeuristic questionId qtype gold answer).score ≤
        (judgeAnswerHeuristic questionId qtype gold (before ++ answer ++ after)).score) ∧
      ∀ gold' answer' : String, toAsciiLowercase gold' = toAsciiLowercase gold →
        toAsciiLowercase answer' = toAsciiLowercase answer →
          (judgeAnswerHeuristic questionId qtype gold' answer').verdict =
            (judgeAnswerHeuristic questionId qtype gold answer).verdict := by
  constructor
  · intro before after
    exact judgeAnswerHeuristic_mono asked some fun _ trimmed found =>
      contains_surrounded trimmed found before after
  · intro gold' answer' golds answers
    rw [judgeAnswerHeuristic_congr golds answers]

theorem paris_never_lowered :
    (judgeAnswerHeuristic "q" .singleHop "Paris, France" "near Paris").score = 1 / 2 ∧
      (1 / 2 : ℚ) ≤
        (judgeAnswerHeuristic "q" .singleHop "Paris, France" ("maybe " ++ "near Paris" ++ "?")).score ∧
      (judgeAnswerHeuristic "q" .singleHop "PARIS, France" "near paris").verdict =
        .partialCredit := by
  have partway : judgeAnswerHeuristic "q" .singleHop "Paris, France" "near Paris" =
      judged "q" .partialCredit "heuristic: token overlap 1/2 = 0.50" := by
    decide +kernel
  obtain ⟨raised, folded⟩ :=
    @heuristic_judge_monotone "q" .singleHop "Paris, France" (by decide) (by decide) "near Paris"
  rw [partway] at raised folded
  refine ⟨by rw [partway]; rfl, raised "maybe " "?", ?_⟩
  exact folded "PARIS, France" "near paris" (by decide) (by decide)

end BrainEval
