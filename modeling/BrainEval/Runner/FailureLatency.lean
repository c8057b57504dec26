import Mathlib
import BrainEval.Runner.Question
import BrainEval.Score.Latency

set_option autoImplicit false

namespace BrainEval.Runner

open SortBy OrderStatistic Metrics

inductive RecallNeverCompleted : QuestionResult → Prop where
  | unavailable (inst : EvalInstance) (reason : String) (ingestFailed : Bool) :
    RecallNeverCompleted (failedQuestionResult inst reason ingestFailed)
  | failed (run : Run) (idx : Nat) (cw : ConvWrite) {e : HarnessError}
    (error : run.recallOutcome idx = .error e) :
    RecallNeverCompleted (run.runQuestion idx cw).result

structure ReadSideUnmoved (before after : List QuestionResult) : Prop where
  p50 : (computeLatencyStats after).readP50Ms = (computeLatencyStats before).readP50Ms
  p95 : (computeLatencyStats after).readP95Ms = (computeLatencyStats before).readP95Ms
  mean : (computeLatencyStats after).readMeanMs = (computeLatencyStats before).readMeanMs

/-- The latencies hide one zero more: no rank that moves meets another value, and the sum leaves
the mean room for one more share. -/
structure HidesZero (ms : List Nat) : Prop where
  middle : 2 ∣ ms.length → atRank ms (ms.length / 2 - 1) = atRank ms (ms.length / 2)
  tail : 20 ∣ ms.length → atRank ms (ms.length * 19 / 20 - 1) = atRank ms (ms.length * 19 / 20)
  share : ∃ q, q * (ms.length + 1) ≤ ms.sum ∧ ms.sum < (q + 1) * ms.length

theorem RecallNeverCompleted.readLatencyMs {r : QuestionResult} (never : RecallNeverCompleted r) :
    r.readLatencyMs = 0 := by
  cases never with
  | unavailable => rfl
  | failed run idx cw error => simp only [Run.runQuestion, Run.reading, error]

-- One result more moves the 95th percentile one rank up, but where 20 divides the count.
theorem tail_rank (n : Nat) : (n + 1) * 95 / 100 = n * 19 / 20 + if 20 ∣ n then 0 else 1 := by
  have small : ∀ r < 20, (r + 1) * 95 / 100 = r * 19 / 20 + if r = 0 then 0 else 1 := by decide
  have rest := small (n % 20) (Nat.mod_lt n (by decide))
  have next : (n + 1) * 95 / 100 = 19 * (n / 20) + (n % 20 + 1) * 95 / 100 := by omega
  have here : n * 19 / 20 = 19 * (n / 20) + n % 20 * 19 / 20 := by omega
  rw [next, here, rest, Nat.add_assoc]
  simp only [Nat.dvd_iff_mod_eq_zero]

section Shift

variable {ms : List Nat} (filled : ms ≠ [])

include filled

theorem median_shift :
    (sortByKey id (0 :: ms)).getD (min ((ms.length + 1) / 2) ms.length) 0 =
        (sortByKey id ms).getD (min (ms.length / 2) (ms.length - 1)) 0 ↔
      (2 ∣ ms.length → atRank ms (ms.length / 2 - 1) = atRank ms (ms.length / 2)) := by
  have positive : 0 < ms.length := List.length_pos_iff.mpr filled
  obtain ⟨k, next⟩ : ∃ k, (ms.length + 1) / 2 = k + 1 := ⟨(ms.length + 1) / 2 - 1, by omega⟩
  rw [sorted_cons fun x _ => Nat.zero_le x, Nat.min_eq_left (by omega), Nat.min_eq_left (by omega),
    next, List.getD_cons_succ]
  by_cases even : 2 ∣ ms.length
  next =>
    obtain rfl : k = ms.length / 2 - 1 := by omega
    rw [atRank_getD (by omega), atRank_getD (by omega), Option.some_inj]
    exact ⟨fun same _ => same, fun same => same even⟩
  next =>
    obtain rfl : k = ms.length / 2 := by omega
    exact iff_of_true rfl fun divides => absurd divides even

theorem tail_shift :
    (sortByKey id (0 :: ms)).getD (percentile95 (ms.length + 1)) 0 =
        (sortByKey id ms).getD (percentile95 ms.length) 0 ↔
      (20 ∣ ms.length → atRank ms (ms.length * 19 / 20 - 1) = atRank ms (ms.length * 19 / 20)) := by
  have positive : 0 < ms.length := List.length_pos_iff.mpr filled
  have here : ms.length * 95 / 100 = ms.length * 19 / 20 := by omega
  rw [sorted_cons fun x _ => Nat.zero_le x, percentile95_eq (Nat.succ_pos _),
    percentile95_eq positive, tail_rank, here]
  by_cases whole : 20 ∣ ms.length
  next =>
    obtain ⟨k, next⟩ : ∃ k, ms.length * 19 / 20 = k + 1 := ⟨ms.length * 19 / 20 - 1, by omega⟩
    rw [if_pos whole, Nat.add_zero, atRank_getD (by omega), atRank_getD (by omega), Option.some_inj,
      next, List.getD_cons_succ, Nat.add_sub_cancel]
    exact ⟨fun same _ => same, fun same => same whole⟩
  next =>
    rw [if_neg whole, List.getD_cons_succ]
    exact iff_of_true rfl fun divides => absurd divides whole

theorem mean_shift :
    (sortByKey id (0 :: ms)).sum / (ms.length + 1) = (sortByKey id ms).sum / ms.length ↔
      ∃ q, q * (ms.length + 1) ≤ ms.sum ∧ ms.sum < (q + 1) * ms.length := by
  have positive : 0 < ms.length := List.length_pos_iff.mpr filled
  rw [(sortByKey_perm id (0 :: ms)).sum_eq, (sortByKey_perm id ms).sum_eq, List.sum_cons,
    Nat.zero_add]
  constructor
  · intro same
    refine ⟨ms.sum / ms.length, ?_, Nat.lt_mul_of_div_lt (Nat.lt_succ_self _) positive⟩
    rw [← same]
    exact Nat.div_mul_le_self _ _
  · rintro ⟨q, least, most⟩
    have wide : q * ms.length ≤ q * (ms.length + 1) := Nat.mul_le_mul_left _ (Nat.le_succ _)
    have further : (q + 1) * ms.length ≤ (q + 1) * (ms.length + 1) :=
      Nat.mul_le_mul_left _ (Nat.le_succ _)
    rw [Nat.div_eq_of_lt_le least (most.trans_le further),
      Nat.div_eq_of_lt_le (wide.trans least) most]

end Shift

-- One result without a RECALL more leaves the read side alone exactly when there was no result
-- before, or the latencies hide a zero.
theorem failure_latency_iff (front back : List QuestionResult) {r : QuestionResult}
    (never : RecallNeverCompleted r) :
    ReadSideUnmoved (front ++ back) (front ++ r :: back) ↔
      front ++ back = [] ∨ HidesZero ((front ++ back).map (·.readLatencyMs)) := by
  have moved : computeLatencyStats (front ++ r :: back) =
      computeLatencyStats (r :: (front ++ back)) :=
    (computeLatencyStats_perm List.perm_middle).symm
  generalize front ++ r :: back = after at *
  generalize front ++ back = before at *
  by_cases none : before = []
  next =>
    subst none
    have single : computeLatencyStats [r] = ⟨r.writeLatencyMs, r.writeLatencyMs,
        r.writeLatencyMs, 0, 0, 0⟩ := by
      simp [computeLatencyStats, never.readLatencyMs, sortByKey, percentile95]
    exact iff_of_true ⟨by rw [moved, single]; rfl, by rw [moved, single]; rfl,
      by rw [moved, single]; rfl⟩ (Or.inl rfl)
  next =>
    have filled : before.map (·.readLatencyMs) ≠ [] := by simpa using none
    have median := median_shift filled
    have tail := tail_shift filled
    have mean := mean_shift filled
    rw [List.length_map] at median tail mean
    have here : computeLatencyStats before = _ := if_neg (by simpa using none)
    have there : computeLatencyStats (r :: before) = _ := if_neg (by simp)
    rw [or_iff_right none]
    constructor
    · rintro ⟨p50, p95, share⟩
      rw [moved, here, there] at p50 p95 share
      simp only [List.map_cons, never.readLatencyMs, List.length_cons, Nat.add_sub_cancel]
        at p50 p95 share
      constructor <;> rw [List.length_map]
      · exact median.mp p50
      · exact tail.mp p95
      · exact mean.mp share
    · rintro ⟨middle, last, share⟩
      rw [List.length_map] at middle last share
      constructor <;> rw [moved, here, there]
      all_goals simp only [List.map_cons, never.readLatencyMs, List.length_cons, Nat.add_sub_cancel]
      · exact median.mpr middle
      · exact tail.mpr last
      · exact mean.mpr share

def lostConversation : QuestionResult :=
  failedQuestionResult default "connect failed: connection refused" true

-- Under a millisecond each but one, in a run that loses a conversation.
theorem fast_recalls_unmoved :
    ReadSideUnmoved [timed 1, timed 0, timed 0] [timed 1, lostConversation, timed 0, timed 0] := by
  refine (failure_latency_iff [timed 1] [timed 0, timed 0] (.unavailable _ _ _)).mpr (Or.inr ?_)
  exact ⟨by decide, by decide, 0, by decide, by decide⟩

theorem lost_conversation_halves_median :
    computeLatencyStats [timed 10, timed 20] = ⟨0, 0, 0, 20, 20, 15⟩ ∧
      computeLatencyStats [timed 10, timed 20, lostConversation] = ⟨0, 0, 0, 10, 20, 10⟩ ∧
      RecallNeverCompleted lostConversation ∧
      ¬ReadSideUnmoved [timed 10, timed 20] [timed 10, timed 20, lostConversation] := by
  refine ⟨by decide, by decide, .unavailable _ _ _, fun unmoved => ?_⟩
  exact absurd unmoved.p50 (by decide)

end BrainEval.Runner
