import Mathlib
import BrainEval.Lib.OrderStatistic
import BrainEval.Score.Metrics

set_option autoImplicit false

namespace BrainEval.Metrics

open SortBy OrderStatistic

-- The sum of a `u64` iterator; past the last `u64` it panics.
def sumU64 (ms : List Nat) : Option Nat :=
  ms.foldlM (fun total x => if total + x < 2 ^ 64 then some (total + x) else none) 0

-- `compute_latency_stats` where an index out of range and an overflow are panics.
def computeLatencyStatsChecked (results : List QuestionResult) : Option LatencyStats :=
  if results.isEmpty then some ⟨0, 0, 0, 0, 0, 0⟩
  else do
    let n := results.length
    let writeMs := sortByKey id (results.map (·.writeLatencyMs))
    let readMs := sortByKey id (results.map (·.readLatencyMs))
    let p50 := min (n / 2) (n - 1)
    let p95 := percentile95 n
    let writeP50 ← writeMs[p50]?
    let writeP95 ← writeMs[p95]?
    let writeTotal ← sumU64 writeMs
    let readP50 ← readMs[p50]?
    let readP95 ← readMs[p95]?
    let readTotal ← sumU64 readMs
    return {
      writeP50Ms := writeP50
      writeP95Ms := writeP95
      writeMeanMs := writeTotal / n
      readP50Ms := readP50
      readP95Ms := readP95
      readMeanMs := readTotal / n }

/-- What the three figures of one pipeline say of its latencies. -/
structure Summarises (ms : List Nat) (filled : ms ≠ []) (p50 p95 mean : Nat) : Prop where
  median_below : 2 * ms.countP (· < p50) ≤ ms.length
  median_reached : ms.length < 2 * ms.countP (· ≤ p50)
  tail_below : 100 * ms.countP (· < p95) ≤ 95 * ms.length
  tail_reached : 95 * ms.length < 100 * ms.countP (· ≤ p95)
  ordered : p50 ≤ p95
  min_le_mean : ms.min filled ≤ mean
  mean_le_max : mean ≤ ms.max filled

theorem sumU64_eq {ms : List Nat} (fits : ms.sum < 2 ^ 64) : sumU64 ms = some ms.sum := by
  have from_total : ∀ total, total + ms.sum < 2 ^ 64 →
      ms.foldlM (fun total x => if total + x < 2 ^ 64 then some (total + x) else none) total =
        some (total + ms.sum) := by
    clear fits
    induction ms with
    | nil => simp
    | cons x ms ih =>
      intro total fits
      rw [List.sum_cons, ← Nat.add_assoc] at fits
      have first : total + x < 2 ^ 64 := by omega
      rw [List.foldlM_cons, if_pos first]
      simpa [Nat.add_assoc] using ih (total + x) fits
  rw [sumU64, from_total 0 (by omega), Nat.zero_add]

theorem percentile95_eq {n : Nat} (positive : 0 < n) : percentile95 n = n * 95 / 100 := by
  unfold percentile95
  omega

section Pipeline

variable {ms : List Nat}

theorem atRank_getD {k : Nat} (inside : k < ms.length) :
    atRank ms k = some ((sortByKey id ms).getD k 0) := by
  rw [← length_sorted ms] at inside
  rw [atRank, List.getElem?_eq_getElem inside, List.getD_eq_getElem _ _ inside]

theorem mean_within (filled : ms ≠ []) :
    ms.min filled ≤ ms.sum / ms.length ∧ ms.sum / ms.length ≤ ms.max filled := by
  have positive : 0 < ms.length := List.length_pos_iff.mpr filled
  constructor
  · rw [Nat.le_div_iff_mul_le positive, Nat.mul_comm, ← smul_eq_mul]
    exact List.card_nsmul_le_sum ms _ fun x member => List.min_le_of_mem member
  · apply Nat.div_le_of_le_mul
    rw [← smul_eq_mul]
    exact List.sum_le_card_nsmul ms _ fun x member => List.le_max_of_mem member

theorem summarises (filled : ms ≠ []) :
    Summarises ms filled ((sortByKey id ms).getD (min (ms.length / 2) (ms.length - 1)) 0)
      ((sortByKey id ms).getD (percentile95 ms.length) 0) ((sortByKey id ms).sum / ms.length) := by
  have positive : 0 < ms.length := List.length_pos_iff.mpr filled
  have half : min (ms.length / 2) (ms.length - 1) = ms.length / 2 := by omega
  rw [half, percentile95_eq positive, (sortByKey_perm id ms).sum_eq]
  have p50 := atRank_getD (show ms.length / 2 < ms.length by omega)
  have p95 := atRank_getD (show ms.length * 95 / 100 < ms.length by omega)
  have below := countP_lt_le p50
  have reached := lt_countP_le p50
  have tail_below := countP_lt_le p95
  have tail_reached := lt_countP_le p95
  exact {
    median_below := by omega
    median_reached := by omega
    tail_below := by omega
    tail_reached := by omega
    ordered := atRank_mono (by omega) p50 p95
    min_le_mean := (mean_within filled).1
    mean_le_max := (mean_within filled).2 }

end Pipeline

section Stats

variable {results : List QuestionResult}

theorem computeLatencyStats_perm {other : List QuestionResult} (perm : results.Perm other) :
    computeLatencyStats other = computeLatencyStats results := by
  have writes := sorted_perm (perm.map (·.writeLatencyMs))
  have reads := sorted_perm (perm.map (·.readLatencyMs))
  have empty : other.isEmpty = results.isEmpty := perm.isEmpty_eq.symm
  simp only [computeLatencyStats, writes, reads, empty, perm.length_eq]

theorem computeLatencyStatsChecked_eq (writes : (results.map (·.writeLatencyMs)).sum < 2 ^ 64)
    (reads : (results.map (·.readLatencyMs)).sum < 2 ^ 64) :
    computeLatencyStatsChecked results = some (computeLatencyStats results) := by
  by_cases empty : results.isEmpty = true
  next => simp only [computeLatencyStatsChecked, computeLatencyStats, if_pos empty]
  next =>
    have positive : 0 < results.length := by
      rw [List.length_pos_iff]
      simpa using empty
    have rank (ms : List Nat) (long : ms.length = results.length) {k : Nat}
        (inside : k < results.length) :
        (sortByKey id ms)[k]? = some ((sortByKey id ms).getD k 0) :=
      atRank_getD (long ▸ inside)
    have total {ms : List Nat} (fits : ms.sum < 2 ^ 64) :
        sumU64 (sortByKey id ms) = some (sortByKey id ms).sum :=
      sumU64_eq ((sortByKey_perm id ms).sum_eq.trans_lt fits)
    have half : min (results.length / 2) (results.length - 1) < results.length := by omega
    have tail : percentile95 results.length < results.length := by
      rw [percentile95_eq positive]
      omega
    simp only [computeLatencyStatsChecked, computeLatencyStats, if_neg empty,
      rank _ (List.length_map _) half, rank _ (List.length_map _) tail, total writes, total reads,
      Option.bind_eq_bind, Option.bind_some, Option.pure_def]

theorem latency_order_statistics (filled : results ≠ [])
    (writes : (results.map (·.writeLatencyMs)).sum < 2 ^ 64)
    (reads : (results.map (·.readLatencyMs)).sum < 2 ^ 64) :
    computeLatencyStatsChecked results = some (computeLatencyStats results) ∧
      (∀ other, results.Perm other → computeLatencyStats other = computeLatencyStats results) ∧
      Summarises (results.map (·.writeLatencyMs)) (by simpa using filled)
        (computeLatencyStats results).writeP50Ms (computeLatencyStats results).writeP95Ms
        (computeLatencyStats results).writeMeanMs ∧
      Summarises (results.map (·.readLatencyMs)) (by simpa using filled)
        (computeLatencyStats results).readP50Ms (computeLatencyStats results).readP95Ms
        (computeLatencyStats results).readMeanMs := by
  have computed : computeLatencyStats results = _ := if_neg (by simpa using filled)
  refine ⟨computeLatencyStatsChecked_eq writes reads,
    fun _ perm => computeLatencyStats_perm perm, ?_, ?_⟩
  · rw [computed, ← List.length_map (·.writeLatencyMs)]
    exact summarises _
  · rw [computed, ← List.length_map (·.readLatencyMs)]
    exact summarises _

end Stats

def timed (readMs : Nat) : QuestionResult := { qr .single .correct "Paris" with
  readLatencyMs := readMs }

theorem three_latencies_ordered :
    computeLatencyStatsChecked [timed 30, timed 10, timed 21] = some ⟨0, 0, 0, 21, 30, 20⟩ ∧
      computeLatencyStats [timed 10, timed 21, timed 30] =
        computeLatencyStats [timed 30, timed 10, timed 21] := by
  obtain ⟨checked, ordered, -, -⟩ := @latency_order_statistics [timed 30, timed 10, timed 21]
    (by simp) (by decide) (by decide)
  refine ⟨checked.trans (by decide), ordered _ (by decide)⟩

end BrainEval.Metrics
