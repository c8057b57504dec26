import Mathlib
import BrainEval.Lib.Growth
import BrainEval.Blackbox.RecallQuality

set_option autoImplicit false

namespace BrainEval.Soak

open RustStr Growth Scale

def minTrendSamples : Nat := 3

structure SoakSample where
  elapsedS : Nat
  cumulativeEncodes : Nat
  cumulativeRecalls : Nat
  cumulativeErrors : Nat
  recallAt1 : ℚ
  p99Ms : ℚ
  rssBytes : Option Nat

structure SoakReport where
  samples : List SoakSample
  totalEncodes : Nat
  totalRecalls : Nat
  totalErrors : Nat
  recallFloor : ℚ
  maxRssGrowth : ℚ
  maxLatencyDrift : ℚ

namespace SoakReport

variable (ρ : Rounding) (r : SoakReport)

def latencyOk : Bool :=
  if r.samples.length < minTrendSamples then true
  else
    let p99s := (r.samples.map (·.p99Ms)).filter (0 < ·)
    if p99s.length < minTrendSamples then true
    else
      let best := p99s.min?.getD 0
      let worst := p99s.foldl max 0
      best ≤ 0 || worst ≤ ρ.mul best r.maxLatencyDrift

def rss : List Nat := r.samples.filterMap (·.rssBytes)

def rssOk : Bool :=
  if r.rss.length < minTrendSamples then true
  else
    let min := r.rss.min?.getD 0
    let max := r.rss.max?.getD 0
    min == 0 || ρ.ofNat max ≤ ρ.mul (ρ.ofNat min) r.maxRssGrowth

def healthy : Bool :=
  if r.totalErrors ≠ 0 || r.samples.isEmpty then false
  else if !r.samples.all fun s => s.recallAt1 ≥ r.recallFloor then false
  else if !r.latencyOk ρ then false
  else r.rssOk ρ

-- A sample exceeds another by more than the factor.
def RssExceeds (earlier later : Nat) : Prop := ρ.Exceeds r.maxRssGrowth earlier later

instance : DecidableRel (r.RssExceeds ρ) := fun _ _ => inferInstanceAs (Decidable (_ < _))

structure OtherwiseHealthy : Prop where
  errors : r.totalErrors = 0
  sampled : r.samples ≠ []
  held : ∀ s ∈ r.samples, r.recallFloor ≤ s.recallAt1
  latency : r.latencyOk ρ = true

/-- The check as a guard against growth. -/
structure GuardsGrowth : Prop where
  fails_on_growth : r.rssOk ρ = false → Rises (r.RssExceeds ρ) r.rss
  steady_passes : r.rss.Pairwise (fun earlier later => later ≤ earlier) → r.rssOk ρ = true
  steady_healthy : r.rss.Pairwise (fun earlier later => later ≤ earlier) →
    r.OtherwiseHealthy ρ → r.healthy ρ = true

theorem healthy_of_otherwise (otherwise : r.OtherwiseHealthy ρ) : r.healthy ρ = r.rssOk ρ := by
  obtain ⟨errors, sampled, held, latency⟩ := otherwise
  have floor : (r.samples.all fun s => s.recallAt1 ≥ r.recallFloor) = true := by
    rw [List.all_eq_true]
    exact fun s member => decide_eq_true (held s member)
  simp [healthy, errors, sampled, floor, latency]

section Guard

variable {r} (grows : 1 ≤ r.maxRssGrowth)

include grows

theorem not_rssExceeds_self (n : Nat) : ¬ r.RssExceeds ρ n n :=
  Rounding.not_exceeds_of_le grows (le_refl n)

-- Only the least and the greatest sample are compared, whichever came first.
theorem rssOk_eq_false_iff :
    r.rssOk ρ = false ↔ minTrendSamples ≤ r.rss.length ∧ 0 ∉ r.rss ∧
      (Rises (r.RssExceeds ρ) r.rss ∨ Falls (r.RssExceeds ρ) r.rss) := by
  unfold rssOk
  by_cases few : r.rss.length < minTrendSamples
  next => simp [few]
  next =>
    have some : r.rss ≠ [] := by
      intro none
      simp [none, minTrendSamples] at few
    obtain ⟨lo, least⟩ := Option.isSome_iff_exists.mp (List.isSome_min?_iff.mpr some)
    obtain ⟨hi, greatest⟩ := Option.isSome_iff_exists.mp (List.isSome_max?_iff.mpr some)
    have zero : lo = 0 ↔ 0 ∈ r.rss := by
      obtain ⟨low, below⟩ := List.min?_eq_some_iff.mp least
      exact ⟨fun same => same ▸ low, fun member => Nat.le_zero.mp (below 0 member)⟩
    have widest : r.RssExceeds ρ lo hi ↔
        Rises (r.RssExceeds ρ) r.rss ∨ Falls (r.RssExceeds ρ) r.rss := by
      rw [← exists_related_iff (not_rssExceeds_self ρ grows)]
      exact extremes_related_iff
        (fun related => Rounding.Exceeds.mono (zero_le_one.trans grows) related) least greatest
    rw [if_neg few, least, greatest, Option.getD_some, Option.getD_some, Bool.or_eq_false_iff,
      beq_eq_false_iff_ne, decide_eq_false_iff_not, not_le, ← widest, ne_eq, zero]
    exact ⟨fun fails => ⟨not_lt.mp few, fails⟩, fun fails => fails.2⟩

theorem not_rises_of_steady (steady : r.rss.Pairwise fun earlier later => later ≤ earlier) :
    ¬ Rises (r.RssExceeds ρ) r.rss := by
  rw [not_rises_iff]
  exact steady.imp fun less => Rounding.not_exceeds_of_le grows less

theorem guardsGrowth_iff :
    r.GuardsGrowth ρ ↔ (r.rssOk ρ = false → Rises (r.RssExceeds ρ) r.rss) := by
  constructor
  next => exact GuardsGrowth.fails_on_growth
  next =>
    intro growth
    have passes (steady : r.rss.Pairwise fun earlier later => later ≤ earlier) :
        r.rssOk ρ = true := by
      by_contra fails
      exact not_rises_of_steady ρ grows steady (growth (Bool.eq_false_iff.mpr fails))
    refine ⟨growth, passes, fun steady otherwise => ?_⟩
    rw [healthy_of_otherwise ρ r otherwise]
    exact passes steady

-- The check is a growth guard but for the runs with samples enough and none of them zero in which
-- some sample falls by more than the factor and none rises by it.
theorem rss_guard_iff :
    r.GuardsGrowth ρ ↔
      ¬ (minTrendSamples ≤ r.rss.length ∧ 0 ∉ r.rss ∧ Falls (r.RssExceeds ρ) r.rss ∧
        ¬ Rises (r.RssExceeds ρ) r.rss) := by
  rw [guardsGrowth_iff ρ grows, rssOk_eq_false_iff ρ grows]
  tauto

end Guard

def sampleAt (elapsedS rssBytes : Nat) : SoakSample :=
  ⟨elapsedS, 10 * elapsedS, 10 * elapsedS, 0, 1, 5, some rssBytes⟩

def reportOf (rss : List Nat) : SoakReport :=
  ⟨rss.zipIdx.map fun sampled => sampleAt (sampled.2 + 1) sampled.1, 30, 30, 0, 9 / 10, 11 / 10, 3⟩

theorem rising_run_guarded : (reportOf [100, 105, 120]).GuardsGrowth .exact :=
  (rss_guard_iff .exact (r := reportOf [100, 105, 120]) (by norm_num [reportOf])).mpr
    (by decide +kernel)

-- A process that gives memory back is failed as a leak.
theorem shrinking_run_fails :
    1 ≤ (reportOf [300, 200, 100]).maxRssGrowth ∧
      (reportOf [300, 200, 100]).rss.Pairwise (fun earlier later => later ≤ earlier) ∧
      (reportOf [300, 200, 100]).rssOk .exact = false ∧
      ¬ Rises ((reportOf [300, 200, 100]).RssExceeds .exact) (reportOf [300, 200, 100]).rss ∧
      (reportOf [300, 200, 100]).healthy .exact = false := by
  refine ⟨by norm_num [reportOf], by decide +kernel, by decide +kernel, by decide +kernel,
    by decide +kernel⟩

end SoakReport

def probeSize : Nat := 10

def driftTopics : List String :=
  ["billing", "search", "auth", "ingest", "planner", "indexer", "embedder", "gateway", "cache",
    "router"]

def driftTag (salt : String) : String := salt ++ "drift"

def driftNeedle (salt : String) (i : Nat) : String := "zd" ++ driftTag salt ++ zeroPad 4 i ++ "xz"

def driftTopic (i : Nat) : String := driftTopics.getD (i % driftTopics.length) ""

def driftText (salt : String) (i : Nat) : String :=
  "Drift reference " ++ toString i ++ " for topic " ++ driftTopic i ++ ": the unique marker is " ++
    driftNeedle salt i ++ ", set amid ordinary prose so retrieval must discriminate."

def driftHit (needle : String) : Except String RecallAnswer → Bool
  | .ok answer =>
    match answer.memories with
    | m :: _ => contains m.text needle
    | [] => false
  | .error _ => false

def driftProbe (encode : Nat → String → Except String Unit)
    (recallNote : Nat → ProbeRecall → Except String RecallAnswer) (salt : String) (topK : Nat) :
    ℚ :=
  let indices := List.range probeSize
  if indices.any fun i => !(encode i (driftText salt i)).isOk then 0
  else
    let hits := indices.countP fun i =>
      driftHit (driftNeedle salt i) (recallNote i ⟨driftNeedle salt i, topK, true⟩)
    hits / probeSize

end BrainEval.Soak
