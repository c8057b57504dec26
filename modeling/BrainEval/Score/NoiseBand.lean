import Mathlib
import BrainEval.Score.Stats

set_option autoImplicit false

namespace BrainEval.Stats

structure NoiseBand where
  mean : ℝ
  stddev : ℝ
  z : ℝ
  samples : Nat

namespace NoiseBand

variable (band : NoiseBand)

noncomputable def floor : ℝ := band.mean - band.z * band.stddev

noncomputable def ceiling : ℝ := band.mean + band.z * band.stddev

end NoiseBand

-- The standard deviation over `n - 1`, around a mean the caller has.
noncomputable def sampleStddev (xs : List ℝ) (mean : ℝ) : ℝ :=
  if xs.length < 2 then 0
  else
    let ss := (xs.map fun x => (x - mean) ^ 2).sum
    let denom := ((xs.length - 1 : Nat) : ℝ)
    √(ss / denom)

noncomputable def noiseBand (trunkSamples : List ℝ) (z : ℝ) : Option NoiseBand :=
  let n := trunkSamples.length
  if n < 2 then none
  else
    let mean := mean trunkSamples
    let stddev := sampleStddev trunkSamples mean
    some { mean := mean, stddev := stddev, z := z, samples := n }

def regressed (band : NoiseBand) (observed : ℝ) : Prop := observed < band.floor

/-- What the gate does with the runs that its band is made of, and with later ones. -/
structure NoiseBand.Lawful (band : NoiseBand) (trunk : List ℝ) (z : ℝ) : Prop where
  own : (trunk.length : ℝ) - 1 ≤ z * √trunk.length → ∀ x ∈ trunk, ¬regressed band x
  above : 0 ≤ z → ∀ x, Stats.mean trunk ≤ x → ¬regressed band x
  antitone : ∀ x y, x ≤ y → ¬regressed band x → ¬regressed band y

section Deviation

variable {xs : List ℝ}

theorem sampleStddev_nonneg (m : ℝ) : 0 ≤ sampleStddev xs m := by
  unfold sampleStddev
  split
  next => exact le_refl 0
  next => exact Real.sqrt_nonneg _

theorem sampleStddev_sq (enough : 2 ≤ xs.length) (m : ℝ) :
    ((xs.length : ℝ) - 1) * sampleStddev xs m ^ 2 = (xs.map fun x => (x - m) ^ 2).sum := by
  have denom : ((xs.length - 1 : Nat) : ℝ) = xs.length - 1 := by
    rw [Nat.cast_sub (by omega), Nat.cast_one]
  have room : (0 : ℝ) < xs.length - 1 := by
    rw [← denom]
    exact Nat.cast_pos.mpr (by omega)
  have squares : 0 ≤ (xs.map fun x => (x - m) ^ 2).sum :=
    List.sum_nonneg (List.forall_mem_map.mpr fun x _ => sq_nonneg _)
  simp only [sampleStddev, if_neg (Nat.not_lt.mpr enough), denom]
  rw [Real.sq_sqrt (div_nonneg squares room.le), mul_div_cancel₀ _ room.ne']

-- Samuelson's inequality with its square roots taken.
theorem sqrt_length_mul_le (enough : 2 ≤ xs.length) {x : ℝ} (member : x ∈ xs) :
    √xs.length * (mean xs - x) ≤ ((xs.length : ℝ) - 1) * sampleStddev xs (mean xs) := by
  have one_le : (1 : ℝ) ≤ xs.length := by exact_mod_cast (by omega : 1 ≤ xs.length)
  have width : 0 ≤ ((xs.length : ℝ) - 1) * sampleStddev xs (mean xs) :=
    mul_nonneg (sub_nonneg.mpr one_le) (sampleStddev_nonneg _)
  refine le_of_abs_le (abs_le_of_sq_le_sq ?_ width)
  calc (√xs.length * (mean xs - x)) ^ 2
      = xs.length * (x - mean xs) ^ 2 := by
        rw [mul_pow, Real.sq_sqrt (Nat.cast_nonneg _), ← neg_sub, neg_sq]
    _ ≤ ((xs.length : ℝ) - 1) * (xs.map fun y => (y - mean xs) ^ 2).sum := by
        rw [mean_eq]
        exact Mean.sq_sub_mean_le member
    _ = (((xs.length : ℝ) - 1) * sampleStddev xs (mean xs)) ^ 2 := by
        rw [← sampleStddev_sq enough]
        ring

end Deviation

theorem regressed_antitone {band : NoiseBand} {x y : ℝ} (above : x ≤ y)
    (kept : ¬regressed band x) : ¬regressed band y :=
  fun low => kept (lt_of_le_of_lt above low)

theorem floor_le_mean {band : NoiseBand} (wide : 0 ≤ band.z) (spread : 0 ≤ band.stddev) :
    band.floor ≤ band.mean :=
  sub_le_self _ (mul_nonneg wide spread)

theorem noise_band_laws {trunk : List ℝ} (enough : 2 ≤ trunk.length) (z : ℝ) :
    ∃ band, noiseBand trunk z = some band ∧ band.Lawful trunk z := by
  refine ⟨{ mean := mean trunk, stddev := sampleStddev trunk (mean trunk), z := z,
            samples := trunk.length }, if_neg (Nat.not_lt.mpr enough), ?_⟩
  constructor
  · intro wide x member
    have root : 0 < √(trunk.length : ℝ) :=
      Real.sqrt_pos.mpr (Nat.cast_pos.mpr (by omega))
    have deviation : mean trunk - x ≤ z * sampleStddev trunk (mean trunk) := by
      refine le_of_mul_le_mul_left ?_ root
      calc √trunk.length * (mean trunk - x)
          ≤ ((trunk.length : ℝ) - 1) * sampleStddev trunk (mean trunk) :=
            sqrt_length_mul_le enough member
        _ ≤ z * √trunk.length * sampleStddev trunk (mean trunk) :=
            mul_le_mul_of_nonneg_right wide (sampleStddev_nonneg _)
        _ = √trunk.length * (z * sampleStddev trunk (mean trunk)) := by ring
    refine not_lt.mpr ?_
    unfold NoiseBand.floor
    linarith
  · intro wide x above
    exact not_lt.mpr ((floor_le_mean wide (sampleStddev_nonneg _)).trans above)
  · intro x y above
    exact regressed_antitone above

theorem two_runs_in_band :
    ∃ band, noiseBand [0.9, 0.7] 1 = some band ∧ ¬regressed band 0.7 := by
  have wide : ([(0.9 : ℝ), 0.7].length : ℝ) - 1 ≤ 1 * √([(0.9 : ℝ), 0.7].length : ℝ) := by
    rw [one_mul]
    apply Real.le_sqrt_of_sq_le
    norm_num
  obtain ⟨band, built, lawful⟩ := @noise_band_laws [0.9, 0.7] (by simp) 1
  exact ⟨band, built, lawful.own wide _ (by simp)⟩

end BrainEval.Stats
