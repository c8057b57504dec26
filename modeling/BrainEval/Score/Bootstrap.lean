import Mathlib
import BrainEval.Lib.Quantile
import BrainEval.Lib.SortBy
import BrainEval.Score.Stats

set_option autoImplicit false

namespace BrainEval.Stats

structure ConfidenceInterval where
  point : ℚ
  lower : ℚ
  upper : ℚ
  level : ℚ
  resamples : Nat
  deriving DecidableEq

-- An index past the end of a slice panics.
structure IndexPanic where
  len : Nat
  index : Nat
  deriving DecidableEq

def index (xs : List ℚ) (i : Nat) : Except IndexPanic ℚ :=
  match xs[i]? with
  | some x => .ok x
  | none => .error { len := xs.length, index := i }

structure SplitMix64 where
  state : UInt64
  deriving DecidableEq

def SplitMix64.nextU64 (rng : SplitMix64) : UInt64 × SplitMix64 :=
  let state := rng.state + 0x9e3779b97f4a7c15
  let z := (state ^^^ (state >>> 30)) * 0xbf58476d1ce4e5b9
  let z := (z ^^^ (z >>> 27)) * 0x94d049bb133111eb
  (z ^^^ (z >>> 31), { state := state })

-- A cast to an index saturates below at zero.
def percentileSorted (sorted : List ℚ) (q : ℚ) : Except IndexPanic ℚ :=
  if sorted.isEmpty then .ok 0
  else if sorted.length = 1 then index sorted 0
  else
    let q := max 0 (min q 1)
    let pos := q * ((sorted.length - 1 : Nat) : ℚ)
    let lo := ⌊pos⌋
    let hi := ⌈pos⌉
    let loI := lo.toNat
    let hiI := hi.toNat
    if loI = hiI then index sorted loI
    else do
      let frac := pos - lo
      let below ← index sorted loI
      let above ← index sorted hiI
      return below * (1 - frac) + above * frac

-- The inner loop: the sum of `k` draws with replacement.
def drawSum (sample : List ℚ) : Nat → SplitMix64 → ℚ → Except IndexPanic (ℚ × SplitMix64)
  | 0, rng, acc => .ok (acc, rng)
  | k + 1, rng, acc => do
    let bits := rng.nextU64
    let x ← index sample (bits.1.toNat % sample.length)
    drawSum sample k bits.2 (acc + x)

def resampleMeans (sample : List ℚ) :
    Nat → SplitMix64 → List ℚ → Except IndexPanic (List ℚ)
  | 0, _, means => .ok means
  | k + 1, rng, means => do
    let (acc, rng) ← drawSum sample sample.length rng 0
    resampleMeans sample k rng (means ++ [acc / sample.length])

def bootstrapCiWith (sample : List ℚ) (level : ℚ) (resamples : Nat) (seed : UInt64) :
    Except IndexPanic (Option ConfidenceInterval) :=
  if sample.isEmpty ∨ resamples = 0 ∨ ¬(0 ≤ level ∧ level < 1) then .ok none
  else
    let n := sample.length
    let point := mean sample
    if n = 1 then
      .ok (some
        { point := point, lower := point, upper := point, level := level, resamples := resamples })
    else do
      let means ← resampleMeans sample resamples { state := seed } []
      let means := SortBy.sortByKey id means
      let tail := (1 - level) / 2
      let lower ← percentileSorted means tail
      let upper ← percentileSorted means (1 - tail)
      return some
        { point := point, lower := lower, upper := upper, level := level, resamples := resamples }

/-- The interval and its point lie inside the sample. -/
structure ConfidenceInterval.Within (ci : ConfidenceInterval) (lo hi : ℚ) : Prop where
  lower_ge : lo ≤ ci.lower
  lower_le : ci.lower ≤ ci.upper
  upper_le : ci.upper ≤ hi
  point_ge : lo ≤ ci.point
  point_le : ci.point ≤ hi

def ConfidenceInterval.Contains (outer inner : ConfidenceInterval) : Prop :=
  outer.lower ≤ inner.lower ∧ inner.upper ≤ outer.upper

section Resample

variable {sample : List ℚ} {lo hi : ℚ}

theorem index_ok {xs : List ℚ} {i : Nat} (inside : i < xs.length) :
    index xs i = .ok (xs.getD i 0) := by
  simp only [index, List.getElem?_eq_getElem inside, List.getD_eq_getElem _ _ inside]

variable (filled : sample ≠ []) (within : ∀ x ∈ sample, lo ≤ x ∧ x ≤ hi)

include filled within

-- A draw is taken modulo the length, so it is one of the sample's values.
theorem drawSum_bounds (k : Nat) (rng : SplitMix64) (acc : ℚ) :
    ∃ sum rng', drawSum sample k rng acc = .ok (sum, rng') ∧
      acc + k * lo ≤ sum ∧ sum ≤ acc + k * hi := by
  induction k generalizing rng acc with
  | zero => exact ⟨acc, rng, rfl, by simp, by simp⟩
  | succ k ih =>
    have inside : rng.nextU64.1.toNat % sample.length < sample.length :=
      Nat.mod_lt _ (List.length_pos_iff.mpr filled)
    have member : sample.getD (rng.nextU64.1.toNat % sample.length) 0 ∈ sample := by
      rw [List.getD_eq_getElem _ _ inside]
      exact List.getElem_mem inside
    obtain ⟨sum, rng', drawn, above, below⟩ :=
      ih rng.nextU64.2 (acc + sample.getD (rng.nextU64.1.toNat % sample.length) 0)
    obtain ⟨least, most⟩ := within _ member
    refine ⟨sum, rng', ?_, ?_, ?_⟩
    · rw [drawSum, index_ok inside]
      exact drawn
    · push_cast
      linarith
    · push_cast
      linarith

theorem resampleMeans_bounds (k : Nat) (rng : SplitMix64) (means : List ℚ)
    (before : ∀ x ∈ means, lo ≤ x ∧ x ≤ hi) :
    ∃ all, resampleMeans sample k rng means = .ok all ∧ all.length = means.length + k ∧
      ∀ x ∈ all, lo ≤ x ∧ x ≤ hi := by
  induction k generalizing rng means with
  | zero => exact ⟨means, rfl, rfl, before⟩
  | succ k ih =>
    obtain ⟨sum, rng', drawn, above, below⟩ := drawSum_bounds filled within sample.length rng 0
    have long : (0 : ℚ) < sample.length := Nat.cast_pos.mpr (List.length_pos_iff.mpr filled)
    have one : lo ≤ sum / sample.length ∧ sum / sample.length ≤ hi := by
      rw [le_div_iff₀ long, div_le_iff₀ long]
      constructor <;> linarith
    obtain ⟨all, rest, counted, inside⟩ := ih rng' (means ++ [sum / sample.length]) (by
      intro x member
      rcases List.mem_append.mp member with old | new
      · exact before x old
      · exact List.mem_singleton.mp new ▸ one)
    refine ⟨all, ?_, ?_, inside⟩
    · rw [← rest, resampleMeans, drawn]
      rfl
    · rw [counted, List.length_append, List.length_singleton]
      omega

end Resample

section Percentile

def quantileOf (sorted : List ℚ) (q : ℚ) : ℚ :=
  Quantile.interpolate (fun i => sorted.getD i 0) (q * ((sorted.length - 1 : Nat) : ℚ))

variable {sorted : List ℚ} {q q' : ℚ}

theorem position_nonneg (nonneg : 0 ≤ q) : 0 ≤ q * ((sorted.length - 1 : Nat) : ℚ) :=
  mul_nonneg nonneg (Nat.cast_nonneg _)

theorem position_le (le_one : q ≤ 1) :
    q * ((sorted.length - 1 : Nat) : ℚ) ≤ ((sorted.length - 1 : Nat) : ℚ) :=
  mul_le_of_le_one_left (Nat.cast_nonneg _) le_one

-- Both neighbours of the position are indices of the list.
theorem percentileSorted_eq (filled : sorted ≠ []) (nonneg : 0 ≤ q) (le_one : q ≤ 1) :
    percentileSorted sorted q = .ok (quantileOf sorted q) := by
  have long : 0 < sorted.length := List.length_pos_iff.mpr filled
  have empty : sorted.isEmpty = false := List.isEmpty_eq_false_iff.mpr filled
  have clamped : max 0 (min q 1) = q := by rw [min_eq_left le_one, max_eq_right nonneg]
  unfold percentileSorted quantileOf
  simp only [empty, Bool.false_eq_true, if_false, clamped]
  have pos_nonneg : 0 ≤ q * ((sorted.length - 1 : Nat) : ℚ) := position_nonneg nonneg
  have last : q * ((sorted.length - 1 : Nat) : ℚ) ≤ _ := position_le le_one
  set pos := q * ((sorted.length - 1 : Nat) : ℚ) with pos_eq
  have top : ⌈pos⌉₊ < sorted.length := by
    have := Nat.ceil_le.mpr last
    omega
  have bottom : ⌊pos⌋₊ < sorted.length := (Nat.floor_le_ceil pos).trans_lt top
  have frac : pos - (⌊pos⌋ : ℚ) = pos - (⌊pos⌋₊ : ℚ) := by
    rw [natCast_floor_eq_intCast_floor pos_nonneg]
  rw [Int.floor_toNat, Int.ceil_toNat, frac]
  split
  next single =>
    have start : pos = (0 : Nat) := by
      rw [pos_eq, single]
      simp
    rw [start, Quantile.interpolate_natCast, index_ok long]
  next =>
    split
    next same =>
      have whole : pos = (⌊pos⌋₊ : Nat) := by
        apply le_antisymm _ (Nat.floor_le pos_nonneg)
        rw [same]
        exact Nat.le_ceil pos
      rw [index_ok bottom]
      nth_rewrite 2 [whole]
      rw [Quantile.interpolate_natCast]
    next =>
      rw [index_ok bottom, index_ok top]
      rfl

variable (ordered : sorted.Pairwise (· ≤ ·))

include ordered

theorem quantileOf_mono (nonneg : 0 ≤ q) (le : q ≤ q') (le_one : q' ≤ 1) :
    quantileOf sorted q ≤ quantileOf sorted q' :=
  Quantile.interpolate_mono (Quantile.monotoneOn_getD ordered 0) (position_nonneg nonneg)
    (mul_le_mul_of_nonneg_right le (Nat.cast_nonneg _)) (position_le le_one)

theorem quantileOf_bounds (filled : sorted ≠ []) {lo hi : ℚ}
    (within : ∀ x ∈ sorted, lo ≤ x ∧ x ≤ hi) (nonneg : 0 ≤ q) (le_one : q ≤ 1) :
    lo ≤ quantileOf sorted q ∧ quantileOf sorted q ≤ hi := by
  have long : 0 < sorted.length := List.length_pos_iff.mpr filled
  have values : ∀ i ≤ sorted.length - 1, lo ≤ sorted.getD i 0 ∧ sorted.getD i 0 ≤ hi := by
    intro i inside
    rw [List.getD_eq_getElem _ _ (by omega)]
    exact within _ (List.getElem_mem _)
  have mono := Quantile.monotoneOn_getD ordered 0
  constructor
  · exact Quantile.le_interpolate mono (position_nonneg nonneg) (position_le le_one)
      fun i inside => (values i inside).1
  · exact Quantile.interpolate_le mono (position_nonneg nonneg) (position_le le_one)
      fun i inside => (values i inside).2

end Percentile

section Interval

variable {sample : List ℚ} {resamples : Nat} {level level' lo hi : ℚ}

theorem tail_bounds (nonneg : 0 ≤ level) (below : level < 1) :
    0 ≤ (1 - level) / 2 ∧ (1 - level) / 2 ≤ 1 - (1 - level) / 2 ∧ 1 - (1 - level) / 2 ≤ 1 := by
  refine ⟨?_, ?_, ?_⟩ <;> linarith

theorem level_accepted (filled : sample ≠ []) (positive : 1 ≤ resamples) (nonneg : 0 ≤ level)
    (below : level < 1) :
    ¬(sample.isEmpty ∨ resamples = 0 ∨ ¬(0 ≤ level ∧ level < 1)) := by
  simp [filled, nonneg, below]
  omega

theorem quantileOf_singleton (x q : ℚ) : quantileOf [x] q = x := by
  have start : q * (([x].length - 1 : Nat) : ℚ) = (0 : Nat) := by simp
  rw [quantileOf, start, Quantile.interpolate_natCast]
  rfl

-- The resampled means are the same at every level, and the level only picks the quantiles.
theorem bootstrapCiWith_eq (filled : sample ≠ []) (positive : 1 ≤ resamples) (seed : UInt64)
    (within : ∀ x ∈ sample, lo ≤ x ∧ x ≤ hi) :
    ∃ means : List ℚ, means ≠ [] ∧ means.Pairwise (· ≤ ·) ∧ (∀ x ∈ means, lo ≤ x ∧ x ≤ hi) ∧
      ∀ level, 0 ≤ level → level < 1 →
        bootstrapCiWith sample level resamples seed = .ok (some
          { point := mean sample
            lower := quantileOf means ((1 - level) / 2)
            upper := quantileOf means (1 - (1 - level) / 2)
            level := level
            resamples := resamples }) := by
  by_cases single : sample.length = 1
  next =>
    obtain ⟨x, rfl⟩ := List.length_eq_one_iff.mp single
    refine ⟨[x], by simp, by simp, within, fun level nonneg below => ?_⟩
    have centre : mean [x] = x := by simp [mean]
    rw [bootstrapCiWith, if_neg (level_accepted filled positive nonneg below), if_pos single,
      quantileOf_singleton, quantileOf_singleton, centre]
  next =>
    obtain ⟨all, computed, counted, inside⟩ :=
      resampleMeans_bounds filled within resamples { state := seed } [] (by simp)
    have perm := SortBy.sortByKey_perm id all
    have nonempty : SortBy.sortByKey id all ≠ [] := by
      rw [← List.length_pos_iff, perm.length_eq, counted]
      omega
    refine ⟨SortBy.sortByKey id all, nonempty, SortBy.sortByKey_pairwise id all,
      fun x member => inside x (perm.mem_iff.mp member), fun level nonneg below => ?_⟩
    obtain ⟨tail_nonneg, tail_le, tail_le_one⟩ := tail_bounds nonneg below
    rw [bootstrapCiWith, if_neg (level_accepted filled positive nonneg below), if_neg single,
      computed]
    have lower := percentileSorted_eq nonempty tail_nonneg (tail_le.trans tail_le_one)
    have upper := percentileSorted_eq nonempty (tail_nonneg.trans tail_le) tail_le_one
    simp only [bind, Except.bind, lower, upper]
    rfl

theorem bootstrap_interval_laws (filled : sample ≠ []) (positive : 1 ≤ resamples) (seed : UInt64)
    (nonneg : 0 ≤ level) (below : level < 1) :
    ∃ ci, bootstrapCiWith sample level resamples seed = .ok (some ci) ∧
      ci.Within (sample.min filled) (sample.max filled) ∧
      ∀ level', level ≤ level' → level' < 1 →
        ∃ ci', bootstrapCiWith sample level' resamples seed = .ok (some ci') ∧
          ci'.Contains ci := by
  have within : ∀ x ∈ sample, sample.min filled ≤ x ∧ x ≤ sample.max filled :=
    fun x member => ⟨List.min_le_of_mem member, List.le_max_of_mem member⟩
  obtain ⟨means, nonempty, ordered, inside, computed⟩ :=
    bootstrapCiWith_eq filled positive seed within
  obtain ⟨tail_nonneg, tail_le, tail_le_one⟩ := tail_bounds nonneg below
  refine ⟨_, computed level nonneg below, ?_, fun level' higher below' => ?_⟩
  · constructor
    · exact (quantileOf_bounds ordered nonempty inside tail_nonneg (tail_le.trans tail_le_one)).1
    · exact quantileOf_mono ordered tail_nonneg tail_le tail_le_one
    · exact (quantileOf_bounds ordered nonempty inside (tail_nonneg.trans tail_le) tail_le_one).2
    · rw [mean_eq]
      exact Mean.le_mean filled fun x member => (within x member).1
    · rw [mean_eq]
      exact Mean.mean_le filled fun x member => (within x member).2
  · obtain ⟨tail_nonneg', tail_le', tail_le_one'⟩ := tail_bounds (nonneg.trans higher) below'
    refine ⟨_, computed level' (nonneg.trans higher) below', ?_, ?_⟩
    · exact quantileOf_mono ordered tail_nonneg' (by linarith) (tail_le.trans tail_le_one)
    · exact quantileOf_mono ordered (tail_nonneg.trans tail_le) (by linarith) tail_le_one'

end Interval

theorem three_scores_interval :
    ∃ ci, bootstrapCiWith [0, 1 / 2, 1] (1 / 2) 5 7 = .ok (some ci) ∧ ci.upper = 1 / 2 ∧
      ci.Within 0 1 ∧
      ∃ ci', bootstrapCiWith [0, 1 / 2, 1] (4 / 5) 5 7 = .ok (some ci') ∧ ci'.Contains ci := by
  have least : [0, 1 / 2, (1 : ℚ)].min (List.cons_ne_nil _ _) = 0 := by decide +kernel
  have most : [0, 1 / 2, (1 : ℚ)].max (List.cons_ne_nil _ _) = 1 := by decide +kernel
  obtain ⟨ci, computed, within, nested⟩ :=
    @bootstrap_interval_laws [0, 1 / 2, 1] 5 (1 / 2) (List.cons_ne_nil _ _) (by norm_num) 7
      (by norm_num) (by norm_num)
  rw [least, most] at within
  have upper : ((bootstrapCiWith [0, 1 / 2, 1] (1 / 2) 5 7).toOption.bind fun ci =>
      ci.map (·.upper)) = some (1 / 2) := by decide +kernel
  rw [computed] at upper
  exact ⟨ci, computed, Option.some_inj.mp upper, within, nested (4 / 5) (by norm_num) (by norm_num)⟩

end BrainEval.Stats
