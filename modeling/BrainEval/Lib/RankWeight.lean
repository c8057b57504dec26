import Mathlib
import BrainEval.Lib.Ranking

set_option autoImplicit false

namespace Ranking

theorem discount_zero : discount 0 = 1 := by
  rw [discount, Nat.cast_zero, zero_add, Real.logb_self_eq_one (by norm_num)]

theorem discount_strictMono : StrictMono discount := by
  intro i j less
  apply Real.logb_lt_logb (by norm_num) (by positivity)
  have cast : (i : ℝ) < j := by exact_mod_cast less
  linarith

theorem one_le_discount (i : ℕ) : 1 ≤ discount i := by
  rw [← discount_zero]
  exact discount_strictMono.monotone (Nat.zero_le i)

theorem discount_le (i : ℕ) : discount i ≤ i + 1 := by
  have power : (i : ℝ) + 2 ≤ 2 ^ (i + 1) := by
    have below : i + 2 ≤ 2 ^ (i + 1) := Nat.lt_two_pow_self
    exact_mod_cast below
  calc discount i ≤ Real.logb 2 (2 ^ (i + 1)) :=
        Real.logb_le_logb_of_le (by norm_num) (by positivity) power
    _ = i + 1 := by
      rw [Real.logb_pow, Real.logb_self_eq_one (by norm_num), mul_one, Nat.cast_add, Nat.cast_one]

theorem discount_pos (i : ℕ) : 0 < discount i := lt_of_lt_of_le one_pos (one_le_discount i)

noncomputable def weight (ranks : Finset ℕ) : ℝ := ranks.sum fun i => 1 / discount i

theorem weight_nonneg (ranks : Finset ℕ) : 0 ≤ weight ranks :=
  Finset.sum_nonneg fun i _ => div_nonneg zero_le_one (discount_pos i).le

theorem weight_le_iff_sdiff (ranks others : Finset ℕ) :
    weight ranks ≤ weight others ↔ weight (ranks \ others) ≤ weight (others \ ranks) :=
  Finset.sum_sdiff_le_sum_sdiff.symm

theorem weight_range_le {n m : ℕ} (le : n ≤ m) :
    weight (Finset.range n) ≤ weight (Finset.range m) :=
  Finset.sum_le_sum_of_subset_of_nonneg (Finset.range_subset_range.mpr le) fun i _ _ =>
    div_nonneg zero_le_one (discount_pos i).le

theorem weight_range_lt {n m : ℕ} (less : n < m) :
    weight (Finset.range n) < weight (Finset.range m) := by
  have step : weight (Finset.range (n + 1)) = weight (Finset.range n) + 1 / discount n :=
    Finset.sum_range_succ _ n
  have gained : 0 < 1 / discount n := one_div_pos.mpr (discount_pos n)
  have rest := weight_range_le (Nat.succ_le_of_lt less)
  rw [Nat.succ_eq_add_one, step] at rest
  linarith

theorem weight_range_pos {n : ℕ} (pos : 0 < n) : 0 < weight (Finset.range n) := by
  simpa [weight] using weight_range_lt pos

-- Every rank past the first `n` weighs at most what any of those does.
theorem weight_le_range (ranks : Finset ℕ) :
    weight ranks ≤ weight (Finset.range ranks.card) := by
  rw [weight_le_iff_sdiff]
  have late : ∀ i ∈ ranks \ Finset.range ranks.card, 1 / discount i ≤ 1 / discount ranks.card := by
    intro i member
    have past : ranks.card ≤ i := by simpa using (Finset.mem_sdiff.mp member).2
    exact one_div_le_one_div_of_le (discount_pos _) (discount_strictMono.monotone past)
  have early : ∀ i ∈ Finset.range ranks.card \ ranks, 1 / discount ranks.card ≤ 1 / discount i := by
    intro i member
    have before : i < ranks.card := by simpa using (Finset.mem_sdiff.mp member).1
    exact one_div_le_one_div_of_le (discount_pos _) (discount_strictMono before).le
  have sizes : (ranks \ Finset.range ranks.card).card = (Finset.range ranks.card \ ranks).card :=
    Finset.card_sdiff_comm (Finset.card_range _).symm
  calc weight (ranks \ Finset.range ranks.card)
      ≤ (ranks \ Finset.range ranks.card).card • (1 / discount ranks.card) :=
        Finset.sum_le_card_nsmul _ _ _ late
    _ = (Finset.range ranks.card \ ranks).card • (1 / discount ranks.card) := by rw [sizes]
    _ ≤ weight (Finset.range ranks.card \ ranks) := Finset.card_nsmul_le_sum _ _ _ early

def hits (relevance : List Bool) : Finset ℕ :=
  (Finset.range relevance.length).filter fun i => relevance[i]? = some true

theorem hits_nil : hits [] = ∅ := rfl

theorem hits_cons (b : Bool) (relevance : List Bool) :
    hits (b :: relevance) =
      (if b then {0} else ∅) ∪ (hits relevance).map (addRightEmbedding 1) := by
  ext i
  cases i with
  | zero => cases b <;> simp [hits]
  | succ i => cases b <;> simp [hits]

theorem disjoint_hits_cons (b : Bool) (relevance : List Bool) :
    Disjoint (if b then {0} else ∅ : Finset ℕ) ((hits relevance).map (addRightEmbedding 1)) := by
  cases b <;> simp [Finset.disjoint_left]

theorem card_hits (relevance : List Bool) : (hits relevance).card = relevance.count true := by
  induction relevance with
  | nil => rfl
  | cons b relevance ih =>
    rw [hits_cons, Finset.card_union_of_disjoint (disjoint_hits_cons b relevance),
      Finset.card_map, ih]
    cases b <;> simp [Nat.add_comm]

theorem hits_of_single {relevance : List Bool} (single : relevance.count true ≤ 1) {r : ℕ}
    (found : relevance[r]? = some true) : hits relevance = {r} := by
  have member : r ∈ hits relevance := by
    rw [hits, Finset.mem_filter, Finset.mem_range]
    exact ⟨(List.getElem?_eq_some_iff.mp found).1, found⟩
  rw [← card_hits, Finset.card_le_one] at single
  exact Finset.eq_singleton_iff_unique_mem.mpr ⟨member, fun i other => single i other r member⟩

theorem discountedFrom_gains (start : ℕ) (relevance : List Bool) :
    discountedFrom start (relevance.map gain) =
      (hits relevance).sum fun i => 1 / discount (start + i) := by
  induction relevance generalizing start with
  | nil => rfl
  | cons b relevance ih =>
    rw [List.map_cons, discountedFrom_cons, ih, hits_cons,
      Finset.sum_union (disjoint_hits_cons b relevance), Finset.sum_map]
    congr 1
    · cases b <;> simp [gain]
    · apply Finset.sum_congr rfl
      intro i _
      simp [Nat.add_assoc, Nat.add_comm 1]

theorem discounted_gains (relevance : List Bool) :
    discountedFrom 0 (relevance.map gain) = weight (hits relevance) := by
  simp [discountedFrom_gains, weight]

theorem hits_front (ones zeros : ℕ) :
    hits (List.replicate ones true ++ List.replicate zeros false) = Finset.range ones := by
  ext i
  rw [hits, Finset.mem_filter, Finset.mem_range, Finset.mem_range, List.length_append,
    List.length_replicate, List.length_replicate, List.getElem?_append, List.length_replicate]
  by_cases front : i < ones
  next => simp [front, Nat.lt_add_right]
  next => simp [front, List.getElem?_replicate]

end Ranking
