import Mathlib
import BrainEval.Lib.SortBy

set_option autoImplicit false

namespace Ranking

open SortBy

-- `i` counts from zero.
noncomputable def discount (i : ℕ) : ℝ := Real.logb 2 (i + 2)

noncomputable def discountedFrom (start : ℕ) (gains : List ℝ) : ℝ :=
  ((gains.zipIdx start).map fun ranked => ranked.1 / discount ranked.2).sum

@[simp] theorem discountedFrom_nil (start : ℕ) : discountedFrom start [] = 0 := rfl

@[simp] theorem discountedFrom_cons (start : ℕ) (gain : ℝ) (gains : List ℝ) :
    discountedFrom start (gain :: gains) =
      gain / discount start + discountedFrom (start + 1) gains := by
  simp [discountedFrom]

theorem discountedFrom_append_zeros (start zeros : ℕ) (gains : List ℝ) :
    discountedFrom start (gains ++ List.replicate zeros 0) = discountedFrom start gains := by
  induction gains generalizing start with
  | nil =>
    rw [List.nil_append]
    induction zeros generalizing start with
    | zero => rfl
    | succ zeros ih => simpa [List.replicate_succ] using ih (start + 1)
  | cons gain gains ih => simp [ih]

theorem discountedFrom_ones (start ones : ℕ) :
    discountedFrom start (List.replicate ones 1) =
      ((List.range ones).map fun i => 1 / discount (start + i)).sum := by
  induction ones generalizing start with
  | zero => rfl
  | succ ones ih =>
    rw [List.replicate_succ, discountedFrom_cons, ih, List.range_succ_eq_map, List.map_cons,
      List.sum_cons, List.map_map]
    congr 2
    apply List.map_congr_left
    intro i _
    simp [Nat.add_assoc, Nat.add_comm 1 i]

def gain (relevant : Bool) : ℝ := if relevant then 1 else 0

theorem sort_gains (relevance : List Bool) :
    sortByKey OrderDual.toDual (relevance.map gain) =
      List.replicate (relevance.count true) 1 ++ List.replicate (relevance.count false) 0 := by
  apply sortByKey_unique
  · have split : relevance.Perm (List.replicate (relevance.count true) true ++
        List.replicate (relevance.count false) false) := by
      rw [List.perm_replicate_append_replicate (by decide)]
      refine ⟨rfl, rfl, fun b _ => ?_⟩
      cases b <;> simp
    simpa [gain] using split.map gain
  · rw [List.pairwise_append]
    refine ⟨?_, ?_, ?_⟩
    · exact List.pairwise_replicate.mpr (Or.inr (le_refl _))
    · exact List.pairwise_replicate.mpr (Or.inr (le_refl _))
    · intro a one b zero
      rw [List.eq_of_mem_replicate one, List.eq_of_mem_replicate zero]
      exact OrderDual.toDual_le_toDual.mpr zero_le_one
  · intro a _ b _ same
    exact OrderDual.toDual.injective same

-- The best cut at `k` is that many ones as there are relevant items, `k` at most.
theorem discounted_ideal (relevance : List Bool) (k : ℕ) :
    discountedFrom 0 ((sortByKey OrderDual.toDual (relevance.map gain)).take k) =
      discountedFrom 0 (List.replicate (min k (relevance.count true)) 1) := by
  rw [sort_gains, List.take_append, List.take_replicate, List.take_replicate,
    discountedFrom_append_zeros]

end Ranking
