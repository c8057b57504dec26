import Mathlib
import BrainEval.Lib.Ranking

set_option autoImplicit false

namespace BrainEval.Scale

open SortBy Ranking

def reciprocalRank (rank : Option Nat) : ℚ :=
  match rank with
  | some r => 1 / (r + 1)
  | none => 0

noncomputable def dcgAtK (gains : List ℝ) (k : Nat) : ℝ :=
  ((gains.take k).zipIdx.map fun ranked => ranked.1 / discount ranked.2).sum

noncomputable def ndcgAtK (gains : List ℝ) (k : Nat) : ℝ :=
  let dcg := dcgAtK gains k
  let ideal := sortByKey OrderDual.toDual gains
  let idcg := dcgAtK ideal k
  if idcg = 0 then 0 else dcg / idcg

theorem dcgAtK_eq (gains : List ℝ) (k : Nat) :
    dcgAtK gains k = discountedFrom 0 (gains.take k) := rfl

theorem ndcgAtK_binary (relevance : List Bool) (k : Nat) :
    ndcgAtK (relevance.map gain) k =
      if discountedFrom 0 (List.replicate (min k (relevance.count true)) 1) = 0 then 0
      else discountedFrom 0 ((relevance.take k).map gain) /
        discountedFrom 0 (List.replicate (min k (relevance.count true)) 1) := by
  simp only [ndcgAtK, dcgAtK_eq, discounted_ideal, List.map_take]

theorem ndcgAtK_none_relevant (relevance : List Bool) (k : Nat)
    (none : relevance.count true = 0) : ndcgAtK (relevance.map gain) k = 0 := by
  simp [ndcgAtK_binary, none]

end BrainEval.Scale
