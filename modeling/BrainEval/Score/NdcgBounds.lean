import Mathlib
import BrainEval.Lib.RankWeight
import BrainEval.Score.NdcgAgreement

set_option autoImplicit false

namespace BrainEval.Retrieval

open Ranking

def InUnit (score : ℝ) : Prop := 0 ≤ score ∧ score ≤ 1

section Ranks

variable (retrieved relevant : List String) (k : Nat)

-- The ranks that gain, and those an ideal order is taken to fill.
def hitRanks : Finset Nat := hits ((retrieved.take k).map fun id => relevant.contains id)

def idealRanks : Finset Nat := Finset.range (min k relevant.length)

theorem dcg_eq_weight :
    ((retrieved.take k).zipIdx.map fun ranked =>
      (if relevant.contains ranked.1 then 1 else 0) / discount ranked.2).sum =
      weight (hitRanks retrieved relevant k) := by
  rw [hitRanks, ← discounted_gains, discountedFrom, List.map_map, List.zipIdx_map, List.map_map]
  rfl

theorem idcg_eq_weight :
    ((List.range (min k relevant.length)).map fun i => 1 / discount i).sum =
      weight (idealRanks relevant k) := rfl

theorem ndcgAtK_eq_weight :
    ndcgAtK retrieved relevant k =
      if relevant.isEmpty then 1
      else if weight (idealRanks relevant k) = 0 then 0
      else weight (hitRanks retrieved relevant k) / weight (idealRanks relevant k) := by
  simp only [ndcgAtK, dcg_eq_weight, idcg_eq_weight]

theorem card_hitRanks :
    (hitRanks retrieved relevant k).card =
      (retrieved.take k).countP fun id => relevant.contains id := by
  rw [hitRanks, card_hits, List.count_eq_countP, List.countP_map]
  congr 1
  funext id
  simp

theorem card_hitRanks_le : (hitRanks retrieved relevant k).card ≤ k := by
  rw [card_hitRanks]
  exact List.countP_le_length.trans (List.length_take_le k retrieved)

theorem hitRanks_of_none (none : relevant = []) : hitRanks retrieved relevant k = ∅ := by
  rw [← Finset.card_eq_zero, card_hitRanks, none]
  simp

theorem ndcgAtK_nonneg : 0 ≤ ndcgAtK retrieved relevant k := by
  rw [ndcgAtK_eq_weight]
  split
  next => exact zero_le_one
  next =>
    split
    next => exact le_refl 0
    next => exact div_nonneg (weight_nonneg _) (weight_nonneg _)

-- Both sums are of the same decreasing weights, over the two sets of ranks.
theorem ndcgAtK_le_one_iff :
    ndcgAtK retrieved relevant k ≤ 1 ↔
      weight (hitRanks retrieved relevant k) ≤ weight (idealRanks relevant k) := by
  rw [ndcgAtK_eq_weight]
  by_cases none : relevant = []
  next =>
    rw [hitRanks_of_none retrieved relevant k none]
    simpa [none, weight] using weight_nonneg (idealRanks [] k)
  next =>
    rw [if_neg (by simpa using none)]
    rcases Nat.eq_zero_or_pos k with rfl | positive
    next => simp [hitRanks, idealRanks, hits_nil, weight]
    next =>
      have some : 0 < min k relevant.length :=
        Nat.lt_min.mpr ⟨positive, List.length_pos_of_ne_nil none⟩
      have ideal : 0 < weight (idealRanks relevant k) := weight_range_pos some
      rw [if_neg ideal.ne', div_le_one ideal]

theorem inUnit_iff :
    InUnit (ndcgAtK retrieved relevant k) ↔
      weight (hitRanks retrieved relevant k) ≤ weight (idealRanks relevant k) :=
  (and_iff_right (ndcgAtK_nonneg retrieved relevant k)).trans
    (ndcgAtK_le_one_iff retrieved relevant k)

theorem inUnit_of_few
    (few : (hitRanks retrieved relevant k).card ≤ relevant.length) :
    InUnit (ndcgAtK retrieved relevant k) := by
  rw [inUnit_iff]
  calc weight (hitRanks retrieved relevant k)
      ≤ weight (Finset.range (hitRanks retrieved relevant k).card) := weight_le_range _
    _ ≤ weight (idealRanks relevant k) :=
      weight_range_le (Nat.le_min.mpr ⟨card_hitRanks_le retrieved relevant k, few⟩)

-- Distinct hits are distinct relevant ids.
theorem inUnit_of_nodup (distinct : (retrieved.take k).Nodup) :
    InUnit (ndcgAtK retrieved relevant k) := by
  apply inUnit_of_few
  rw [card_hitRanks, List.countP_eq_length_filter]
  apply (List.subperm_of_subset (distinct.filter _) _).length_le
  intro id hit
  simpa using (List.mem_filter.mp hit).2

def hitsFirst : List String :=
  (retrieved.take k).filter (relevant.contains ·) ++
    (retrieved.take k).filter fun id => !relevant.contains id

theorem hitsFirst_perm : (hitsFirst retrieved relevant k).Perm (retrieved.take k) :=
  List.filter_append_perm _ _

theorem take_hitsFirst :
    (hitsFirst retrieved relevant k).take k = hitsFirst retrieved relevant k := by
  apply List.take_of_length_le
  rw [(hitsFirst_perm retrieved relevant k).length_eq]
  exact List.length_take_le k retrieved

theorem hitRanks_hitsFirst :
    hitRanks (hitsFirst retrieved relevant k) relevant k =
      Finset.range (hitRanks retrieved relevant k).card := by
  have front : ((retrieved.take k).filter (relevant.contains ·)).map (relevant.contains ·) =
      List.replicate (hitRanks retrieved relevant k).card true := by
    rw [card_hitRanks, List.countP_eq_length_filter, List.eq_replicate_iff]
    simp
  have back : ∃ misses, ((retrieved.take k).filter fun id => !relevant.contains id).map
      (relevant.contains ·) = List.replicate misses false := by
    refine ⟨((retrieved.take k).filter fun id => !relevant.contains id).length, ?_⟩
    rw [List.eq_replicate_iff]
    simp
  obtain ⟨misses, back⟩ := back
  rw [hitRanks, take_hitsFirst, hitsFirst, List.map_append, front, back, hits_front]

theorem inUnit_of_every_order_iff :
    (∀ other : List String, (other.take k).Perm (retrieved.take k) →
        InUnit (ndcgAtK other relevant k)) ↔
      (hitRanks retrieved relevant k).card ≤ relevant.length := by
  constructor
  next =>
    intro every
    by_contra many
    have sorted : ((hitsFirst retrieved relevant k).take k).Perm (retrieved.take k) := by
      rw [take_hitsFirst]
      exact hitsFirst_perm retrieved relevant k
    have bound := (inUnit_iff _ relevant k).mp (every _ sorted)
    rw [hitRanks_hitsFirst] at bound
    have fewer : min k relevant.length < (hitRanks retrieved relevant k).card :=
      lt_of_le_of_lt (min_le_right _ _) (not_le.mp many)
    exact absurd (weight_range_lt fewer) (not_lt.mpr bound)
  next =>
    intro few other same
    apply inUnit_of_few
    rwa [card_hitRanks, same.countP_eq, ← card_hitRanks]

-- The score is normalised exactly when the hits past the ideal ranks weigh no more than the ideal
-- ranks missed; in every order of the same hits, when no more of them hit than are relevant.
theorem ndcg_normalised_iff :
    (InUnit (ndcgAtK retrieved relevant k) ↔
      weight (hitRanks retrieved relevant k \ idealRanks relevant k) ≤
        weight (idealRanks relevant k \ hitRanks retrieved relevant k)) ∧
    ((∀ other : List String, (other.take k).Perm (retrieved.take k) →
        InUnit (ndcgAtK other relevant k)) ↔
      (hitRanks retrieved relevant k).card ≤ relevant.length) :=
  ⟨(inUnit_iff retrieved relevant k).trans (weight_le_iff_sdiff _ _),
    inUnit_of_every_order_iff retrieved relevant k⟩

end Ranks

-- One relevant id, retrieved twice: the ideal order counts it once.
theorem repeated_hit_exceeds_one : 1 < ndcgAtK ["a", "a"] ["a"] 2 := by
  have hit : hitRanks ["a", "a"] ["a"] 2 = Finset.range 2 := by decide
  have ideal : idealRanks ["a"] 2 = Finset.range 1 := rfl
  rw [← not_le, ndcgAtK_le_one_iff, not_le, hit, ideal]
  exact weight_range_lt (by norm_num)

end BrainEval.Retrieval
