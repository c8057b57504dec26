import Mathlib
import BrainEval.Lib.SortBy

set_option autoImplicit false

namespace OrderStatistic

open SortBy

variable {κ : Type} [LinearOrder κ]

/-- The value of this rank, counted from zero, when the values are sorted. -/
def atRank (xs : List κ) (k : ℕ) : Option κ := (sortByKey id xs)[k]?

variable {xs : List κ} {k : ℕ} {v : κ}

theorem length_sorted (xs : List κ) : (sortByKey id xs).length = xs.length :=
  (sortByKey_perm id xs).length_eq

theorem sorted_perm {ys : List κ} (perm : xs.Perm ys) : sortByKey id xs = sortByKey id ys := by
  apply sortByKey_unique (perm.trans (sortByKey_perm id ys).symm) (sortByKey_pairwise id ys)
  exact fun a _ b _ same => same

-- Before a value of a sorted list stand those at most as large, behind it those at least as large.
theorem atRank_split (found : atRank xs k = some v) :
    ∃ front back, xs.Perm (front ++ v :: back) ∧ front.length = k ∧ (∀ x ∈ front, x ≤ v) ∧
      ∀ x ∈ back, v ≤ x := by
  obtain ⟨inside, rfl⟩ := List.getElem?_eq_some_iff.mp found
  have split : (sortByKey id xs).take k ++ (sortByKey id xs)[k] :: (sortByKey id xs).drop (k + 1) =
      sortByKey id xs := by
    rw [← List.drop_eq_getElem_cons inside, List.take_append_drop]
  have ordered := sortByKey_pairwise id xs
  rw [← split, List.pairwise_append, List.pairwise_cons] at ordered
  obtain ⟨-, ⟨above, -⟩, below⟩ := ordered
  refine ⟨_, _, ?_, ?_, fun x member => below x member _ List.mem_cons_self, above⟩
  · rw [split]
    exact (sortByKey_perm id xs).symm
  · rw [List.length_take]
    exact Nat.min_eq_left inside.le

theorem countP_le_of_lt {w : κ} (less : v < w) : xs.countP (· ≤ v) ≤ xs.countP (· < w) := by
  apply List.countP_mono_left
  simpa using fun x _ (le : x ≤ v) => le.trans_lt less

theorem countP_lt_le (found : atRank xs k = some v) : xs.countP (· < v) ≤ k := by
  obtain ⟨front, back, perm, long, -, above⟩ := atRank_split found
  have none : back.countP (· < v) = 0 :=
    List.countP_eq_zero.mpr fun x member => by simpa using above x member
  rw [perm.countP_eq, List.countP_append, List.countP_cons, none]
  simpa [long] using List.countP_le_length (p := (· < v)) (l := front)

theorem lt_countP_le (found : atRank xs k = some v) : k < xs.countP (· ≤ v) := by
  obtain ⟨front, back, perm, long, below, -⟩ := atRank_split found
  have all : front.countP (· ≤ v) = front.length :=
    List.countP_eq_length.mpr fun x member => by simpa using below x member
  rw [perm.countP_eq, List.countP_append, List.countP_cons, all, long]
  simp

-- The rank of a value, by the values below it and the values it does not exceed.
theorem atRank_eq_some_iff :
    atRank xs k = some v ↔ v ∈ xs ∧ xs.countP (· < v) ≤ k ∧ k < xs.countP (· ≤ v) := by
  constructor
  next =>
    intro found
    have listed : v ∈ xs := mem_sortByKey.mp (List.mem_of_getElem? found)
    exact ⟨listed, countP_lt_le found, lt_countP_le found⟩
  next =>
    rintro ⟨-, below, reached⟩
    have inside : k < (sortByKey id xs).length := by
      rw [length_sorted]
      exact reached.trans_le List.countP_le_length
    obtain ⟨w, found⟩ : ∃ w, atRank xs k = some w := ⟨_, List.getElem?_eq_getElem inside⟩
    have not_above : ¬ v < w := fun above =>
      (reached.trans_le (countP_le_of_lt above)).not_ge (countP_lt_le found)
    have not_below : ¬ w < v := fun less =>
      ((lt_countP_le found).trans_le (countP_le_of_lt less)).not_ge below
    rw [found, le_antisymm (not_lt.mp not_above) (not_lt.mp not_below)]

theorem le_iff_of_atRank (found : atRank xs k = some v) {bound : κ} :
    v ≤ bound ↔ k < xs.countP (· ≤ bound) := by
  constructor
  next =>
    intro within
    apply (lt_countP_le found).trans_le
    apply List.countP_mono_left
    simpa using fun x _ (le : x ≤ v) => le.trans within
  next =>
    intro reached
    by_contra above
    exact (reached.trans_le (countP_le_of_lt (not_le.mp above))).not_ge (countP_lt_le found)

theorem atRank_mono {k' : ℕ} {v' : κ} (le : k ≤ k') (found : atRank xs k = some v)
    (found' : atRank xs k' = some v') : v ≤ v' :=
  (le_iff_of_atRank found).mpr (le.trans_lt (lt_countP_le found'))

-- A value below all others takes the first rank, and every other moves up by one.
theorem sorted_cons {least : κ} (below : ∀ x ∈ xs, least ≤ x) :
    sortByKey id (least :: xs) = least :: sortByKey id xs := by
  apply sortByKey_unique
  · exact (sortByKey_perm id xs).symm.cons least
  · refine List.pairwise_cons.mpr ⟨fun x member => ?_, sortByKey_pairwise id xs⟩
    exact below x (mem_sortByKey.mp member)
  · exact fun a _ b _ same => same

end OrderStatistic
