import Mathlib

set_option autoImplicit false

namespace Agreement

variable {κ : Type} [Fintype κ]

/-- How often one rater's class met the other's. -/
abbrev Table (κ : Type) := Matrix κ κ ℕ

variable (c : Table κ)

def rowTotal (i : κ) : ℕ := ∑ j, c i j

def colTotal (j : κ) : ℕ := ∑ i, c i j

def total : ℕ := ∑ i, rowTotal c i

def agreed : ℕ := ∑ i, c i i

def byChance : ℕ := ∑ i, rowTotal c i * colTotal c i

theorem sum_colTotal : ∑ j, colTotal c j = total c := Finset.sum_comm

theorem cell_le_rowTotal (i j : κ) : c i j ≤ rowTotal c i :=
  Finset.single_le_sum (f := c i) (fun _ _ => Nat.zero_le _) (Finset.mem_univ j)

theorem cell_le_colTotal (i j : κ) : c i j ≤ colTotal c j :=
  Finset.single_le_sum (f := fun i => c i j) (fun _ _ => Nat.zero_le _) (Finset.mem_univ i)

theorem agreed_le_total : agreed c ≤ total c :=
  Finset.sum_le_sum fun i _ => cell_le_rowTotal c i i

section Transpose

@[simp] theorem rowTotal_transpose (i : κ) : rowTotal c.transpose i = colTotal c i := rfl

@[simp] theorem colTotal_transpose (j : κ) : colTotal c.transpose j = rowTotal c j := rfl

@[simp] theorem total_transpose : total c.transpose = total c := sum_colTotal c

@[simp] theorem agreed_transpose : agreed c.transpose = agreed c := rfl

@[simp] theorem byChance_transpose : byChance c.transpose = byChance c := by
  simp [byChance, mul_comm]

end Transpose

section Bump

variable [DecidableEq κ]

def bump (i j : κ) : Table κ := fun i' j' => if i' = i ∧ j' = j then c i' j' + 1 else c i' j'

omit [Fintype κ] in
theorem bump_transpose (i j : κ) : (bump c i j).transpose = bump c.transpose j i := by
  ext i' j'
  simp [bump, and_comm]

omit [Fintype κ] in
theorem bump_eq (i j i' j' : κ) :
    bump c i j i' j' = c i' j' + if i' = i ∧ j' = j then 1 else 0 := by
  unfold bump
  split <;> rfl

theorem total_bump (i j : κ) : total (bump c i j) = total c + 1 := by
  simp only [total, rowTotal, bump_eq, Finset.sum_add_distrib, ite_and]
  simp

theorem agreed_bump (i j : κ) :
    agreed (bump c i j) = agreed c + if i = j then 1 else 0 := by
  simp only [agreed, bump_eq, Finset.sum_add_distrib, ite_and]
  simp [eq_comm]

end Bump

section Kappa

-- The pairs of totals off the diagonal make up what chance falls short of.
theorem byChance_add [DecidableEq κ] :
    byChance c + ∑ i, ∑ j ∈ Finset.univ.erase i, rowTotal c i * colTotal c j = total c ^ 2 := by
  have square : total c ^ 2 = (∑ i, rowTotal c i) * ∑ j, colTotal c j := by
    rw [sum_colTotal, sq]
    rfl
  rw [byChance, ← Finset.sum_add_distrib, square, Finset.sum_mul_sum]
  refine Finset.sum_congr rfl fun i _ => ?_
  exact Finset.add_sum_erase _ (fun j => rowTotal c i * colTotal c j) (Finset.mem_univ i)

theorem byChance_le : byChance c ≤ total c ^ 2 := by
  classical
  rw [← byChance_add]
  exact Nat.le_add_right _ _

-- With no room for disagreement every pair is on the diagonal.
theorem agreed_eq_total_of_byChance (full : byChance c = total c ^ 2) : agreed c = total c := by
  classical
  have rest := byChance_add c
  rw [full, Nat.add_eq_left, Finset.sum_eq_zero_iff] at rest
  have off : ∀ i j, j ≠ i → c i j = 0 := by
    intro i j other
    have pair := Finset.sum_eq_zero_iff.mp (rest i (Finset.mem_univ i)) j (by simp [other])
    rcases Nat.mul_eq_zero.mp pair with row | col
    · exact Nat.le_zero.mp (row ▸ cell_le_rowTotal c i j)
    · exact Nat.le_zero.mp (col ▸ cell_le_colTotal c i j)
  refine Finset.sum_congr rfl fun i _ => ?_
  exact (Finset.sum_eq_single i (fun j _ other => off i j other) (by simp)).symm

/-- Cohen's kappa; one or zero where chance leaves no room for disagreement. -/
def kappa (F : Type) [Field F] [DecidableEq F] (c : Table κ) : F :=
  let observed : F := agreed c / total c
  let chance : F := byChance c / (total c : F) ^ 2
  if 1 - chance = 0 then if observed - 1 = 0 then 1 else 0
  else (observed - chance) / (1 - chance)

@[simp] theorem kappa_transpose (F : Type) [Field F] [DecidableEq F] :
    kappa F c.transpose = kappa F c := by
  simp [kappa]

variable {F : Type} [Field F] [LinearOrder F] [IsStrictOrderedRing F]

theorem observed_eq_one_iff (some : total c ≠ 0) :
    (agreed c / total c : F) = 1 ↔ agreed c = total c := by
  rw [div_eq_one_iff_eq (Nat.cast_ne_zero.mpr some), Nat.cast_inj]

theorem kappa_bounds (some : total c ≠ 0) :
    kappa F c ≤ 1 ∧ (kappa F c = 1 ↔ agreed c = total c) := by
  have long : (0 : F) < total c := Nat.cast_pos.mpr (Nat.pos_of_ne_zero some)
  have observed : (agreed c / total c : F) ≤ 1 :=
    div_le_one_of_le₀ (Nat.cast_le.mpr (agreed_le_total c)) long.le
  have chance : (byChance c / (total c : F) ^ 2) ≤ 1 :=
    div_le_one_of_le₀ (by exact_mod_cast byChance_le c) (by positivity)
  rw [← observed_eq_one_iff (F := F) c some]
  unfold kappa
  dsimp only
  by_cases full : (1 : F) - byChance c / (total c : F) ^ 2 = 0
  next =>
    have all : agreed c = total c := by
      apply agreed_eq_total_of_byChance
      have whole : (byChance c : F) = (total c : F) ^ 2 :=
        ((div_eq_one_iff_eq (pow_pos long 2).ne').mp (sub_eq_zero.mp full).symm)
      exact_mod_cast whole
    have one : (agreed c / total c : F) = 1 := (observed_eq_one_iff c some).mpr all
    rw [if_pos full, one, sub_self, if_pos rfl]
    simp
  next =>
    have room : (0 : F) < 1 - byChance c / (total c : F) ^ 2 :=
      lt_of_le_of_ne (sub_nonneg.mpr chance) (Ne.symm full)
    rw [if_neg full, div_le_one room, div_eq_one_iff_eq room.ne', sub_left_inj]
    exact ⟨sub_le_sub_right observed _, Iff.rfl⟩

end Kappa

end Agreement
