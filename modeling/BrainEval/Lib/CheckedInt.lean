import Mathlib

set_option autoImplicit false

namespace CheckedInt

-- The values of a signed word of 64 bits.
def InRange (n : ℤ) : Prop := -2 ^ 63 ≤ n ∧ n < 2 ^ 63

instance (n : ℤ) : Decidable (InRange n) := inferInstanceAs (Decidable (_ ∧ _))

def narrow (n : ℤ) : Option Int64 := if InRange n then some (Int64.ofInt n) else none

def checkedAdd (a b : Int64) : Option Int64 := narrow (a.toInt + b.toInt)

def checkedSub (a b : Int64) : Option Int64 := narrow (a.toInt - b.toInt)

theorem toInt_inRange (a : Int64) : InRange a.toInt := ⟨a.le_toInt, a.toInt_lt⟩

theorem bmod_of_fits {n : ℤ} (low : -2 ^ 63 ≤ n) (high : n < 2 ^ 63) : n.bmod (2 ^ 64) = n := by
  apply Int.bmod_eq_of_le <;> omega

theorem bmod_eq {n : ℤ} (fits : InRange n) : n.bmod (2 ^ 64) = n := bmod_of_fits fits.1 fits.2

-- What wrapping a number leaves unchanged is what it has modulo the word.
theorem bmod_eq_iff {n k : ℤ} (fits : InRange k) : n.bmod (2 ^ 64) = k ↔ (2 ^ 64 : ℤ) ∣ n - k := by
  unfold InRange at fits
  rw [Int.bmod_def]
  push_cast
  split <;> omega

variable {a b : Int64}

theorem toInt_add (fits : InRange (a.toInt + b.toInt)) : (a + b).toInt = a.toInt + b.toInt := by
  rw [Int64.toInt_add, bmod_eq fits]

theorem toInt_sub (fits : InRange (a.toInt - b.toInt)) : (a - b).toInt = a.toInt - b.toInt := by
  rw [Int64.toInt_sub, bmod_eq fits]

theorem toInt_mul (fits : InRange (a.toInt * b.toInt)) : (a * b).toInt = a.toInt * b.toInt := by
  rw [Int64.toInt_mul, bmod_eq fits]

theorem toInt_div (positive : 0 < b.toInt) :
    (a / b).toInt =
      if 0 ≤ a.toInt then a.toInt / b.toInt else -((-a.toInt) / b.toInt) := by
  have other : b ≠ -1 := by
    rintro rfl
    exact absurd positive (by decide)
  rw [Int64.toInt_div_of_ne_right a b other]
  split
  next nonneg => exact Int.tdiv_eq_ediv_of_nonneg nonneg
  next negative =>
    rw [← Int.tdiv_eq_ediv_of_nonneg (by omega), Int.neg_tdiv, neg_neg]

theorem toInt_div_of_nonneg (nonneg : 0 ≤ a.toInt) (positive : 0 < b.toInt) :
    (a / b).toInt = a.toInt / b.toInt := by
  rw [toInt_div positive, if_pos nonneg]

theorem narrow_toInt (a : Int64) : narrow a.toInt = some a := by
  rw [narrow, if_pos (toInt_inRange a), Int64.ofInt_toInt]

theorem narrow_none {n : ℤ} (outside : ¬InRange n) : narrow n = none := if_neg outside

theorem checkedAdd_eq (exact : (a + b).toInt = a.toInt + b.toInt) :
    checkedAdd a b = some (a + b) := by
  rw [checkedAdd, ← exact, narrow_toInt]

theorem checkedSub_eq (exact : (a - b).toInt = a.toInt - b.toInt) :
    checkedSub a b = some (a - b) := by
  rw [checkedSub, ← exact, narrow_toInt]

theorem checkedAdd_ite (a b : Int64) :
    checkedAdd a b = if InRange (a.toInt + b.toInt) then some (a + b) else none := by
  rw [checkedAdd, narrow, Int64.ofInt_add, Int64.ofInt_toInt, Int64.ofInt_toInt]

theorem checkedSub_ite (a b : Int64) :
    checkedSub a b = if InRange (a.toInt - b.toInt) then some (a - b) else none := by
  rw [checkedSub, narrow, Int64.ofInt_sub, Int64.ofInt_toInt, Int64.ofInt_toInt]

end CheckedInt
