import Mathlib

set_option autoImplicit false

namespace Growth

/-- A number format, by what it rounds a rational to. -/
structure Rounding where
  round : ℚ → ℚ
  mono : Monotone round
  idem : ∀ x, round (round x) = round x
  zero : round 0 = 0

namespace Rounding

def exact : Rounding := ⟨id, monotone_id, fun _ => rfl, rfl⟩

variable (ρ : Rounding)

def ofNat (n : ℕ) : ℚ := ρ.round n

def mul (x y : ℚ) : ℚ := ρ.round (x * y)

theorem ofNat_mono {n m : ℕ} (le : n ≤ m) : ρ.ofNat n ≤ ρ.ofNat m :=
  ρ.mono (Nat.cast_le.mpr le)

theorem ofNat_nonneg (n : ℕ) : 0 ≤ ρ.ofNat n := by
  rw [← ρ.zero]
  exact ρ.mono (Nat.cast_nonneg n)

theorem mul_mono {x y factor : ℚ} (nonneg : 0 ≤ factor) (le : x ≤ y) :
    ρ.mul x factor ≤ ρ.mul y factor :=
  ρ.mono (mul_le_mul_of_nonneg_right le nonneg)

-- A rounded number is not lost by a factor of one or more.
theorem ofNat_le_mul (n : ℕ) {factor : ℚ} (grows : 1 ≤ factor) :
    ρ.ofNat n ≤ ρ.mul (ρ.ofNat n) factor := by
  have larger : ρ.ofNat n ≤ ρ.ofNat n * factor := le_mul_of_one_le_right (ρ.ofNat_nonneg n) grows
  calc ρ.ofNat n = ρ.round (ρ.ofNat n) := (ρ.idem n).symm
    _ ≤ ρ.mul (ρ.ofNat n) factor := ρ.mono larger

def Exceeds (factor : ℚ) (n m : ℕ) : Prop := ρ.mul (ρ.ofNat n) factor < ρ.ofNat m

instance (factor : ℚ) (n m : ℕ) : Decidable (ρ.Exceeds factor n m) :=
  inferInstanceAs (Decidable (_ < _))

variable {ρ} {factor : ℚ} {n m n' m' : ℕ}

theorem Exceeds.mono (nonneg : 0 ≤ factor) (exceeds : ρ.Exceeds factor n m) (less : n' ≤ n)
    (more : m ≤ m') : ρ.Exceeds factor n' m' :=
  calc ρ.mul (ρ.ofNat n') factor
      ≤ ρ.mul (ρ.ofNat n) factor := ρ.mul_mono nonneg (ρ.ofNat_mono less)
    _ < ρ.ofNat m := exceeds
    _ ≤ ρ.ofNat m' := ρ.ofNat_mono more

theorem not_exceeds_of_le (grows : 1 ≤ factor) (le : m ≤ n) : ¬ ρ.Exceeds factor n m :=
  not_lt.mpr ((ρ.ofNat_mono le).trans (ρ.ofNat_le_mul n grows))

end Rounding

variable {α : Type} {R : α → α → Prop} {xs : List α}

/-- Some entry and a later one are so related. -/
def Rises (R : α → α → Prop) (xs : List α) : Prop :=
  ∃ (i j : ℕ) (_ : i < j) (_ : j < xs.length), R xs[i] xs[j]

def Falls (R : α → α → Prop) (xs : List α) : Prop := Rises (fun a b => R b a) xs

theorem not_rises_iff : ¬ Rises R xs ↔ xs.Pairwise fun a b => ¬ R a b := by
  rw [List.pairwise_iff_getElem, Rises]
  push Not
  exact ⟨fun none i j _ within before => none i j before within,
    fun none i j before within => none i j (before.trans within) within before⟩

instance [DecidableRel R] : Decidable (Rises R xs) :=
  decidable_of_iff (¬ xs.Pairwise fun a b => ¬ R a b) (by rw [← not_rises_iff, not_not])

instance [DecidableRel R] : Decidable (Falls R xs) :=
  inferInstanceAs (Decidable (Rises _ _))

-- Two entries so related stand in one order or the other.
theorem exists_related_iff (irreflexive : ∀ a, ¬ R a a) :
    (∃ a ∈ xs, ∃ b ∈ xs, R a b) ↔ Rises R xs ∨ Falls R xs := by
  constructor
  next =>
    rintro ⟨a, first, b, second, related⟩
    obtain ⟨i, within, rfl⟩ := List.getElem_of_mem first
    obtain ⟨j, within', rfl⟩ := List.getElem_of_mem second
    rcases Nat.lt_trichotomy i j with before | rfl | after
    · exact Or.inl ⟨i, j, before, within', related⟩
    · exact absurd related (irreflexive _)
    · exact Or.inr ⟨j, i, after, within, related⟩
  next =>
    rintro (⟨i, j, before, within, related⟩ | ⟨i, j, before, within, related⟩)
    · exact ⟨_, List.getElem_mem (before.trans within), _, List.getElem_mem within, related⟩
    · exact ⟨_, List.getElem_mem within, _, List.getElem_mem (before.trans within), related⟩

-- The least and the greatest entry are related when any two are.
theorem extremes_related_iff {xs : List ℕ} {R : ℕ → ℕ → Prop}
    (widens : ∀ {n m n' m'}, R n m → n' ≤ n → m ≤ m' → R n' m') {lo hi : ℕ}
    (least : xs.min? = some lo) (greatest : xs.max? = some hi) :
    R lo hi ↔ ∃ a ∈ xs, ∃ b ∈ xs, R a b := by
  obtain ⟨low, below⟩ := List.min?_eq_some_iff.mp least
  obtain ⟨high, above⟩ := List.max?_eq_some_iff.mp greatest
  constructor
  next => exact fun related => ⟨lo, low, hi, high, related⟩
  next =>
    rintro ⟨a, first, b, second, related⟩
    exact widens related (below a first) (above b second)

end Growth
