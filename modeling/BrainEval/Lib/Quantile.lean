import Mathlib

set_option autoImplicit false

namespace Quantile

variable {F : Type} [Field F] [LinearOrder F] [IsStrictOrderedRing F] [FloorSemiring F]

/-- The values of a sequence, joined by straight lines. -/
def interpolate (f : ℕ → F) (pos : F) : F :=
  f ⌊pos⌋₊ * (1 - (pos - ⌊pos⌋₊)) + f ⌈pos⌉₊ * (pos - ⌊pos⌋₊)

variable {f : ℕ → F} {m : ℕ} {pos pos' : F}

theorem interpolate_natCast (f : ℕ → F) (k : ℕ) : interpolate f (k : F) = f k := by
  simp [interpolate]

omit [IsStrictOrderedRing F] in
theorem ceil_eq_of_floor_lt (between : (⌊pos⌋₊ : F) < pos) : ⌈pos⌉₊ = ⌊pos⌋₊ + 1 := by
  apply le_antisymm
  · exact Nat.ceil_le_floor_add_one pos
  · exact Nat.lt_ceil.mpr between

-- On an integer both neighbours are the same and the slope does not matter.
omit [IsStrictOrderedRing F] in
theorem interpolate_eq (nonneg : 0 ≤ pos) :
    interpolate f pos =
      f ⌊pos⌋₊ + (pos - ⌊pos⌋₊) * (f (⌊pos⌋₊ + 1) - f ⌊pos⌋₊) := by
  rcases (Nat.floor_le nonneg).eq_or_lt with whole | between
  next =>
    have flat : pos - ⌊pos⌋₊ = 0 := sub_eq_zero.mpr whole.symm
    simp only [interpolate, flat]
    ring
  next =>
    rw [interpolate, ceil_eq_of_floor_lt between]
    ring

section Monotone

variable (mono : MonotoneOn f (Set.Iic m)) (nonneg : 0 ≤ pos) (last : pos ≤ m)

include mono nonneg last

theorem interpolate_between :
    f ⌊pos⌋₊ ≤ interpolate f pos ∧ interpolate f pos ≤ f ⌈pos⌉₊ := by
  have top : ⌈pos⌉₊ ≤ m := Nat.ceil_le.mpr last
  have rise : f ⌊pos⌋₊ ≤ f ⌈pos⌉₊ :=
    mono ((Nat.floor_le_ceil pos).trans top) top (Nat.floor_le_ceil pos)
  have frac_nonneg : 0 ≤ pos - ⌊pos⌋₊ := sub_nonneg.mpr (Nat.floor_le nonneg)
  have frac_le : pos - ⌊pos⌋₊ ≤ 1 := by linarith [Nat.lt_floor_add_one pos]
  unfold interpolate
  constructor <;> nlinarith

theorem le_interpolate {lo : F} (above : ∀ i ≤ m, lo ≤ f i) : lo ≤ interpolate f pos := by
  have floor : ⌊pos⌋₊ ≤ m := (Nat.floor_le_ceil pos).trans (Nat.ceil_le.mpr last)
  exact (above _ floor).trans (interpolate_between mono nonneg last).1

theorem interpolate_le {hi : F} (below : ∀ i ≤ m, f i ≤ hi) : interpolate f pos ≤ hi :=
  (interpolate_between mono nonneg last).2.trans (below _ (Nat.ceil_le.mpr last))

end Monotone

theorem interpolate_mono (mono : MonotoneOn f (Set.Iic m)) (nonneg : 0 ≤ pos) (le : pos ≤ pos')
    (last : pos' ≤ m) : interpolate f pos ≤ interpolate f pos' := by
  have nonneg' : 0 ≤ pos' := nonneg.trans le
  have floor' : ⌊pos'⌋₊ ≤ m := (Nat.floor_le_ceil pos').trans (Nat.ceil_le.mpr last)
  rcases (Nat.floor_le_floor le).eq_or_lt with same | before
  next =>
    rcases (Nat.floor_le nonneg).eq_or_lt with whole | between
    next =>
      calc interpolate f pos = f ⌊pos⌋₊ := by rw [← whole, interpolate_natCast, Nat.floor_natCast]
        _ = f ⌊pos'⌋₊ := by rw [same]
        _ ≤ interpolate f pos' := (interpolate_between mono nonneg' last).1
    next =>
      have inside : ⌊pos⌋₊ + 1 ≤ m := by
        rw [← ceil_eq_of_floor_lt between]
        exact Nat.ceil_le.mpr (le.trans last)
      have rise : f ⌊pos⌋₊ ≤ f (⌊pos⌋₊ + 1) :=
        mono (Nat.le_of_succ_le inside) inside (Nat.le_succ _)
      rw [interpolate_eq nonneg, interpolate_eq nonneg', ← same]
      have slope := mul_le_mul_of_nonneg_right (sub_le_sub_right le (⌊pos⌋₊ : F))
        (sub_nonneg.mpr rise)
      exact add_le_add_right slope _
  next =>
    have next_floor : ⌈pos⌉₊ ≤ ⌊pos'⌋₊ := (Nat.ceil_le_floor_add_one pos).trans before
    calc interpolate f pos ≤ f ⌈pos⌉₊ :=
          (interpolate_between mono nonneg (le.trans last)).2
      _ ≤ f ⌊pos'⌋₊ := mono (next_floor.trans floor') floor' next_floor
      _ ≤ interpolate f pos' := (interpolate_between mono nonneg' last).1

section Sorted

variable {α : Type} [LinearOrder α] {xs : List α}

theorem monotoneOn_getD (sorted : xs.Pairwise (· ≤ ·)) (default : α) :
    MonotoneOn (fun i => xs.getD i default) (Set.Iic (xs.length - 1)) := by
  intro i _ j below le
  by_cases inside : j < xs.length
  next =>
    simp only [List.getD_eq_getElem _ _ inside, List.getD_eq_getElem _ _ (le.trans_lt inside)]
    exact sorted.rel_get_of_le (a := ⟨i, le.trans_lt inside⟩) (b := ⟨j, inside⟩) le
  next =>
    have empty : xs.length = 0 := by
      have : j ≤ xs.length - 1 := below
      omega
    simp [List.length_eq_zero_iff.mp empty]

end Sorted

end Quantile
