import Mathlib

set_option autoImplicit false

namespace Mean

variable {α F : Type} [Field F]

-- The arithmetic mean; that of nothing is zero.
def mean (xs : List F) : F := xs.sum / xs.length

@[simp] theorem mean_nil : mean ([] : List F) = 0 := by simp [mean]

theorem mean_add (f g : α → F) (xs : List α) :
    mean (xs.map fun x => f x + g x) = mean (xs.map f) + mean (xs.map g) := by
  simp only [mean, List.sum_map_add, List.length_map, add_div]

theorem mean_mul_left (c : F) (f : α → F) (xs : List α) :
    mean (xs.map fun x => c * f x) = c * mean (xs.map f) := by
  simp only [mean, List.sum_map_mul_left, List.length_map, mul_div_assoc]

section Nonempty

variable [CharZero F] {xs : List F} (some : xs ≠ [])

include some

theorem length_ne_zero : (xs.length : F) ≠ 0 := by
  simpa using some

theorem sum_eq_mean : xs.sum = xs.length * mean xs := by
  rw [mean, mul_div_cancel₀ _ (length_ne_zero some)]

theorem sum_sub_mean : (xs.map fun x => x - mean xs).sum = 0 := by
  simp only [sub_eq_add_neg, List.sum_map_add, List.map_id', List.map_const', List.sum_replicate,
    nsmul_eq_mul, mul_neg]
  rw [sum_eq_mean some, add_neg_cancel]

end Nonempty

section Order

variable [LinearOrder F] [IsStrictOrderedRing F]

theorem mean_le_mean {f g : α → F} {xs : List α} (below : ∀ x ∈ xs, f x ≤ g x) :
    mean (xs.map f) ≤ mean (xs.map g) := by
  rw [mean, mean, List.length_map, List.length_map]
  exact div_le_div_of_nonneg_right (List.sum_le_sum below) (Nat.cast_nonneg _)

theorem mean_nonneg {xs : List F} (nonneg : ∀ x ∈ xs, 0 ≤ x) : 0 ≤ mean xs :=
  div_nonneg (List.sum_nonneg nonneg) (Nat.cast_nonneg _)

theorem mean_le {xs : List F} (some : xs ≠ []) {hi : F} (below : ∀ x ∈ xs, x ≤ hi) :
    mean xs ≤ hi := by
  have long : (0 : F) < xs.length := by simpa using List.length_pos_iff.mpr some
  rw [mean, div_le_iff₀ long]
  calc xs.sum ≤ xs.length • hi := List.sum_le_card_nsmul xs hi below
    _ = hi * xs.length := by rw [nsmul_eq_mul, mul_comm]

theorem le_mean {xs : List F} (some : xs ≠ []) {lo : F} (above : ∀ x ∈ xs, lo ≤ x) :
    lo ≤ mean xs := by
  have long : (0 : F) < xs.length := by simpa using List.length_pos_iff.mpr some
  rw [mean, le_div_iff₀ long]
  calc lo * xs.length = xs.length • lo := by rw [nsmul_eq_mul, mul_comm]
    _ ≤ xs.sum := List.card_nsmul_le_sum xs lo above

-- The empty mean is zero, so a bound that is not negative needs no nonempty list.
theorem mean_le_of_nonneg {xs : List F} {hi : F} (nonneg : 0 ≤ hi) (below : ∀ x ∈ xs, x ≤ hi) :
    mean xs ≤ hi := by
  by_cases some : xs = []
  next => rwa [some, mean_nil]
  next => exact mean_le some below

end Order

section Spread

theorem sum_sq_sub (xs : List F) (c : F) :
    (xs.map fun x => (x - c) ^ 2).sum =
      (xs.map fun x => x ^ 2).sum - 2 * c * xs.sum + xs.length * c ^ 2 := by
  induction xs with
  | nil => simp
  | cons x xs ih =>
    simp only [List.map_cons, List.sum_cons, List.length_cons, ih]
    push_cast
    ring

variable [LinearOrder F] [IsStrictOrderedRing F]

-- What is left of the squares around the mean is not negative.
theorem sq_sum_le (xs : List F) : xs.sum ^ 2 ≤ xs.length * (xs.map fun x => x ^ 2).sum := by
  by_cases some : xs = []
  next => simp [some]
  next =>
    have rest : 0 ≤ (xs.map fun x => (x - mean xs) ^ 2).sum :=
      List.sum_nonneg (List.forall_mem_map.mpr fun x _ => sq_nonneg _)
    rw [sum_sq_sub, sum_eq_mean some] at rest
    rw [sum_eq_mean some]
    nlinarith [Nat.cast_nonneg (α := F) xs.length]

/-- Samuelson's inequality: how far one value can be from the mean. -/
theorem sq_sub_mean_le {xs : List F} {x : F} (member : x ∈ xs) :
    xs.length * (x - mean xs) ^ 2 ≤
      (xs.length - 1) * (xs.map fun y => (y - mean xs) ^ 2).sum := by
  obtain ⟨front, back, rfl⟩ := List.append_of_mem member
  set m := mean (front ++ x :: back) with centre
  have perm : (front ++ x :: back).Perm (x :: (front ++ back)) := List.perm_middle
  have balance := sum_sub_mean (List.ne_nil_of_mem member)
  rw [← centre, (perm.map _).sum_eq, List.map_cons, List.sum_cons] at balance
  have others := sq_sum_le ((front ++ back).map fun y => y - m)
  rw [List.length_map, List.map_map] at others
  rw [(perm.map _).sum_eq, List.map_cons, List.sum_cons, perm.length_eq, List.length_cons]
  have away : ((front ++ back).map fun y => y - m).sum = -(x - m) := by linarith
  rw [away, neg_sq] at others
  push_cast
  simp only [Function.comp_def] at others
  linarith

end Spread

end Mean
