import Mathlib

set_option autoImplicit false

namespace Numbered

variable {α : Type}

-- The names of a batch, numbered on from an index.
def batch (name : Nat → α) (first count : Nat) : List α :=
  (List.range count).map fun j => name (first + j)

theorem mem_batch {name : Nat → α} {first count : Nat} {a : α} :
    a ∈ batch name first count ↔ ∃ i, first ≤ i ∧ i < first + count ∧ name i = a := by
  simp only [batch, List.mem_map, List.mem_range]
  constructor
  · rintro ⟨j, inside, rfl⟩
    exact ⟨first + j, Nat.le_add_right _ _, by omega, rfl⟩
  · rintro ⟨i, from_first, inside, rfl⟩
    exact ⟨i - first, by omega, by rw [Nat.add_sub_cancel' from_first]⟩

@[simp] theorem batch_zero (name : Nat → α) (first : Nat) : batch name first 0 = [] := rfl

theorem batch_succ (name : Nat → α) (first count : Nat) :
    batch name first (count + 1) = batch name first count ++ [name (first + count)] := by
  simp [batch, List.range_succ]

theorem map_batch {β : Type} (f : α → β) (name : Nat → α) (first count : Nat) :
    (batch name first count).map f = batch (fun i => f (name i)) first count := by
  simp [batch, Function.comp_def]

theorem nodup_batch {name : Nat → α} (distinct : Function.Injective name) (first count : Nat) :
    (batch name first count).Nodup :=
  List.nodup_range.map fun _ _ same => Nat.add_left_cancel (distinct same)

variable {first count : Nat → Nat}

theorem first_mono (apart : ∀ k, first k + count k ≤ first (k + 1)) : Monotone first :=
  monotone_nat_of_le_succ fun k => (Nat.le_add_right _ _).trans (apart k)

-- Batches that start past the end of the one before give no name twice.
theorem nodup_batches {name : Nat → α} (distinct : Function.Injective name)
    (apart : ∀ k, first k + count k ≤ first (k + 1)) (n : Nat) :
    ((List.range n).flatMap fun k => batch name (first k) (count k)).Nodup := by
  rw [List.nodup_flatMap]
  refine ⟨fun k _ => nodup_batch distinct _ _, List.pairwise_lt_range.imp ?_⟩
  intro k l before a left right
  obtain ⟨i, -, inside, rfl⟩ := mem_batch.mp left
  obtain ⟨j, from_first, -, same⟩ := mem_batch.mp right
  obtain rfl := distinct same
  have later := first_mono apart (Nat.succ_le_of_lt before)
  have gap := apart k
  simp only [Nat.succ_eq_add_one] at later
  omega

end Numbered
