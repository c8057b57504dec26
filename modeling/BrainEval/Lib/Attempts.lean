import Mathlib

set_option autoImplicit false

namespace Attempts

variable {α : Type} (stops : α → Bool)

/-- How many of at most `n` attempts are made, where the first answer that stops them is the
last. -/
def made : Nat → (Nat → α) → Nat
  | 0, _ => 0
  | n + 1, answer => if stops (answer 0) then 1 else made n (fun i => answer (i + 1)) + 1

theorem made_le (n : Nat) (answer : Nat → α) : made stops n answer ≤ n := by
  induction n generalizing answer with
  | zero => exact le_rfl
  | succ n ih =>
    rw [made]
    split
    next => omega
    next => exact Nat.succ_le_succ (ih _)

theorem made_pos {n : Nat} (allowed : 0 < n) (answer : Nat → α) : 0 < made stops n answer := by
  obtain ⟨n, rfl⟩ := Nat.exists_eq_add_one_of_ne_zero allowed.ne'
  rw [made]
  split <;> omega

variable {stops}

theorem goes_on_of_lt {n i : Nat} (answer : Nat → α) (before : i + 1 < made stops n answer) :
    stops (answer i) = false := by
  induction n generalizing i answer with
  | zero => simp [made] at before
  | succ n ih =>
    rw [made] at before
    by_cases here : stops (answer 0) = true
    next =>
      rw [if_pos here] at before
      omega
    next =>
      rw [if_neg here] at before
      cases i with
      | zero => simpa using here
      | succ i => exact ih (fun i => answer (i + 1)) (Nat.lt_of_succ_lt_succ before)

theorem last_stops {n : Nat} (answer : Nat → α) (fewer : made stops n answer < n) :
    stops (answer (made stops n answer - 1)) = true := by
  induction n generalizing answer with
  | zero => exact absurd fewer (Nat.not_lt_zero _)
  | succ n ih =>
    rw [made] at fewer ⊢
    by_cases here : stops (answer 0) = true
    next =>
      rw [if_pos here]
      exact here
    next =>
      rw [if_neg here] at fewer ⊢
      have later := ih (fun i => answer (i + 1)) (Nat.lt_of_succ_lt_succ fewer)
      have some_made := made_pos stops (Nat.zero_lt_of_lt (Nat.lt_of_succ_lt_succ fewer))
        fun i => answer (i + 1)
      rwa [Nat.sub_add_cancel some_made] at later

end Attempts
