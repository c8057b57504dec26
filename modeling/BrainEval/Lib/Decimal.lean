import Mathlib

set_option autoImplicit false

namespace Decimal

def value (digits : List Char) : ℕ := Nat.ofDigitChars 10 digits 0

def AllDigits (digits : List Char) : Prop := ∀ c ∈ digits, c.isDigit = true

theorem value_append (front back : List Char) :
    value (front ++ back) = 10 ^ back.length * value front + value back := by
  rw [value, Nat.ofDigitChars_append, Nat.ofDigitChars_eq_ofDigitChars_zero]
  rfl

theorem value_cons (c : Char) (digits : List Char) :
    value (c :: digits) = 10 ^ digits.length * (c.toNat - '0'.toNat) + value digits := by
  rw [value, Nat.ofDigitChars_cons, Nat.ofDigitChars_eq_ofDigitChars_zero, Nat.mul_zero,
    Nat.zero_add]
  rfl

theorem isDigit_range {c : Char} (digit : c.isDigit = true) : 48 ≤ c.toNat ∧ c.toNat ≤ 57 := by
  simp only [Char.isDigit, ge_iff_le, Bool.and_eq_true, decide_eq_true_eq] at digit
  exact ⟨UInt32.le_iff_toNat_le.mp digit.1, UInt32.le_iff_toNat_le.mp digit.2⟩

theorem value_lt {digits : List Char} (all : AllDigits digits) :
    value digits < 10 ^ digits.length := by
  induction digits with
  | nil => simp [value]
  | cons c digits ih =>
    obtain ⟨digit, rest⟩ := List.forall_mem_cons.mp all
    have range := isDigit_range digit
    have zero : '0'.toNat = 48 := rfl
    have most : 10 ^ digits.length * (c.toNat - '0'.toNat) ≤ 10 ^ digits.length * 9 :=
      Nat.mul_le_mul_left _ (by omega)
    have tail := ih rest
    rw [value_cons, List.length_cons, Nat.pow_succ]
    omega

theorem char_lt_iff {c d : Char} : c < d ↔ c.toNat < d.toNat := Iff.rfl

theorem lt_iff_value_lt {ds es : List Char} (same : ds.length = es.length) (left : AllDigits ds)
    (right : AllDigits es) : ds < es ↔ value ds < value es := by
  induction ds generalizing es with
  | nil =>
    obtain rfl := List.length_eq_zero_iff.mp same.symm
    simp
  | cons d ds ih =>
    cases es with
    | nil => simp at same
    | cons e es =>
      obtain ⟨digit, left⟩ := List.forall_mem_cons.mp left
      obtain ⟨digit', right⟩ := List.forall_mem_cons.mp right
      have lengths : ds.length = es.length := by simpa using same
      have below := value_lt left
      have below' := value_lt right
      have range := isDigit_range digit
      have range' := isDigit_range digit'
      have zero : '0'.toNat = 48 := rfl
      rw [List.cons_lt_cons_iff, ih lengths left right, value_cons, value_cons, lengths]
      rw [lengths] at below
      constructor
      -- a smaller first digit outweighs all the others together
      · rintro (less | ⟨rfl, less⟩)
        · rw [char_lt_iff] at less
          have step : 10 ^ es.length * (d.toNat - '0'.toNat + 1) ≤
              10 ^ es.length * (e.toNat - '0'.toNat) := Nat.mul_le_mul_left _ (by omega)
          rw [Nat.mul_add] at step
          omega
        · omega
      · intro less
        rcases Nat.lt_trichotomy d.toNat e.toNat with smaller | equal | larger
        · exact Or.inl (char_lt_iff.mpr smaller)
        · obtain rfl := Char.toNat_inj.mp equal
          exact Or.inr ⟨rfl, by omega⟩
        · have step : 10 ^ es.length * (e.toNat - '0'.toNat + 1) ≤
              10 ^ es.length * (d.toNat - '0'.toNat) := Nat.mul_le_mul_left _ (by omega)
          rw [Nat.mul_add] at step
          omega

theorem lt_iff_take {ds es : List Char} (shorter : ds.length < es.length) :
    ds < es ↔ ¬ es.take ds.length < ds := by
  induction ds generalizing es with
  | nil =>
    cases es with
    | nil => simp at shorter
    | cons e es => simp
  | cons d ds ih =>
    cases es with
    | nil => simp at shorter
    | cons e es =>
      rw [List.length_cons, List.take_succ_cons, List.cons_lt_cons_iff, List.cons_lt_cons_iff,
        ih (by simpa using shorter)]
      rcases lt_trichotomy d e with less | rfl | greater
      · simp [less, less.ne', not_lt_of_gt less]
      · simp
      · simp [greater, greater.ne', not_lt_of_gt greater]

theorem allDigits_toDigits (n : ℕ) : AllDigits (Nat.toDigits 10 n) := fun _ member =>
  Nat.isDigit_of_mem_toDigits (by decide) (by decide) member

theorem value_toDigits (n : ℕ) : value (Nat.toDigits 10 n) = n := Nat.ofDigitChars_ten_toDigits

theorem value_take {digits : List Char} (all : AllDigits digits) (k : ℕ) :
    value (digits.take k) = value digits / 10 ^ (digits.length - k) := by
  have split := value_append (digits.take k) (digits.drop k)
  have rest : value (digits.drop k) < 10 ^ (digits.drop k).length :=
    value_lt fun c member => all c (List.mem_of_mem_drop member)
  rw [List.take_append_drop, List.length_drop] at split
  rw [List.length_drop] at rest
  rw [split, Nat.mul_add_div (by positivity), Nat.div_eq_of_lt rest, Nat.add_zero]

def digitCount (n : ℕ) : ℕ := (Nat.toDigits 10 n).length

theorem digitCount_mono {n m : ℕ} (le : n ≤ m) : digitCount n ≤ digitCount m := by
  rw [digitCount, digitCount, Nat.length_toDigits_le_iff (by decide) Nat.length_toDigits_pos]
  have top := value_lt (allDigits_toDigits m)
  rw [value_toDigits] at top
  exact lt_of_le_of_lt le top

-- A smaller number's numeral comes first exactly when the larger one's leading digits write no
-- less.
theorem toDigits_lt_iff {n m : ℕ} (less : n < m) :
    Nat.toDigits 10 n < Nat.toDigits 10 m ↔ n ≤ m / 10 ^ (digitCount m - digitCount n) := by
  rcases Nat.lt_or_eq_of_le (digitCount_mono less.le) with shorter | same
  · have start : ((Nat.toDigits 10 m).take (digitCount n)).length = (Nat.toDigits 10 n).length := by
      rw [List.length_take]
      exact Nat.min_eq_left shorter.le
    have digits : AllDigits ((Nat.toDigits 10 m).take (digitCount n)) := fun c member =>
      allDigits_toDigits m c (List.mem_of_mem_take member)
    rw [lt_iff_take shorter]
    change ¬ (Nat.toDigits 10 m).take (digitCount n) < _ ↔ _
    rw [lt_iff_value_lt start digits (allDigits_toDigits n), value_take (allDigits_toDigits m),
      value_toDigits, value_toDigits, not_lt]
    rfl
  · rw [lt_iff_value_lt same (allDigits_toDigits n) (allDigits_toDigits m), value_toDigits,
      value_toDigits, same, Nat.sub_self, Nat.pow_zero, Nat.div_one]
    exact ⟨fun _ => less.le, fun _ => less⟩

end Decimal
