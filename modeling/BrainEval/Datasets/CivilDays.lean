import Mathlib
import BrainEval.Datasets.Locomo
import BrainEval.Lib.Calendar
import BrainEval.Lib.CheckedInt

set_option autoImplicit false

namespace BrainEval.Locomo

open Calendar CheckedInt

-- The steps of `days_from_civil`, one by one.
def civilYear (year : Int64) (month : UInt32) : Int64 := if month ≤ 2 then year - 1 else year

def eraStart (y : Int64) : Int64 := if 0 ≤ y then y else y - 399

def eraOf (y : Int64) : Int64 := eraStart y / 400

def yearOfEra (y : Int64) : Int64 := y - eraOf y * 400

def marchMonth (month : UInt32) : Int64 := if 2 < i64 month then i64 month - 3 else i64 month + 9

def dayOfYear (month day : UInt32) : Int64 := (153 * marchMonth month + 2) / 5 + i64 day - 1

def daysInEra (yoe doy : Int64) : Int64 := yoe * 365 + yoe / 4 - yoe / 100 + doy

theorem daysFromCivil_eq (year : Int64) (month day : UInt32) :
    daysFromCivil year month day =
      eraOf (civilYear year month) * 146097 +
        daysInEra (yearOfEra (civilYear year month)) (dayOfYear month day) - 719468 := rfl

structure Checked (month day : UInt32) : Prop where
  month_pos : 1 ≤ month.toNat
  month_le : month.toNat ≤ 12
  day_pos : 1 ≤ day.toNat
  day_le : day.toNat ≤ 31

section Words

@[simp] theorem toInt_i64 {n : UInt32} : (i64 n).toInt = n.toNat := by
  apply Int64.toInt_ofNat_of_lt
  have := n.toNat_lt
  omega

theorem nonneg_iff {y : Int64} : 0 ≤ y ↔ 0 ≤ y.toInt := Int64.le_iff_toInt_le

-- One word operation after another, each in range by what its operands are.
theorem toInt_eraStart {y : Int64} (room : -2 ^ 63 + 399 ≤ y.toInt) :
    (eraStart y).toInt = if 0 ≤ y.toInt then y.toInt else y.toInt - 399 := by
  have last := y.toInt_lt
  simp only [eraStart, nonneg_iff]
  split
  next => rfl
  next => simp (disch := omega) only [Int64.toInt_sub, bmod_of_fits, Int64.reduceToInt]

theorem toInt_eraOf {y : Int64} (room : -2 ^ 63 + 399 ≤ y.toInt) :
    (eraOf y).toInt = y.toInt / 400 := by
  rw [eraOf, toInt_div (by decide), toInt_eraStart room]
  simp only [Int64.reduceToInt]
  split_ifs <;> omega

theorem toInt_yearOfEra {y : Int64} (room : -2 ^ 63 + 399 ≤ y.toInt) :
    (yearOfEra y).toInt = y.toInt % 400 := by
  have last := y.toInt_lt
  simp (disch := omega) only [yearOfEra, Int64.toInt_sub, Int64.toInt_mul, toInt_eraOf room,
    bmod_of_fits, Int64.reduceToInt]
  omega

theorem toInt_marchMonth {month : UInt32} (low : 1 ≤ month.toNat) (high : month.toNat ≤ 12) :
    (marchMonth month).toInt =
      (if 2 < month.toNat then month.toNat - 3 else month.toNat + 9 : ℕ) := by
  have late : 2 < i64 month ↔ 2 < month.toNat := by
    rw [Int64.lt_iff_toInt_lt, toInt_i64]
    exact Nat.cast_lt
  simp only [marchMonth, late]
  split
  next =>
    simp (disch := omega) only [Int64.toInt_sub, toInt_i64, bmod_of_fits, Int64.reduceToInt]
    omega
  next =>
    simp (disch := omega) only [Int64.toInt_add, toInt_i64, bmod_of_fits, Int64.reduceToInt]
    omega

theorem toInt_dayOfYear {month day : UInt32} (checked : Checked month day) :
    (dayOfYear month day).toInt = marchDay month.toNat day.toNat := by
  obtain ⟨low, high, first, last⟩ := checked
  have shifted := toInt_marchMonth low high
  have small : (if 2 < month.toNat then month.toNat - 3 else month.toNat + 9) ≤ 11 := by
    split <;> omega
  unfold marchDay
  generalize (if 2 < month.toNat then month.toNat - 3 else month.toNat + 9) = m at shifted small
  simp (disch := omega) only [dayOfYear, Int64.toInt_add, Int64.toInt_sub, Int64.toInt_mul,
    Int64.toInt_div, Int.tdiv_eq_ediv_of_nonneg, bmod_of_fits, Int64.reduceToInt, toInt_i64,
    shifted]
  omega

theorem marchDay_le {month day : UInt32} (checked : Checked month day) :
    marchDay month.toNat day.toNat ≤ 367 := by
  rcases marchDay_bounds checked.month_pos checked.month_le checked.day_pos checked.day_le with
    ⟨_, _, high⟩ | ⟨_, high⟩ <;> omega

theorem toInt_daysInEra {yoe doy : Int64} (low : 0 ≤ yoe.toInt) (high : yoe.toInt ≤ 798)
    (first : 0 ≤ doy.toInt) (last : doy.toInt ≤ 367) :
    (daysInEra yoe doy).toInt = dayOfEra yoe.toInt doy.toInt := by
  simp (disch := omega) only [daysInEra, dayOfEra, Int64.toInt_add, Int64.toInt_sub,
    Int64.toInt_mul, Int64.toInt_div, Int.tdiv_eq_ediv_of_nonneg, bmod_of_fits, Int64.reduceToInt]

end Words

section Wrapping

variable {year : Int64} {month day : UInt32}

theorem toInt_civilYear (year : Int64) (month : UInt32) :
    (civilYear year month).toInt = (marchYear year.toInt month.toNat).bmod (2 ^ 64) := by
  have early : month ≤ 2 ↔ month.toNat ≤ 2 := UInt32.le_iff_toNat_le
  simp only [civilYear, marchYear, early]
  split
  next => simp only [Int64.toInt_sub, Int64.reduceToInt]
  next => rw [bmod_eq (toInt_inRange year)]

theorem toInt_daysFromCivil (checked : Checked month day)
    (low : 0 ≤ (yearOfEra (civilYear year month)).toInt)
    (high : (yearOfEra (civilYear year month)).toInt ≤ 798) :
    (daysFromCivil year month day).toInt =
      ((eraOf (civilYear year month)).toInt * 146097 +
        dayOfEra (yearOfEra (civilYear year month)).toInt (marchDay month.toNat day.toNat) -
        719468).bmod (2 ^ 64) := by
  have day := toInt_dayOfYear checked
  have last := marchDay_le checked
  rw [daysFromCivil_eq, Int64.toInt_sub, Int64.toInt_add, Int64.toInt_mul,
    toInt_daysInEra low high (by omega) (by omega), day]
  simp only [Int64.reduceToInt, Int.bmod_add_bmod, Int.bmod_sub_bmod]

theorem toInt_civilYear_of_room (room : -2 ^ 63 + 399 ≤ marchYear year.toInt month.toNat) :
    (civilYear year month).toInt = marchYear year.toInt month.toNat := by
  have last := year.toInt_lt
  have high : marchYear year.toInt month.toNat ≤ year.toInt := by
    unfold marchYear
    split <;> omega
  rw [toInt_civilYear, bmod_of_fits (by omega) (by omega)]

theorem daysFromCivil_of_room (checked : Checked month day)
    (room : -2 ^ 63 + 399 ≤ marchYear year.toInt month.toNat) :
    (daysFromCivil year month day).toInt =
      (dayCount year.toInt month.toNat day.toNat).bmod (2 ^ 64) := by
  have y := toInt_civilYear_of_room room
  have era := toInt_eraOf (y := civilYear year month) (by omega)
  have yoe := toInt_yearOfEra (y := civilYear year month) (by omega)
  rw [toInt_daysFromCivil checked (by omega) (by omega), era, yoe, y, dayCount_eq_era]

-- The subtraction before the era's division wraps to the last years of the word.
theorem era_of_wrapped {y : Int64} (wrapped : y.toInt < -2 ^ 63 + 399) :
    (eraOf y).toInt = (y.toInt - 399 + 2 ^ 64) / 400 ∧
      (yearOfEra y).toInt = (y.toInt - 399 + 2 ^ 64) % 400 + 399 := by
  have low := y.le_toInt
  have start : (eraStart y).toInt = y.toInt - 399 + 2 ^ 64 := by
    have negative : ¬0 ≤ y := by
      rw [nonneg_iff]
      omega
    rw [eraStart, if_neg negative, Int64.toInt_sub, bmod_eq_iff (by unfold InRange; omega)]
    simp only [Int64.reduceToInt]
    omega
  have era : (eraOf y).toInt = (y.toInt - 399 + 2 ^ 64) / 400 := by
    rw [eraOf, toInt_div_of_nonneg (by omega) (by decide), start]
    rfl
  refine ⟨era, ?_⟩
  rw [yearOfEra, Int64.toInt_sub, Int64.toInt_mul, era, bmod_eq_iff (by unfold InRange; omega)]
  simp (disch := omega) only [Int64.reduceToInt, bmod_of_fits]
  omega

-- The eras that the wrapped years fall into, and those they were meant for, are far from the
-- window that has a midnight.
theorem outside_window {era doe n : ℤ}
    (eras : era = 23058430092136938 ∨ era = 23058430092136939 ∨ era = -23058430092136939 ∨
      era = -23058430092136940)
    (first : 0 ≤ doe) (last : doe ≤ 366 * 798 + 367) (low : 0 ≤ n) (high : n ≤ 106751) :
    ¬(2 ^ 64 : ℤ) ∣ era * 146097 + doe - 719468 - n := by
  rcases eras with rfl | rfl | rfl | rfl <;> omega

-- The year before the first one is the last one; others near the first lose their era.
theorem wrapped_eras (wrapped : ¬-2 ^ 63 + 399 ≤ marchYear year.toInt month.toNat) :
    ((eraOf (civilYear year month)).toInt = 23058430092136938 ∨
        (eraOf (civilYear year month)).toInt = 23058430092136939) ∧
      0 ≤ (yearOfEra (civilYear year month)).toInt ∧
      (yearOfEra (civilYear year month)).toInt ≤ 798 := by
  have first := year.le_toInt
  have y := toInt_civilYear year month
  by_cases edge : marchYear year.toInt month.toNat = -2 ^ 63 - 1
  next =>
    rw [edge] at y
    have y : (civilYear year month).toInt = 2 ^ 63 - 1 := y
    rw [toInt_eraOf (by omega), toInt_yearOfEra (by omega)]
    omega
  next =>
    have below : -2 ^ 63 - 1 ≤ marchYear year.toInt month.toNat := by
      unfold marchYear
      split <;> omega
    rw [bmod_of_fits (by omega) (by omega)] at y
    obtain ⟨era, yoe⟩ := era_of_wrapped (y := civilYear year month) (by omega)
    rw [era, yoe]
    omega

-- The last day with a midnight in range is number 106751; up to it the days are right modulo the
-- word.
theorem daysFromCivil_window (checked : Checked month day) {n : ℤ} (low : 0 ≤ n)
    (high : n ≤ 106751) :
    (daysFromCivil year month day).toInt = n ↔
      dayCount year.toInt month.toNat day.toNat % 2 ^ 64 = n := by
  have fits : InRange n := by
    unfold InRange
    omega
  have modulo : dayCount year.toInt month.toNat day.toNat % 2 ^ 64 = n ↔
      (2 ^ 64 : ℤ) ∣ dayCount year.toInt month.toNat day.toNat - n := by omega
  rw [modulo]
  by_cases room : -2 ^ 63 + 399 ≤ marchYear year.toInt month.toNat
  next => rw [daysFromCivil_of_room checked room, bmod_eq_iff fits]
  next =>
    have first := year.le_toInt
    have below : -2 ^ 63 - 1 ≤ marchYear year.toInt month.toNat := by
      unfold marchYear
      split <;> omega
    have days : (0 : ℤ) ≤ marchDay month.toNat day.toNat ∧
        (marchDay month.toNat day.toNat : ℤ) ≤ 367 :=
      ⟨Nat.cast_nonneg _, by exact_mod_cast marchDay_le checked⟩
    obtain ⟨eras, yoe_low, yoe_high⟩ := wrapped_eras room
    apply iff_of_false
    · have doe := dayOfEra_bounds yoe_low days.1 days.2
      rw [toInt_daysFromCivil checked yoe_low yoe_high, bmod_eq_iff fits]
      exact outside_window (by omega) doe.1 (by omega) low high
    · have yoe_nonneg : 0 ≤ marchYear year.toInt month.toNat % 400 := by omega
      have doe := dayOfEra_bounds yoe_nonneg days.1 days.2
      rw [dayCount_eq_era]
      exact outside_window (by omega) doe.1 (by omega) low high

end Wrapping

end BrainEval.Locomo
