import Mathlib
import BrainEval.Datasets.CivilDays

set_option autoImplicit false

namespace BrainEval.Locomo

open Calendar CheckedInt

-- The steps of `days_from_civil` where overflow is checked; `none` is the panic.
def civilYearChecked (year : Int64) (month : UInt32) : Option Int64 :=
  if month ≤ 2 then checkedSub year 1 else some year

def eraStartChecked (y : Int64) : Option Int64 := if 0 ≤ y then some y else checkedSub y 399

def yearOfEraChecked (y era : Int64) : Option Int64 := do
  let start ← checkedMul era 400
  checkedSub y start

def marchMonthChecked (month : UInt32) : Option Int64 :=
  if 2 < i64 month then checkedSub (i64 month) 3 else checkedAdd (i64 month) 9

def dayOfYearChecked (month day : UInt32) : Option Int64 := do
  let m ← marchMonthChecked month
  let scaled ← checkedMul 153 m
  let months ← checkedAdd scaled 2
  let days ← checkedAdd (months / 5) (i64 day)
  checkedSub days 1

def daysInEraChecked (yoe doy : Int64) : Option Int64 := do
  let years ← checkedMul yoe 365
  let leaps ← checkedAdd years (yoe / 4)
  let centuries ← checkedSub leaps (yoe / 100)
  checkedAdd centuries doy

-- Days since the epoch, in the arithmetic of a build with overflow checks.
def daysFromCivilChecked (year : Int64) (month day : UInt32) : Option Int64 := do
  let y ← civilYearChecked year month
  let start ← eraStartChecked y
  let era := start / 400
  let yoe ← yearOfEraChecked y era
  let doy ← dayOfYearChecked month day
  let doe ← daysInEraChecked yoe doy
  let eras ← checkedMul era 146097
  let days ← checkedAdd eras doe
  checkedSub days 719468

def Countable (count : ℤ) : Prop := -2 ^ 63 ≤ count ∧ count + 719468 < 2 ^ 63

instance (count : ℤ) : Decidable (Countable count) := inferInstanceAs (Decidable (_ ∧ _))

theorem checkedMul_narrow (a b : Int64) : checkedMul a b = narrow (a.toInt * b.toInt) := rfl

theorem checkedMul_eq {a b : Int64} (exact : (a * b).toInt = a.toInt * b.toInt) :
    checkedMul a b = some (a * b) := by
  rw [checkedMul_narrow, ← exact, narrow_toInt]

theorem checkedMul_ite (a b : Int64) :
    checkedMul a b = if InRange (a.toInt * b.toInt) then some (a * b) else none := by
  rw [checkedMul_narrow, narrow, Int64.ofInt_mul, Int64.ofInt_toInt, Int64.ofInt_toInt]

section Steps

variable {year y yoe doy : Int64} {month day : UInt32}

theorem civilYearChecked_eq (fits : -2 ^ 63 ≤ marchYear year.toInt month.toNat) :
    civilYearChecked year month = some (civilYear year month) := by
  have last := year.toInt_lt
  unfold civilYearChecked civilYear
  split
  next early =>
    have early : month.toNat ≤ 2 := early
    rw [marchYear, if_pos early] at fits
    apply checkedSub_eq
    simp (disch := omega) only [Int64.toInt_sub, bmod_of_fits, Int64.reduceToInt]
  next => rfl

theorem eraStartChecked_eq (room : -2 ^ 63 + 399 ≤ y.toInt) :
    eraStartChecked y = some (eraStart y) := by
  have last := y.toInt_lt
  unfold eraStartChecked eraStart
  split
  next => rfl
  next =>
    apply checkedSub_eq
    simp (disch := omega) only [Int64.toInt_sub, bmod_of_fits, Int64.reduceToInt]

theorem yearOfEraChecked_eq (room : -2 ^ 63 + 399 ≤ y.toInt) :
    yearOfEraChecked y (eraOf y) = some (yearOfEra y) := by
  have last := y.toInt_lt
  have start : checkedMul (eraOf y) 400 = some (eraOf y * 400) := by
    apply checkedMul_eq
    simp (disch := omega) only [Int64.toInt_mul, toInt_eraOf room, bmod_of_fits,
      Int64.reduceToInt]
  have rest : checkedSub y (eraOf y * 400) = some (yearOfEra y) := by
    apply checkedSub_eq
    simp (disch := omega) only [Int64.toInt_sub, Int64.toInt_mul, toInt_eraOf room, bmod_of_fits,
      Int64.reduceToInt]
  simp only [yearOfEraChecked, start, rest, Option.bind_eq_bind, Option.bind_some]

theorem marchMonthChecked_eq (low : 1 ≤ month.toNat) (high : month.toNat ≤ 12) :
    marchMonthChecked month = some (marchMonth month) := by
  unfold marchMonthChecked marchMonth
  split
  next =>
    apply checkedSub_eq
    simp (disch := omega) only [Int64.toInt_sub, toInt_i64, bmod_of_fits, Int64.reduceToInt]
  next =>
    apply checkedAdd_eq
    simp (disch := omega) only [Int64.toInt_add, toInt_i64, bmod_of_fits, Int64.reduceToInt]

theorem dayOfYearChecked_eq (checked : Checked month day) :
    dayOfYearChecked month day = some (dayOfYear month day) := by
  obtain ⟨low, high, first, last⟩ := checked
  have march := marchMonthChecked_eq low high
  have shifted := toInt_marchMonth low high
  have small : (if 2 < month.toNat then month.toNat - 3 else month.toNat + 9) ≤ 11 := by
    split <;> omega
  generalize (if 2 < month.toNat then month.toNat - 3 else month.toNat + 9) = m at shifted small
  have scaled : checkedMul 153 (marchMonth month) = some (153 * marchMonth month) := by
    apply checkedMul_eq
    simp (disch := omega) only [Int64.toInt_mul, bmod_of_fits, Int64.reduceToInt, shifted]
  have months : checkedAdd (153 * marchMonth month) 2 = some (153 * marchMonth month + 2) := by
    apply checkedAdd_eq
    simp (disch := omega) only [Int64.toInt_add, Int64.toInt_mul, bmod_of_fits,
      Int64.reduceToInt, shifted]
  have days : checkedAdd ((153 * marchMonth month + 2) / 5) (i64 day) =
      some ((153 * marchMonth month + 2) / 5 + i64 day) := by
    apply checkedAdd_eq
    simp (disch := omega) only [Int64.toInt_add, Int64.toInt_mul, Int64.toInt_div,
      Int.tdiv_eq_ediv_of_nonneg, bmod_of_fits, Int64.reduceToInt, toInt_i64, shifted]
  have counted : checkedSub ((153 * marchMonth month + 2) / 5 + i64 day) 1 =
      some (dayOfYear month day) := by
    apply checkedSub_eq
    simp (disch := omega) only [Int64.toInt_add, Int64.toInt_sub, Int64.toInt_mul,
      Int64.toInt_div, Int.tdiv_eq_ediv_of_nonneg, bmod_of_fits, Int64.reduceToInt, toInt_i64,
      shifted]
  simp only [dayOfYearChecked, march, scaled, months, days, counted, Option.bind_eq_bind,
    Option.bind_some]

theorem daysInEraChecked_eq (low : 0 ≤ yoe.toInt) (high : yoe.toInt ≤ 798)
    (first : 0 ≤ doy.toInt) (last : doy.toInt ≤ 367) :
    daysInEraChecked yoe doy = some (daysInEra yoe doy) := by
  have years : checkedMul yoe 365 = some (yoe * 365) := by
    apply checkedMul_eq
    simp (disch := omega) only [Int64.toInt_mul, bmod_of_fits, Int64.reduceToInt]
  have leaps : checkedAdd (yoe * 365) (yoe / 4) = some (yoe * 365 + yoe / 4) := by
    apply checkedAdd_eq
    simp (disch := omega) only [Int64.toInt_add, Int64.toInt_mul, Int64.toInt_div,
      Int.tdiv_eq_ediv_of_nonneg, bmod_of_fits, Int64.reduceToInt]
  have centuries : checkedSub (yoe * 365 + yoe / 4) (yoe / 100) =
      some (yoe * 365 + yoe / 4 - yoe / 100) := by
    apply checkedSub_eq
    simp (disch := omega) only [Int64.toInt_add, Int64.toInt_sub, Int64.toInt_mul,
      Int64.toInt_div, Int.tdiv_eq_ediv_of_nonneg, bmod_of_fits, Int64.reduceToInt]
  have days : checkedAdd (yoe * 365 + yoe / 4 - yoe / 100) doy = some (daysInEra yoe doy) := by
    apply checkedAdd_eq
    simp (disch := omega) only [Int64.toInt_add, Int64.toInt_sub, Int64.toInt_mul,
      Int64.toInt_div, Int.tdiv_eq_ediv_of_nonneg, bmod_of_fits, Int64.reduceToInt]
  simp only [daysInEraChecked, years, leaps, centuries, days, Option.bind_eq_bind,
    Option.bind_some]

end Steps

section Run

variable {year era doe : Int64} {month day : UInt32}

-- A count that fits with its offset leaves the product and the sum before it in range.
theorem lastSteps_eq (first : 0 ≤ doe.toInt) (last : doe.toInt ≤ 366 * 399 + 367) :
    ((checkedMul era 146097).bind fun eras =>
        (checkedAdd eras doe).bind fun days => checkedSub days 719468) =
      if Countable (era.toInt * 146097 + doe.toInt - 719468) then
        some (era * 146097 + doe - 719468)
      else none := by
  rw [checkedMul_ite]
  simp only [Int64.reduceToInt]
  by_cases product : InRange (era.toInt * 146097)
  next =>
    have eras : (era * 146097).toInt = era.toInt * 146097 := toInt_mul product
    rw [if_pos product, Option.bind_some, checkedAdd_ite, eras]
    by_cases sum : InRange (era.toInt * 146097 + doe.toInt)
    next =>
      have days : (era * 146097 + doe).toInt = era.toInt * 146097 + doe.toInt := by
        rw [← eras]
        exact toInt_add (eras ▸ sum)
      have fits : InRange (era.toInt * 146097 + doe.toInt - 719468) ↔
          Countable (era.toInt * 146097 + doe.toInt - 719468) := by
        unfold Countable InRange at *
        omega
      rw [if_pos sum, Option.bind_some, checkedSub_ite, days]
      simp only [Int64.reduceToInt, fits]
    next =>
      have uncountable : ¬Countable (era.toInt * 146097 + doe.toInt - 719468) := by
        unfold Countable InRange at *
        omega
      rw [if_neg sum, if_neg uncountable, Option.bind_none]
  next =>
    have uncountable : ¬Countable (era.toInt * 146097 + doe.toInt - 719468) := by
      unfold Countable InRange at *
      omega
    rw [if_neg product, if_neg uncountable, Option.bind_none]

theorem daysFromCivilChecked_of_room (checked : Checked month day)
    (room : -2 ^ 63 + 399 ≤ marchYear year.toInt month.toNat) :
    daysFromCivilChecked year month day =
      if Countable (dayCount year.toInt month.toNat day.toNat) then
        some (daysFromCivil year month day)
      else none := by
  have y := toInt_civilYear_of_room room
  have roomy : -2 ^ 63 + 399 ≤ (civilYear year month).toInt := by omega
  have era := toInt_eraOf roomy
  have yoe := toInt_yearOfEra roomy
  have doy := toInt_dayOfYear checked
  have last := marchDay_le checked
  have first : 0 ≤ (yearOfEra (civilYear year month)).toInt := by omega
  have high : (yearOfEra (civilYear year month)).toInt ≤ 798 := by omega
  have doe := toInt_daysInEra first high (by omega : 0 ≤ (dayOfYear month day).toInt) (by omega)
  have yoe_low : 0 ≤ marchYear year.toInt month.toNat % 400 := by omega
  have bounds := dayOfEra_bounds yoe_low (Nat.cast_nonneg (marchDay month.toNat day.toNat))
    (by omega)
  rw [yoe, doy, y] at doe
  rw [y] at era
  have count := @lastSteps_eq (eraOf (civilYear year month))
    (daysInEra (yearOfEra (civilYear year month)) (dayOfYear month day)) (by omega) (by omega)
  rw [era, doe, ← dayCount_eq_era] at count
  rw [daysFromCivil_eq, ← count]
  have start : eraStart (civilYear year month) / 400 = eraOf (civilYear year month) := rfl
  have inside : -2 ^ 63 ≤ marchYear year.toInt month.toNat := by omega
  have days := daysInEraChecked_eq first high (by omega : 0 ≤ (dayOfYear month day).toInt)
    (by omega)
  simp only [daysFromCivilChecked, civilYearChecked_eq inside, eraStartChecked_eq roomy, start,
    yearOfEraChecked_eq roomy, dayOfYearChecked_eq checked, days, Option.bind_eq_bind,
    Option.bind_some]

theorem civilYearChecked_none (edge : marchYear year.toInt month.toNat < -2 ^ 63) :
    civilYearChecked year month = none := by
  have first := year.le_toInt
  have early : month.toNat ≤ 2 := by
    by_contra late
    rw [marchYear, if_neg late] at edge
    omega
  rw [marchYear, if_pos early] at edge
  rw [civilYearChecked, if_pos (UInt32.le_iff_toNat_le.mpr early)]
  apply narrow_none
  simp only [Int64.reduceToInt]
  unfold InRange
  omega

theorem eraStartChecked_none {y : Int64} (wrapped : y.toInt < -2 ^ 63 + 399) :
    eraStartChecked y = none := by
  have negative : ¬0 ≤ y := by
    rw [nonneg_iff]
    omega
  rw [eraStartChecked, if_neg negative]
  apply narrow_none
  simp only [Int64.reduceToInt]
  unfold InRange
  omega

-- Nearer to the first year than an era one of the two subtractions leaves the word.
theorem daysFromCivilChecked_none
    (wrapped : marchYear year.toInt month.toNat < -2 ^ 63 + 399) :
    daysFromCivilChecked year month day = none := by
  by_cases edge : marchYear year.toInt month.toNat < -2 ^ 63
  next =>
    simp only [daysFromCivilChecked, civilYearChecked_none edge, Option.bind_eq_bind,
      Option.bind_none]
  next =>
    have y : (civilYear year month).toInt = marchYear year.toInt month.toNat := by
      rw [toInt_civilYear, bmod_of_fits (by omega) (by omega)]
    have overflow : eraStartChecked (civilYear year month) = none :=
      eraStartChecked_none (y.trans_lt wrapped)
    simp only [daysFromCivilChecked, civilYearChecked_eq (not_lt.mp edge), overflow,
      Option.bind_eq_bind, Option.bind_some, Option.bind_none]

theorem room_of_countable (checked : Checked month day)
    (countable : Countable (dayCount year.toInt month.toNat day.toNat)) :
    -2 ^ 63 + 399 ≤ marchYear year.toInt month.toNat := by
  have last := marchDay_le checked
  have low := countable.1
  simp only [dayCount] at low
  omega

theorem daysFromCivilChecked_eq (checked : Checked month day) :
    daysFromCivilChecked year month day =
      if Countable (dayCount year.toInt month.toNat day.toNat) then
        some (daysFromCivil year month day)
      else none := by
  by_cases room : -2 ^ 63 + 399 ≤ marchYear year.toInt month.toNat
  next => exact daysFromCivilChecked_of_room checked room
  next =>
    rw [daysFromCivilChecked_none (not_le.mp room), if_neg (mt (room_of_countable checked) room)]

theorem toInt_of_countable (checked : Checked month day)
    (countable : Countable (dayCount year.toInt month.toNat day.toNat)) :
    (daysFromCivil year month day).toInt = dayCount year.toInt month.toNat day.toNat := by
  obtain ⟨low, high⟩ := countable
  rw [daysFromCivil_of_room checked (room_of_countable checked ⟨low, high⟩),
    bmod_of_fits low (by omega)]

end Run

end BrainEval.Locomo
