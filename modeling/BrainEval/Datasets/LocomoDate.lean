import Mathlib
import BrainEval.Datasets.CheckedDays
import BrainEval.Lib.Words

set_option autoImplicit false

namespace BrainEval.Locomo

open RustStr Words Calendar CheckedInt

structure DateTokens where
  day : UInt32
  month : UInt32
  year : Int64

-- What `parse_locomo_datetime` reads before it counts days.
def dateTokens (s : String) : Option DateTokens :=
  let datePart := trimChars ((afterLast " on ".toList s.toList).getD s.toList)
  match splitWhitespace datePart with
  | [dayTok, monthTok, yearTok] => do
    let day := UInt32.ofNat (← fromStrRadix 10 (2 ^ 32 - 1) dayTok)
    let month ← monthFromName (String.ofList (monthTok.rdropWhile (· = ',')))
    let year ← parseI64 yearTok
    if ¬(1 ≤ day ∧ day ≤ 31) ∨ ¬(1 ≤ month ∧ month ≤ 12) then none
    else some { day := day, month := month, year := year }
  | _ => none

-- The two checked multiplications at the end and the conversion to `u64`.
def midnightOf (days : Int64) : Option Nat := do
  let secs ← checkedMul days 86400
  let nanos ← checkedMul secs 1000000000
  if 0 ≤ nanos then some nanos.toInt.toNat else none

def nanosPerDay : Nat := 86400 * 1000000000

-- The parse in a build with overflow checks; the outer `none` is the panic.
def parseLocomoDatetimeChecked (s : String) : Option (Option Nat) :=
  match dateTokens s with
  | none => some none
  | some t => (daysFromCivilChecked t.year t.month t.day).map midnightOf

namespace DateTokens

def count (t : DateTokens) : ℤ := dayCount t.year.toInt t.month.toNat t.day.toNat

def Names (t : DateTokens) (d : Date) : Prop :=
  d.year = t.year.toInt ∧ d.month = t.month.toNat ∧ d.day = t.day.toNat

end DateTokens

theorem midnightOf_def (days : Int64) :
    midnightOf days =
      (checkedMul days 86400).bind fun secs =>
        (checkedMul secs 1000000000).bind fun nanos =>
          if 0 ≤ nanos then some nanos.toInt.toNat else none := rfl

theorem parseLocomoDatetime_eq (s : String) :
    parseLocomoDatetime s =
      (dateTokens s).bind fun t => midnightOf (daysFromCivil t.year t.month t.day) := by
  unfold parseLocomoDatetime dateTokens
  dsimp only
  generalize splitWhitespace _ = tokens
  match tokens with
  | [] | [_] | [_, _] | _ :: _ :: _ :: _ :: _ => rfl
  | [dayTok, monthTok, yearTok] =>
    simp only [Option.bind_eq_bind, Option.bind_assoc, ← midnightOf_def]
    refine congrArg _ (funext fun day => congrArg _ (funext fun month => ?_))
    refine congrArg _ (funext fun year => ?_)
    split
    next => rw [Option.bind_none]
    next => rw [Option.bind_some]

theorem dateTokens_checked {s : String} {t : DateTokens} (read : dateTokens s = some t) :
    Checked t.month t.day := by
  unfold dateTokens at read
  dsimp only at read
  split at read
  next =>
    simp only [Option.bind_eq_bind, Option.bind_eq_some_iff] at read
    obtain ⟨day, _, month, _, year, _, accepted⟩ := read
    split at accepted
    next => simp at accepted
    next ranges =>
      obtain rfl := Option.some_inj.mp accepted
      obtain ⟨⟨first, last⟩, low, high⟩ := not_or.mp ranges |>.imp not_not.mp not_not.mp
      exact ⟨low, high, first, last⟩
  next => simp at read

-- Trimming takes no word away.
theorem splitWhitespace_trimChars (cs : List Char) :
    splitWhitespace (trimChars cs) = splitWhitespace cs :=
  (words_rdropWhile _).trans (words_dropWhile cs)

theorem dateTokens_eq {s : String} {date dayTok monthTok yearTok : List Char} {day : Nat}
    {month : UInt32} {year : Int64}
    (after : (afterLast " on ".toList s.toList).getD s.toList = date)
    (split : splitWhitespace date = [dayTok, monthTok, yearTok])
    (day_reads : fromStrRadix 10 (2 ^ 32 - 1) dayTok = some day)
    (month_reads : monthFromName (String.ofList (monthTok.rdropWhile (· = ','))) = some month)
    (year_reads : parseI64 yearTok = some year) (checked : Checked month (UInt32.ofNat day)) :
    dateTokens s = some { day := UInt32.ofNat day, month := month, year := year } := by
  have ranges : ¬(¬(1 ≤ UInt32.ofNat day ∧ UInt32.ofNat day ≤ 31) ∨ ¬(1 ≤ month ∧ month ≤ 12)) :=
    not_or.mpr ⟨not_not.mpr ⟨checked.day_pos, checked.day_le⟩,
      not_not.mpr ⟨checked.month_pos, checked.month_le⟩⟩
  simp only [dateTokens, after, splitWhitespace_trimChars, split, day_reads, month_reads,
    year_reads, Option.bind_eq_bind, Option.bind_some, if_neg ranges]

-- A day has a midnight up to 11 April 2262, day 106751.
theorem midnightOf_eq_some {days : Int64} {nanos : Nat} :
    midnightOf days = some nanos ↔
      0 ≤ days.toInt ∧ days.toInt ≤ 106751 ∧ (nanos : ℤ) = nanosPerDay * days.toInt := by
  have low := days.le_toInt
  have high := days.toInt_lt
  have day : (nanosPerDay : ℤ) = 86400000000000 := rfl
  rw [day, midnightOf_def, checkedMul_ite]
  simp only [Int64.reduceToInt]
  by_cases product : InRange (days.toInt * 86400)
  next =>
    have secs : (days * 86400).toInt = days.toInt * 86400 := by
      simp only [Int64.toInt_mul, Int64.reduceToInt, bmod_eq product]
    -- by rewriting: a definitional step would compare the two products
    rw [if_pos product, Option.bind_some, checkedMul_ite, secs]
    simp only [Int64.reduceToInt]
    by_cases fits : InRange (days.toInt * 86400 * 1000000000)
    next =>
      have total : (days * 86400 * 1000000000).toInt = days.toInt * 86400 * 1000000000 := by
        rw [Int64.toInt_mul, secs]
        simp only [Int64.reduceToInt, bmod_eq fits]
      rw [if_pos fits, Option.bind_some]
      unfold InRange at fits
      simp only [nonneg_iff, total]
      split
      next => rw [Option.some_inj]; omega
      next => simp; omega
    next =>
      rw [if_neg fits]
      unfold InRange at fits
      simp only [Option.bind_none, reduceCtorEq, false_iff]
      omega
  next =>
    rw [if_neg product]
    unfold InRange at product
    simp only [Option.bind_none, reduceCtorEq, false_iff]
    omega

theorem parseLocomoDatetime_eq_some {s : String} {nanos : Nat} :
    parseLocomoDatetime s = some nanos ↔
      ∃ t, dateTokens s = some t ∧ t.count % 2 ^ 64 ≤ 106751 ∧
        (nanos : ℤ) = nanosPerDay * (t.count % 2 ^ 64) := by
  rw [parseLocomoDatetime_eq, Option.bind_eq_some_iff]
  refine exists_congr fun t => and_congr_right fun read => ?_
  have checked := dateTokens_checked read
  rw [midnightOf_eq_some]
  constructor
  · rintro ⟨low, high, stamp⟩
    have modulo : t.count % 2 ^ 64 = (daysFromCivil t.year t.month t.day).toInt :=
      (daysFromCivil_window checked low high).mp rfl
    rw [modulo]
    exact ⟨high, stamp⟩
  · rintro ⟨high, stamp⟩
    have low : 0 ≤ t.count % 2 ^ 64 := Int.emod_nonneg _ (by norm_num)
    rw [(daysFromCivil_window checked low high).mpr rfl]
    exact ⟨low, high, stamp⟩

def Midnight (d : Date) (nanos : Nat) : Prop := ∃ n, d.After n ∧ nanos = nanosPerDay * n

def NamesDate (s : String) : Prop :=
  ∀ nanos, parseLocomoDatetime s = some nanos →
    ∃ t d, dateTokens s = some t ∧ t.Names d ∧ Midnight d nanos

/-- A day count that the word takes for one with a midnight is one, of a day that the month
has. -/
def DateTokens.Real (t : DateTokens) : Prop :=
  t.count % 2 ^ 64 ≤ 106751 →
    t.day.toNat ≤ monthLength t.year.toInt t.month.toNat ∧ 0 ≤ t.count ∧ t.count ≤ 106751

structure NeverOverflows (s : String) : Prop where
  checked : parseLocomoDatetimeChecked s = some (parseLocomoDatetime s)
  unwrapped : ∀ nanos, parseLocomoDatetime s = some nanos →
    ∃ t, dateTokens s = some t ∧ (nanos : ℤ) = nanosPerDay * t.count

section Tokens

variable {s : String} {t : DateTokens} {d : Date}

theorem DateTokens.Names.count (names : t.Names d) : d.count = t.count := by
  obtain ⟨year, month, day⟩ := names
  rw [Date.count, DateTokens.count, year, month, day]

theorem DateTokens.Names.of_valid (read : dateTokens s = some t)
    (valid : t.day.toNat ≤ monthLength t.year.toInt t.month.toNat) : ∃ d, t.Names d := by
  have checked := dateTokens_checked read
  exact ⟨⟨t.year.toInt, t.month.toNat, t.day.toNat, checked.month_pos, checked.month_le,
    checked.day_pos, valid⟩, rfl, rfl, rfl⟩

theorem names_midnight (read : dateTokens s = some t) (names : t.Names d) (low : 0 ≤ t.count) :
    ∃ n : ℕ, d.After n ∧ (n : ℤ) = t.count := by
  have checked := dateTokens_checked read
  have since := since_epoch checked.month_pos checked.month_le checked.day_pos checked.day_le low
  obtain ⟨n, after⟩ := d.exists_after (names.1 ▸ since)
  exact ⟨n, after, by rw [← after.count, names.count]⟩

end Tokens

-- A day that the month lacks goes for one of the next month, and a far year for a near one; these
-- are the only ways to another date.
theorem parse_names_date_iff (s : String) :
    NamesDate s ↔ ∀ t, dateTokens s = some t → t.Real := by
  constructor
  · intro exact t read window
    have low : 0 ≤ t.count % 2 ^ 64 := Int.emod_nonneg _ (by norm_num)
    obtain ⟨n, stamp⟩ := Int.eq_ofNat_of_zero_le low
    have parsed : parseLocomoDatetime s = some (nanosPerDay * n) := by
      rw [parseLocomoDatetime_eq_some]
      refine ⟨t, read, window, ?_⟩
      rw [stamp]
      push_cast
      rfl
    obtain ⟨t', d, read', names, k, after, same⟩ := exact _ parsed
    obtain rfl : t' = t := Option.some_inj.mp (read'.symm.trans read)
    have days : n = k := Nat.eq_of_mul_eq_mul_left (by decide) same
    have count : t'.count = n := by rw [← names.count, after.count, days]
    obtain ⟨year, month, day⟩ := names
    refine ⟨?_, by omega, by omega⟩
    rw [← year, ← month, ← day]
    exact d.day_le
  · intro real nanos parsed
    obtain ⟨t, read, window, stamp⟩ := parseLocomoDatetime_eq_some.mp parsed
    obtain ⟨valid, low, high⟩ := real t read window
    obtain ⟨d, names⟩ := DateTokens.Names.of_valid read valid
    obtain ⟨n, after, count⟩ := names_midnight read names low
    refine ⟨t, d, read, names, n, after, ?_⟩
    rw [Int.emod_eq_of_lt low (by omega), ← count] at stamp
    exact_mod_cast stamp

theorem april_tokens :
    dateTokens "31 April, 2023" = some { day := 31, month := 4, year := 2023 } :=
  @dateTokens_eq "31 April, 2023" "31 April, 2023".toList "31".toList "April,".toList
    "2023".toList 31 4 2023 (by decide +kernel) (by decide +kernel) (by decide +kernel)
    (by decide +kernel) (by decide +kernel)
    ⟨by decide, by decide, by decide, by decide⟩

theorem april_has_no_31st :
    parseLocomoDatetime "31 April, 2023" = some (19478 * nanosPerDay) ∧
      ¬NamesDate "31 April, 2023" := by
  have parsed : parseLocomoDatetime "31 April, 2023" = some (19478 * nanosPerDay) :=
    parseLocomoDatetime_eq_some.mpr ⟨_, april_tokens, by decide, by decide⟩
  refine ⟨parsed, fun exact => ?_⟩
  obtain ⟨t, d, read, ⟨-, month, day⟩, _⟩ := exact _ parsed
  obtain rfl := Option.some_inj.mp (april_tokens.symm.trans read)
  have valid := d.day_le
  rw [month, day] at valid
  exact absurd valid (by simp [monthLength])

theorem parse_never_overflows_iff (s : String) :
    NeverOverflows s ↔ ∀ t, dateTokens s = some t → Countable t.count := by
  constructor
  · rintro ⟨checked, -⟩ t read
    by_contra uncountable
    simp only [parseLocomoDatetimeChecked, read,
      daysFromCivilChecked_eq (dateTokens_checked read)] at checked
    rw [DateTokens.count] at uncountable
    rw [if_neg uncountable] at checked
    simp at checked
  · intro countable
    constructor
    · rw [parseLocomoDatetime_eq]
      unfold parseLocomoDatetimeChecked
      split
      next read => rw [read, Option.bind_none]
      next t read =>
        have inside : Countable (dayCount t.year.toInt t.month.toNat t.day.toNat) :=
          countable t read
        rw [read, daysFromCivilChecked_eq (dateTokens_checked read), if_pos inside,
          Option.map_some, Option.bind_some]
    · intro nanos parsed
      rw [parseLocomoDatetime_eq, Option.bind_eq_some_iff] at parsed
      obtain ⟨t, read, midnight⟩ := parsed
      have stamp := (midnightOf_eq_some.mp midnight).2.2
      rw [toInt_of_countable (dateTokens_checked read) (countable t read)] at stamp
      exact ⟨t, read, stamp⟩

theorem far_year_tokens :
    dateTokens "1 March 50505469855535079" =
      some { day := 1, month := 3, year := 50505469855535079 } :=
  @dateTokens_eq "1 March 50505469855535079" "1 March 50505469855535079".toList "1".toList
    "March".toList "50505469855535079".toList 1 3 50505469855535079
    (by decide +kernel) (by decide +kernel) (by decide +kernel) (by decide +kernel)
    (by decide +kernel) ⟨by decide, by decide, by decide, by decide⟩

-- A year whose days wrap to the eighth of January 1970.
theorem far_year_overflows :
    parseLocomoDatetimeChecked "1 March 50505469855535079" = none ∧
      parseLocomoDatetime "1 March 50505469855535079" = some (7 * nanosPerDay) ∧
      ¬NeverOverflows "1 March 50505469855535079" := by
  have uncountable : ¬Countable (dayCount 50505469855535079 3 1) := by decide
  have panicked : parseLocomoDatetimeChecked "1 March 50505469855535079" = none := by
    simp only [parseLocomoDatetimeChecked, far_year_tokens,
      daysFromCivilChecked_eq (dateTokens_checked far_year_tokens)]
    exact congrArg (Option.map midnightOf) (if_neg uncountable)
  refine ⟨panicked, ?_, fun exact => absurd (panicked.symm.trans exact.checked) (by simp)⟩
  exact parseLocomoDatetime_eq_some.mpr ⟨_, far_year_tokens, by decide, by decide⟩

end BrainEval.Locomo
