import Mathlib

set_option autoImplicit false

namespace Calendar

def IsLeap (year : ℤ) : Prop := 4 ∣ year ∧ (¬100 ∣ year ∨ 400 ∣ year)

instance (year : ℤ) : Decidable (IsLeap year) :=
  inferInstanceAs (Decidable (4 ∣ year ∧ (¬100 ∣ year ∨ 400 ∣ year)))

def monthLength (year : ℤ) : ℕ → ℕ
  | 2 => if IsLeap year then 29 else 28
  | 4 | 6 | 9 | 11 => 30
  | _ => 31

/-- A day of the Gregorian calendar, carried back before its introduction. -/
@[ext]
structure Date where
  year : ℤ
  month : ℕ
  day : ℕ
  month_pos : 1 ≤ month
  month_le : month ≤ 12
  day_pos : 1 ≤ day
  day_le : day ≤ monthLength year month

theorem monthLength_bounds (year : ℤ) (month : ℕ) :
    28 ≤ monthLength year month ∧ monthLength year month ≤ 31 := by
  unfold monthLength
  split
  next => split <;> decide
  all_goals decide

theorem one_le_monthLength (year : ℤ) (month : ℕ) : 1 ≤ monthLength year month :=
  (by decide : 1 ≤ 28).trans (monthLength_bounds year month).1

def epoch : Date := ⟨1970, 1, 1, by decide, by decide, by decide, by decide⟩

def Date.next (d : Date) : Date :=
  if within : d.day < monthLength d.year d.month then
    ⟨d.year, d.month, d.day + 1, d.month_pos, d.month_le, Nat.le_add_left 1 _, within⟩
  else if inside : d.month < 12 then
    ⟨d.year, d.month + 1, 1, Nat.le_add_left 1 _, inside, le_refl 1, one_le_monthLength _ _⟩
  else ⟨d.year + 1, 1, 1, le_refl 1, by decide, le_refl 1, one_le_monthLength _ _⟩

def Date.toLexKey (d : Date) : ℤ ×ₗ ℕ ×ₗ ℕ := toLex (d.year, toLex (d.month, d.day))

theorem Date.toLexKey_injective : Function.Injective Date.toLexKey := by
  intro a b same
  simp only [Date.toLexKey, EmbeddingLike.apply_eq_iff_eq, Prod.mk.injEq] at same
  exact Date.ext same.1 same.2.1 same.2.2

instance : LinearOrder Date := LinearOrder.lift' Date.toLexKey Date.toLexKey_injective

theorem Date.lt_iff {a b : Date} :
    a < b ↔ a.year < b.year ∨ a.year = b.year ∧
      (a.month < b.month ∨ a.month = b.month ∧ a.day < b.day) := by
  change a.toLexKey < b.toLexKey ↔ _
  simp [Date.toLexKey, Prod.Lex.toLex_lt_toLex]

theorem Date.lt_next (d : Date) : d < d.next := by
  rw [Date.lt_iff]
  unfold Date.next
  split_ifs <;> simp

theorem strictMono_iterate_next (d : Date) : StrictMono fun n => Date.next^[n] d := by
  apply strictMono_nat_of_lt_succ
  intro n
  rw [Function.iterate_succ_apply']
  exact Date.lt_next _

-- The year that starts in March, so that a leap day is the last of its year.
def marchYear (year : ℤ) (month : ℕ) : ℤ := if month ≤ 2 then year - 1 else year

def marchDay (month day : ℕ) : ℕ :=
  (153 * (if 2 < month then month - 3 else month + 9) + 2) / 5 + day - 1

/-- The number of a day, counted from the epoch. -/
def dayCount (year : ℤ) (month day : ℕ) : ℤ :=
  let y := marchYear year month
  365 * y + y / 4 - y / 100 + y / 400 + marchDay month day - 719468

-- The days of an era's full years before one of them, and of that year before a day.
def dayOfEra (yoe doy : ℤ) : ℤ := yoe * 365 + yoe / 4 - yoe / 100 + doy

-- Four hundred years have the same days in every era.
theorem dayCount_eq_era (year : ℤ) (month day : ℕ) :
    dayCount year month day =
      marchYear year month / 400 * 146097 +
        dayOfEra (marchYear year month % 400) (marchDay month day) - 719468 := by
  simp only [dayCount, dayOfEra]
  omega

theorem dayOfEra_bounds {yoe doy : ℤ} (low : 0 ≤ yoe) (first : 0 ≤ doy) (last : doy ≤ 367) :
    0 ≤ dayOfEra yoe doy ∧ dayOfEra yoe doy ≤ 366 * yoe + 367 := by
  unfold dayOfEra
  omega

def Date.count (d : Date) : ℤ := dayCount d.year d.month d.day

theorem count_epoch : epoch.count = 0 := by decide

theorem dayCount_succ (year : ℤ) (month : ℕ) {day : ℕ} (pos : 1 ≤ day) :
    dayCount year month (day + 1) = dayCount year month day + 1 := by
  simp only [dayCount, marchDay]
  omega

-- The first of a month is one day after the last of the month before.
theorem dayCount_nextMonth {year : ℤ} {month : ℕ} (pos : 1 ≤ month) (inside : month < 12) :
    dayCount year (month + 1) 1 = dayCount year month (monthLength year month) + 1 := by
  by_cases february : month = 2
  next =>
    subst february
    by_cases leap : IsLeap year
    next =>
      have rule := leap
      simp only [monthLength, if_pos leap, dayCount, marchYear, marchDay]
      unfold IsLeap at rule
      norm_num
      omega
    next =>
      have rule := leap
      simp only [monthLength, if_neg leap, dayCount, marchYear, marchDay]
      unfold IsLeap at rule
      norm_num
      omega
  next =>
    interval_cases month <;> simp_all [monthLength, dayCount, marchYear, marchDay] <;> omega

theorem dayCount_nextYear (year : ℤ) : dayCount (year + 1) 1 1 = dayCount year 12 31 + 1 := by
  simp only [dayCount, marchYear, marchDay]
  norm_num
  omega

theorem Date.count_next (d : Date) : d.next.count = d.count + 1 := by
  unfold Date.next Date.count
  split_ifs with within inside
  · exact dayCount_succ _ _ d.day_pos
  · have last : d.day = monthLength d.year d.month := le_antisymm d.day_le (not_lt.mp within)
    rw [last]
    exact dayCount_nextMonth d.month_pos inside
  · have december : d.month = 12 := le_antisymm d.month_le (not_lt.mp inside)
    have last : d.day = monthLength d.year d.month := le_antisymm d.day_le (not_lt.mp within)
    have whole : monthLength d.year 12 = 31 := rfl
    rw [last, december, whole]
    exact dayCount_nextYear d.year

theorem count_iterate (n : ℕ) : (Date.next^[n] epoch).count = n := by
  induction n with
  | zero => exact count_epoch
  | succ n ih =>
    rw [Function.iterate_succ_apply', Date.count_next, ih]
    norm_cast

section Reach

def Date.After (d : Date) (n : ℕ) : Prop := Date.next^[n] epoch = d

theorem Date.After.count {d : Date} {n : ℕ} (after : d.After n) : d.count = n := by
  rw [← after, count_iterate]

theorem Date.After.lt_iff {a b : Date} {n k : ℕ} (first : a.After n) (second : b.After k) :
    a < b ↔ n < k := by
  rw [← first, ← second]
  exact (strictMono_iterate_next epoch).lt_iff_lt

def Reached (year : ℤ) (month day : ℕ) : Prop :=
  ∃ n d, Date.After d n ∧ d.year = year ∧ d.month = month ∧ d.day = day

variable {year : ℤ} {month day : ℕ}

theorem Date.After.tomorrow {d : Date} {n : ℕ} (after : d.After n) : d.next.After (n + 1) := by
  rw [Date.After, Function.iterate_succ_apply', after]

theorem Reached.tomorrow (reached : Reached year month day)
    (within : day < monthLength year month) : Reached year month (day + 1) := by
  obtain ⟨n, d, after, rfl, rfl, rfl⟩ := reached
  refine ⟨n + 1, d.next, after.tomorrow, ?_⟩
  simp [Date.next, within]

theorem Reached.nextMonth (reached : Reached year month (monthLength year month))
    (inside : month < 12) : Reached year (month + 1) 1 := by
  obtain ⟨n, d, after, rfl, rfl, last⟩ := reached
  refine ⟨n + 1, d.next, after.tomorrow, ?_⟩
  simp [Date.next, last, inside]

theorem Reached.nextYear (reached : Reached year 12 31) : Reached (year + 1) 1 1 := by
  obtain ⟨n, d, after, rfl, month, last⟩ := reached
  have whole : monthLength d.year 12 = 31 := rfl
  refine ⟨n + 1, d.next, after.tomorrow, ?_⟩
  simp [Date.next, last, month, whole]

theorem Reached.inMonth (first : Reached year month 1) {k : ℕ}
    (valid : k + 1 ≤ monthLength year month) : Reached year month (k + 1) := by
  induction k with
  | zero => exact first
  | succ k ih => exact (ih (Nat.le_of_succ_le valid)).tomorrow valid

theorem Reached.last (first : Reached year month 1) :
    Reached year month (monthLength year month) := by
  obtain ⟨k, length⟩ := Nat.exists_eq_add_of_le' (one_le_monthLength year month)
  rw [length]
  exact first.inMonth length.ge

theorem Reached.inYear (first : Reached year 1 1) {k : ℕ} (valid : k + 1 ≤ 12) :
    Reached year (k + 1) 1 := by
  induction k with
  | zero => exact first
  | succ k ih => exact (ih (Nat.le_of_succ_le valid)).last.nextMonth valid

theorem reached_newYear (since : 1970 ≤ year) : Reached year 1 1 := by
  induction year, since using Int.leInduction with
  | base => exact ⟨0, epoch, rfl, rfl, rfl, rfl⟩
  | succ year since ih => exact (ih.inYear (k := 11) (by decide)).last.nextYear

theorem Date.exists_after (d : Date) (since : 1970 ≤ d.year) : ∃ n, d.After n := by
  obtain ⟨m, month⟩ := Nat.exists_eq_add_of_le' d.month_pos
  obtain ⟨k, day⟩ := Nat.exists_eq_add_of_le' d.day_pos
  have monthly : Reached d.year d.month 1 :=
    month ▸ (reached_newYear since).inYear (month ▸ d.month_le)
  obtain ⟨n, e, after, sameYear, sameMonth, sameDay⟩ :=
    monthly.inMonth (k := k) (day ▸ d.day_le)
  have same : e = d := Date.ext sameYear sameMonth (sameDay.trans day.symm)
  exact ⟨n, same ▸ after⟩

end Reach

section Range

variable {year : ℤ} {month day : ℕ} (pos : 1 ≤ month) (le : month ≤ 12) (first : 1 ≤ day)
  (last : day ≤ 31)

include pos le first last

theorem marchDay_bounds :
    (month ≤ 2 ∧ 306 ≤ marchDay month day ∧ marchDay month day ≤ 367) ∨
      (2 < month ∧ marchDay month day ≤ 305) := by
  unfold marchDay
  split <;> omega

theorem since_epoch (nonneg : 0 ≤ dayCount year month day) : 1970 ≤ year := by
  rcases marchDay_bounds pos le first last with ⟨early, low, high⟩ | ⟨late, high⟩
  next =>
    simp only [dayCount, marchYear, if_pos early] at nonneg
    omega
  next =>
    simp only [dayCount, marchYear, if_neg (Nat.not_le.mpr late)] at nonneg
    omega

end Range

end Calendar
