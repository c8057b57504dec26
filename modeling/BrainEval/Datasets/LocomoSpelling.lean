import Mathlib
import BrainEval.Datasets.LocomoDate

set_option autoImplicit false

namespace BrainEval.Locomo

open RustStr Words Calendar

def monthNames : Nat → List String
  | 1 => ["january", "jan"]
  | 2 => ["february", "feb"]
  | 3 => ["march", "mar"]
  | 4 => ["april", "apr"]
  | 5 => ["may"]
  | 6 => ["june", "jun"]
  | 7 => ["july", "jul"]
  | 8 => ["august", "aug"]
  | 9 => ["september", "sep", "sept"]
  | 10 => ["october", "oct"]
  | 11 => ["november", "nov"]
  | 12 => ["december", "dec"]
  | _ => []

def AllBlank (cs : List Char) : Prop := ∀ c ∈ cs, isWhitespace c = true

/-- A way to write a date, after a clock time or alone; the month by any of its names in any
case, with commas after it or without. -/
structure Spelling (d : Date) where
  clock : Option String
  lead : List Char
  day : List Char
  dayGap : List Char
  month : List Char
  commas : List Char
  monthGap : List Char
  year : List Char
  trail : List Char
  lead_blank : AllBlank lead
  day_reads : fromStrRadix 10 (2 ^ 32 - 1) day = some d.day
  dayGap_blank : AllBlank dayGap
  dayGap_some : dayGap ≠ []
  month_named : toAsciiLowercase (String.ofList month) ∈ monthNames d.month
  only_commas : ∀ c ∈ commas, c = ','
  monthGap_blank : AllBlank monthGap
  monthGap_some : monthGap ≠ []
  year_reads : ∃ y, parseI64 year = some y ∧ y.toInt = d.year
  trail_blank : AllBlank trail

namespace Spelling

variable {d : Date} (w : Spelling d)

def date : List Char :=
  w.lead ++ (w.day ++ (w.dayGap ++ (w.month ++ w.commas ++ (w.monthGap ++ (w.year ++ w.trail)))))

def chars : List Char :=
  match w.clock with
  | some clock => clock.toList ++ (" on ".toList ++ w.date)
  | none => w.date

def text : String := String.ofList w.chars

end Spelling

section Month

variable {k : Nat}

theorem monthFromName_of_mem {name : String} (named : toAsciiLowercase name ∈ monthNames k) :
    monthFromName name = some (UInt32.ofNat k) := by
  unfold monthFromName
  unfold monthNames at named
  split at named <;> simp only [List.mem_cons, List.not_mem_nil, or_false] at named
  case h_5 => simp [named]
  case h_9 => rcases named with named | named | named <;> simp [named]
  all_goals rcases named with named | named <;> simp [named]

theorem letters_of_mem {name : String} (named : name ∈ monthNames k) :
    name ≠ "" ∧ name ≠ "on" ∧
      name.toList.all (fun c => !isWhitespace c && c != ',') = true := by
  unfold monthNames at named
  split at named <;> simp only [List.mem_cons, List.not_mem_nil, or_false] at named
  all_goals rcases named with rfl | rfl | rfl <;> decide +kernel

end Month

section Tokens

variable {d : Date} (w : Spelling d)

theorem day_solid : ∀ c ∈ w.day, isWhitespace c = false := solid_of_fromStrRadix w.day_reads

theorem day_some : w.day ≠ [] := by
  intro empty
  have reads := w.day_reads
  rw [empty] at reads
  simp [fromStrRadix] at reads

theorem year_solid : ∀ c ∈ w.year, isWhitespace c = false := by
  obtain ⟨y, reads, _⟩ := w.year_reads
  exact solid_of_parseI64 reads

theorem year_some : w.year ≠ [] := by
  intro empty
  obtain ⟨y, reads, _⟩ := w.year_reads
  rw [empty] at reads
  simp [parseI64, fromStrRadix] at reads

-- The letters of a month's name, whatever their case.
theorem month_letters : ∀ c ∈ w.month, isWhitespace c = false ∧ c ≠ ',' := by
  obtain ⟨_, _, letters⟩ := letters_of_mem w.month_named
  intro c member
  have lower : c.toLower ∈ (toAsciiLowercase (String.ofList w.month)).toList := by
    rw [toList_toAsciiLowercase, String.toList_ofList]
    exact List.mem_map_of_mem member
  have letter := List.all_eq_true.mp letters _ lower
  rw [Bool.and_eq_true, Bool.not_eq_true', bne_iff_ne] at letter
  obtain ⟨solid, other⟩ := letter
  refine ⟨isWhitespace_toLower c ▸ solid, ?_⟩
  rintro rfl
  exact other rfl

theorem month_some : w.month ≠ [] := by
  intro empty
  have named := (letters_of_mem w.month_named).1
  rw [empty] at named
  exact named (by decide)

theorem monthTok_name : (w.month ++ w.commas).rdropWhile (· = ',') = w.month := by
  have commas : ∀ c ∈ w.commas.reverse, decide (c = ',') = true := by
    simpa using w.only_commas
  rw [List.rdropWhile, List.reverse_append, List.dropWhile_append_of_pos commas,
    List.dropWhile_eq_self_iff.mpr, List.reverse_reverse]
  intro long
  have last : w.month.reverse[0] ∈ w.month := List.mem_reverse.mp (List.getElem_mem long)
  simpa using (month_letters w _ last).2

theorem splitWhitespace_date :
    splitWhitespace w.date = [w.day, w.month ++ w.commas, w.year] := by
  have solid : ∀ c ∈ w.month ++ w.commas, isWhitespace c = false := by
    intro c member
    rcases List.mem_append.mp member with letter | comma
    · exact (month_letters w c letter).1
    · rw [w.only_commas c comma]
      decide
  have some : w.month ++ w.commas ≠ [] := List.append_ne_nil_of_left_ne_nil (month_some w) _
  change words isWhitespace w.date = _
  rw [Spelling.date, words_blank_append w.lead_blank,
    words_word_append w.dayGap_blank (day_some w) (day_solid w) w.dayGap_some,
    words_word_append w.monthGap_blank some solid w.monthGap_some,
    words_append_blank w.trail_blank, words_of_solid (year_some w) (year_solid w)]

theorem separator_chars : " on ".toList = ' ' :: (['o', 'n'] ++ [' ']) := by decide

-- A second separator would make `on` one of the three words.
theorem no_separator : ¬" on ".toList <:+: ' ' :: w.date := by
  intro inside
  rw [separator_chars] at inside
  have solid : ∀ c ∈ ['o', 'n'], isWhitespace c = false := by simp [isWhitespace]
  have word : ['o', 'n'] ∈ words isWhitespace (' ' :: w.date) :=
    mem_words_of_infix (by decide) solid (by decide) (by decide) inside
  rw [words_cons _ (by decide)] at word
  change _ ∈ splitWhitespace w.date at word
  rw [splitWhitespace_date, List.mem_cons, List.mem_cons, List.mem_singleton] at word
  rcases word with day | month | year
  · have unread : fromStrRadix 10 (2 ^ 32 - 1) ['o', 'n'] = none := by decide
    have reads := w.day_reads
    rw [← day, unread] at reads
    simp at reads
  · have name := monthTok_name w
    have named := (letters_of_mem w.month_named).2.1
    rw [← name, ← month] at named
    exact named (by decide)
  · have unread : parseI64 ['o', 'n'] = none := by decide
    obtain ⟨y, reads, _⟩ := w.year_reads
    rw [← year, unread] at reads
    simp at reads

theorem afterLast_chars : (afterLast " on ".toList w.chars).getD w.chars = w.date := by
  unfold Spelling.chars
  cases w.clock with
  | none =>
    have absent : ¬" on ".toList <:+: w.date :=
      fun inside => no_separator w (List.infix_cons inside)
    rw [afterLast_eq_none absent]
    rfl
  | some clock =>
    -- an occurrence that starts in the separator starts at its last blank
    have absent : ¬( ' ' :: ['o', 'n', ' '] <:+: ['o', 'n', ' '] ++ w.date) := by
      intro inside
      apply no_separator w
      rw [separator_chars]
      have first : (' ' : Char) ≠ 'o' ∧ (' ' : Char) ≠ 'n' := by decide
      simpa [List.infix_cons_iff, List.cons_prefix_cons, first] using inside
    have found : afterLast " on ".toList (clock.toList ++ (" on ".toList ++ w.date)) =
        some w.date := afterLast_append absent clock.toList
    simp only [found, Option.getD_some]

theorem dateTokens_text :
    ∃ t, dateTokens w.text = some t ∧ t.Names d := by
  obtain ⟨year, reads, same⟩ := w.year_reads
  have small : d.day < 2 ^ 32 := by
    have := d.day_le
    have := (monthLength_bounds d.year d.month).2
    omega
  have month : (UInt32.ofNat d.month).toNat = d.month :=
    UInt32.toNat_ofNat_of_lt' (d.month_le.trans_lt (by decide))
  have day : (UInt32.ofNat d.day).toNat = d.day := UInt32.toNat_ofNat_of_lt' small
  have checked : Checked (UInt32.ofNat d.month) (UInt32.ofNat d.day) := by
    have := (monthLength_bounds d.year d.month).2
    constructor
    · rw [month]
      exact d.month_pos
    · rw [month]
      exact d.month_le
    · rw [day]
      exact d.day_pos
    · rw [day]
      exact d.day_le.trans this
  have chars : w.text.toList = w.chars := String.toList_ofList
  have after := afterLast_chars w
  rw [← chars] at after
  refine ⟨_, dateTokens_eq after (splitWhitespace_date w) w.day_reads ?_ reads checked, ?_⟩
  · rw [monthTok_name]
    exact monthFromName_of_mem w.month_named
  · exact ⟨same.symm, month.symm, day.symm⟩

theorem parse_text {n : Nat} (after : d.After n) (fits : nanosPerDay * n < 2 ^ 63) :
    parseLocomoDatetime w.text = some (nanosPerDay * n) := by
  obtain ⟨t, read, names⟩ := dateTokens_text w
  have count : t.count = n := by rw [← names.count, after.count]
  have window : n ≤ 106751 := by
    unfold nanosPerDay at fits
    omega
  have small : t.count % 2 ^ 64 = n := by
    rw [count]
    omega
  refine parseLocomoDatetime_eq_some.mpr ⟨t, read, ?_, ?_⟩
  · rw [small]
    exact_mod_cast window
  · rw [small]
    push_cast
    rfl

end Tokens

theorem parse_real_dates {d : Date} (since : 1970 ≤ d.year) :
    ∃ n, d.After n ∧ (nanosPerDay * n < 2 ^ 63 →
      (∀ w : Spelling d, parseLocomoDatetime w.text = some (nanosPerDay * n)) ∧
      ∀ e k, Date.After e k → nanosPerDay * k < 2 ^ 63 → d < e →
        ∀ (w : Spelling d) (v : Spelling e), ∃ t u, parseLocomoDatetime w.text = some t ∧
          parseLocomoDatetime v.text = some u ∧ t < u) := by
  obtain ⟨n, after⟩ := d.exists_after since
  refine ⟨n, after, fun fits => ⟨fun w => parse_text w after fits, ?_⟩⟩
  intro e k later fits' less w v
  refine ⟨_, _, parse_text w after fits, parse_text v later fits', ?_⟩
  exact Nat.mul_lt_mul_of_pos_left ((after.lt_iff later).mp less) (by decide)

def eighthOfMay : Date := ⟨2023, 5, 8, by decide, by decide, by decide, by decide⟩

theorem exists_spelling : ∃ w : Spelling eighthOfMay, w.text = "1:56 pm on 8 May, 2023" := by
  refine ⟨{ clock := some "1:56 pm", lead := [], day := ['8'], dayGap := [' ']
            month := ['M', 'a', 'y'], commas := [','], monthGap := [' ']
            year := ['2', '0', '2', '3'], trail := []
            lead_blank := by simp [AllBlank]
            day_reads := by decide
            dayGap_blank := by simp [AllBlank, isWhitespace]
            dayGap_some := by simp
            month_named := by decide +kernel
            only_commas := by simp
            monthGap_blank := by simp [AllBlank, isWhitespace]
            monthGap_some := by simp
            year_reads := ⟨2023, by decide, by decide⟩
            trail_blank := by simp [AllBlank] }, ?_⟩
  decide +kernel

theorem eighth_of_may_read :
    parseLocomoDatetime "1:56 pm on 8 May, 2023" = some 1683504000000000000 := by
  obtain ⟨n, after, reads⟩ := @parse_real_dates eighthOfMay (by decide)
  have days : n = 19485 := by
    have count : eighthOfMay.count = 19485 := by decide
    have same := after.count
    omega
  subst days
  obtain ⟨w, text⟩ := exists_spelling
  rw [← text]
  exact (reads (by decide)).1 w

end BrainEval.Locomo
