import Mathlib
import BrainEval.Lib.Occurrence

set_option autoImplicit false

namespace RustStr

-- `char::is_whitespace`: the `White_Space` property.
def isWhitespace (c : Char) : Bool :=
  let n := c.toNat
  (0x09 ≤ n && n ≤ 0x0d) || n == 0x20 || n == 0x85 || n == 0xa0 || n == 0x1680 ||
    (0x2000 ≤ n && n ≤ 0x200a) || n == 0x2028 || n == 0x2029 || n == 0x202f || n == 0x205f ||
    n == 0x3000

def trimChars (cs : List Char) : List Char :=
  (cs.dropWhile isWhitespace).rdropWhile isWhitespace

def trim (s : String) : String := String.ofList (trimChars s.toList)

def contains (s pattern : String) : Bool := decide (pattern.toList <:+: s.toList)

-- `Char.toLower` moves the ASCII capitals only.
def toAsciiLowercase (s : String) : String := String.ofList (s.toList.map Char.toLower)

def stripPrefix (s start : String) : Option String :=
  if start.toList <+: s.toList then some (String.ofList (s.toList.drop start.toList.length))
  else none

def stripSuffix (s tail : String) : Option String :=
  if tail.toList <:+ s.toList then
    some (String.ofList (s.toList.take (s.toList.length - tail.toList.length)))
  else none

def dropBytes : List Char → Nat → Option (List Char)
  | cs, 0 => some cs
  | [], _ + 1 => none
  | c :: cs, n => if c.utf8Size ≤ n then dropBytes cs (n - c.utf8Size) else none

def takeBytes : List Char → Nat → Option (List Char)
  | _, 0 => some []
  | [], _ + 1 => none
  | c :: cs, n =>
    if c.utf8Size ≤ n then (takeBytes cs (n - c.utf8Size)).map (c :: ·) else none

-- `str::get(start..stop)`: both ends lie on character boundaries.
def getBytes (s : String) (start stop : Nat) : Option (List Char) :=
  (dropBytes s.toList start).bind (takeBytes · (stop - start))

-- `str::find` and `str::rfind` of one character: byte offsets.
def find (c : Char) : List Char → Option Nat
  | [] => none
  | d :: cs => if d = c then some 0 else (find c cs).map (d.utf8Size + ·)

def rfind (c : Char) : List Char → Option Nat
  | [] => none
  | d :: cs =>
    match rfind c cs with
    | some i => some (d.utf8Size + i)
    | none => if d = c then some 0 else none

def afterLast (pattern : List Char) : List Char → Option (List Char)
  | [] => none
  | c :: cs =>
    match afterLast pattern cs with
    | some rest => some rest
    | none => if pattern <+: c :: cs then some ((c :: cs).drop pattern.length) else none

def splitWhitespace (cs : List Char) : List (List Char) :=
  (cs.splitOnP isWhitespace).filter (· ≠ [])

def toDigit (radix : Nat) (c : Char) : Option Nat :=
  let n := c.toNat
  let value :=
    if '0'.toNat ≤ n ∧ n ≤ '9'.toNat then n - '0'.toNat
    else if 'a'.toNat ≤ n ∧ n ≤ 'z'.toNat then n - 'a'.toNat + 10
    else if 'A'.toNat ≤ n ∧ n ≤ 'Z'.toNat then n - 'A'.toNat + 10
    else radix
  if value < radix then some value else none

def radixValue (radix bound : Nat) (digits : List Char) : Option Nat :=
  digits.foldlM (fun value c => do
    let next := value * radix + (← toDigit radix c)
    if next ≤ bound then some next else none) 0

-- `from_str_radix` of an unsigned type with largest value `bound`: one leading plus is allowed.
def fromStrRadix (radix bound : Nat) : List Char → Option Nat
  | [] => none
  | ['+'] => none
  | '+' :: digits => radixValue radix bound digits
  | digits => radixValue radix bound digits

def parseI64 : List Char → Option Int64
  | '-' :: digits =>
    if digits = [] then none
    else (radixValue 10 (2 ^ 63) digits).map fun n => Int64.ofInt (-(n : Int))
  | digits => (fromStrRadix 10 (2 ^ 63 - 1) digits).map Int64.ofNat

def signed : List Char → Bool × List Char
  | '-' :: rest => (true, rest)
  | '+' :: rest => (false, rest)
  | rest => (false, rest)

def parseExponent : List Char → Option Int
  | [] => some 0
  | e :: rest =>
    let (negative, digits) := signed rest
    if (e = 'e' ∨ e = 'E') ∧ digits ≠ [] ∧ digits.all Char.isDigit then
      let n := Nat.ofDigitChars 10 digits 0
      some (if negative then -(n : Int) else n)
    else none

def parseDecimal (cs : List Char) : Option Float :=
  let (whole, rest) := cs.span Char.isDigit
  let (fraction, rest) :=
    match rest with
    | '.' :: rest => rest.span Char.isDigit
    | _ => ([], rest)
  if whole ++ fraction = [] then none
  else
    (parseExponent rest).map fun e =>
      let exponent : Int := e - fraction.length
      Float.ofScientific (Nat.ofDigitChars 10 (whole ++ fraction) 0) (decide (exponent < 0))
        exponent.natAbs

-- `str::parse::<f64>`
def parseF64 (cs : List Char) : Option Float :=
  let (negative, rest) := signed cs
  let magnitude :=
    match String.ofList (rest.map Char.toLower) with
    | "inf" | "infinity" => some (1.0 / 0.0)
    | "nan" => some (0.0 / 0.0)
    | _ => parseDecimal rest
  magnitude.map fun x => if negative then -x else x

-- The nearest whole number, a tie going to the even one.
def roundTiesEven (q : ℚ) : Nat :=
  let whole := q.floor.toNat
  let rest := q - whole
  if 1 / 2 < rest || (rest == 1 / 2 && whole % 2 == 1) then whole + 1 else whole

-- What `f64` makes of a quotient that is not negative and of the normal range.
def nearestF64 (q : ℚ) : ℚ :=
  if q ≤ 0 then 0
  else
    let guess : Int := Nat.log2 q.num.natAbs - Nat.log2 q.den
    let exponent := if (2 : ℚ) ^ guess ≤ q then guess else guess - 1
    let ulp : ℚ := 2 ^ (exponent - 52)
    roundTiesEven (q / ulp) * ulp

-- `format!("{:.2}")` of a number that is not negative, which is printed from its exact value.
def formatFixed2 (x : ℚ) : String :=
  let cents := roundTiesEven (x * 100)
  toString (cents / 100) ++ "." ++ toString (cents % 100 / 10) ++ toString (cents % 10)

-- As a binary fraction the first is above the middle of its cents, and the second is the middle.
example : formatFixed2 (nearestF64 (1 / 40)) = "0.03" ∧
    formatFixed2 (nearestF64 (1 / 8)) = "0.12" := by decide +kernel

/-- The Unicode tables the toolchain ships; on ASCII every version is `Char.toLower`. -/
structure UnicodeData where
  lower : Char → List Char
  cased : Char → Bool
  caseIgnorable : Char → Bool
  lower_ascii : ∀ c : Char, c.toNat < 0x80 → lower c = [c.toLower]

def UnicodeData.ascii : UnicodeData where
  lower c := [c.toLower]
  cased c := c.isAlpha
  caseIgnorable _ := false
  lower_ascii _ _ := rfl

def ignorableThenCased (U : UnicodeData) (cs : List Char) : Bool :=
  match cs.dropWhile U.caseIgnorable with
  | c :: _ => U.cased c
  | [] => false

-- A capital sigma ends a word when a cased letter precedes it and none follows.
def lowerFrom (U : UnicodeData) : List Char → List Char → List Char
  | _, [] => []
  | before, c :: rest =>
    (if c = 'Σ' then
      [if ignorableThenCased U before && !ignorableThenCased U rest then 'ς' else 'σ']
    else U.lower c) ++ lowerFrom U (c :: before) rest

-- `str::to_lowercase`, over the Unicode tables `U`.
def toLowercase (U : UnicodeData) (s : String) : String := String.ofList (lowerFrom U [] s.toList)

theorem utf8ByteSize_ofList_cons (c : Char) (cs : List Char) :
    (String.ofList (c :: cs)).utf8ByteSize = c.utf8Size + (String.ofList cs).utf8ByteSize := by
  have split : String.ofList (c :: cs) = String.singleton c ++ String.ofList cs := by
    rw [String.singleton_eq_ofList, ← String.ofList_append]
    rfl
  rw [split, String.utf8ByteSize_append, String.utf8ByteSize_singleton]

section Offset

def byteLen (cs : List Char) : Nat := (cs.map Char.utf8Size).sum

@[simp] theorem byteLen_nil : byteLen [] = 0 := rfl

@[simp] theorem byteLen_cons (c : Char) (cs : List Char) :
    byteLen (c :: cs) = c.utf8Size + byteLen cs := by
  simp [byteLen]

@[simp] theorem byteLen_append (front back : List Char) :
    byteLen (front ++ back) = byteLen front + byteLen back := by
  simp [byteLen]

theorem byteLen_eq_zero {cs : List Char} : byteLen cs = 0 ↔ cs = [] := by
  cases cs with
  | nil => simp
  | cons c cs => simp [c.utf8Size_pos.ne']

theorem dropBytes_cons (c : Char) (cs : List Char) (n : Nat) :
    dropBytes (c :: cs) (c.utf8Size + n) = dropBytes cs n := by
  obtain ⟨m, size⟩ := Nat.exists_eq_add_one_of_ne_zero c.utf8Size_pos.ne'
  have whole : c.utf8Size + n = m + n + 1 := by omega
  have fits : c.utf8Size ≤ m + n + 1 := by omega
  rw [whole, dropBytes, if_pos fits, ← whole, Nat.add_sub_cancel_left]
  simp

@[simp] theorem takeBytes_zero (cs : List Char) : takeBytes cs 0 = some [] := by
  cases cs <;> rfl

theorem takeBytes_cons (c : Char) (cs : List Char) (n : Nat) :
    takeBytes (c :: cs) (c.utf8Size + n) = (takeBytes cs n).map (c :: ·) := by
  obtain ⟨m, size⟩ := Nat.exists_eq_add_one_of_ne_zero c.utf8Size_pos.ne'
  have whole : c.utf8Size + n = m + n + 1 := by omega
  have fits : c.utf8Size ≤ m + n + 1 := by omega
  rw [whole, takeBytes, if_pos fits, ← whole, Nat.add_sub_cancel_left]
  simp

@[simp] theorem dropBytes_append (front back : List Char) :
    dropBytes (front ++ back) (byteLen front) = some back := by
  induction front with
  | nil => cases back <;> rfl
  | cons c front ih => rw [List.cons_append, byteLen_cons, dropBytes_cons, ih]

@[simp] theorem takeBytes_append (front back : List Char) :
    takeBytes (front ++ back) (byteLen front) = some front := by
  induction front with
  | nil => exact takeBytes_zero back
  | cons c front ih => rw [List.cons_append, byteLen_cons, takeBytes_cons, ih, Option.map_some]

theorem takeBytes_eq_some_iff {cs kept : List Char} {n : Nat} :
    takeBytes cs n = some kept ↔ ∃ rest, cs = kept ++ rest ∧ byteLen kept = n := by
  constructor
  next =>
    intro taken
    induction cs generalizing n kept with
    | nil =>
      cases n with
      | zero =>
        obtain rfl : [] = kept := by simpa [takeBytes] using taken
        exact ⟨[], rfl, rfl⟩
      | succ n => simp [takeBytes] at taken
    | cons c cs ih =>
      cases n with
      | zero =>
        obtain rfl : [] = kept := by simpa [takeBytes] using taken
        exact ⟨c :: cs, rfl, rfl⟩
      | succ n =>
        simp only [takeBytes, Option.ite_none_right_eq_some, Option.map_eq_some_iff] at taken
        obtain ⟨fits, front, taken, rfl⟩ := taken
        obtain ⟨rest, rfl, size⟩ := ih taken
        exact ⟨rest, rfl, by rw [byteLen_cons, size]; omega⟩
  next =>
    rintro ⟨rest, rfl, rfl⟩
    exact takeBytes_append kept rest

-- A text between two others is the slice between their ends.
theorem getBytes_append {s : String} {front mid back : List Char}
    (text : s.toList = front ++ (mid ++ back)) :
    getBytes s (byteLen front) (byteLen front + byteLen mid) = some mid := by
  rw [getBytes, text, dropBytes_append, Option.bind_some, Nat.add_sub_cancel_left,
    takeBytes_append]

variable {c : Char} {cs : List Char}

theorem find_append {front back : List Char} (absent : c ∉ front) :
    find c (front ++ c :: back) = some (byteLen front) := by
  induction front with
  | nil => simp [find]
  | cons d front ih =>
    rw [List.mem_cons, not_or] at absent
    rw [List.cons_append, find, if_neg (Ne.symm absent.1), ih absent.2, Option.map_some,
      byteLen_cons]

theorem find_eq_none (absent : c ∉ cs) : find c cs = none := by
  induction cs with
  | nil => rfl
  | cons d cs ih =>
    rw [List.mem_cons, not_or] at absent
    rw [find, if_neg (Ne.symm absent.1), ih absent.2, Option.map_none]

theorem rfind_eq_none (absent : c ∉ cs) : rfind c cs = none := by
  induction cs with
  | nil => rfl
  | cons d cs ih =>
    rw [List.mem_cons, not_or] at absent
    rw [rfind, ih absent.2, if_neg (Ne.symm absent.1)]

theorem rfind_append {front back : List Char} (absent : c ∉ back) :
    rfind c (front ++ c :: back) = some (byteLen front) := by
  induction front with
  | nil => simp [rfind, rfind_eq_none absent]
  | cons d front ih => rw [List.cons_append, rfind, ih, byteLen_cons]

theorem find_cases (c : Char) (cs : List Char) :
    (c ∉ cs ∧ find c cs = none) ∨
      ∃ front back, cs = front ++ c :: back ∧ c ∉ front ∧ find c cs = some (byteLen front) := by
  by_cases listed : c ∈ cs
  next =>
    obtain ⟨front, back, rfl, absent⟩ := List.eq_append_cons_of_mem listed
    exact Or.inr ⟨front, back, rfl, absent, find_append absent⟩
  next => exact Or.inl ⟨listed, find_eq_none listed⟩

theorem rfind_cases (c : Char) (cs : List Char) :
    (c ∉ cs ∧ rfind c cs = none) ∨
      ∃ front back, cs = front ++ c :: back ∧ c ∉ back ∧ rfind c cs = some (byteLen front) := by
  by_cases listed : c ∈ cs
  next =>
    obtain ⟨back, front, same, absent⟩ :=
      List.eq_append_cons_of_mem (List.mem_reverse.mpr listed)
    have split : cs = front.reverse ++ c :: back.reverse := by
      simpa using congrArg List.reverse same
    have absent : c ∉ back.reverse := by rwa [List.mem_reverse]
    exact Or.inr ⟨_, _, split, absent, split ▸ rfind_append absent⟩
  next => exact Or.inl ⟨listed, rfind_eq_none listed⟩

end Offset

theorem utf8ByteSize_ofList (cs : List Char) : (String.ofList cs).utf8ByteSize = byteLen cs := by
  induction cs with
  | nil => simp
  | cons c cs ih => rw [utf8ByteSize_ofList_cons, ih, byteLen_cons]

section Narrow

-- Texts of one-byte characters, where byte offsets count characters.
variable {cs : List Char} (narrow : ∀ c ∈ cs, c.utf8Size = 1)

include narrow

theorem byteLen_narrow : byteLen cs = cs.length := by
  rw [byteLen, List.map_congr_left narrow]
  simp

theorem takeBytes_narrow {n : Nat} (within : n ≤ cs.length) :
    takeBytes cs n = some (cs.take n) := by
  refine takeBytes_eq_some_iff.mpr ⟨cs.drop n, (List.take_append_drop n cs).symm, ?_⟩
  rw [byteLen_narrow fun c member => narrow c (List.mem_of_mem_take member)]
  exact List.length_take_of_le within

theorem utf8ByteSize_narrow : (String.ofList cs).utf8ByteSize = cs.length := by
  rw [utf8ByteSize_ofList, byteLen_narrow narrow]

end Narrow

@[simp] theorem toList_toAsciiLowercase (s : String) :
    (toAsciiLowercase s).toList = s.toList.map Char.toLower := by
  simp [toAsciiLowercase]

theorem toAsciiLowercase_append (s t : String) :
    toAsciiLowercase (s ++ t) = toAsciiLowercase s ++ toAsciiLowercase t := by
  simp [toAsciiLowercase]

theorem contains_iff {s pattern : String} :
    contains s pattern = true ↔ pattern.toList <:+: s.toList := by
  simp [contains]

theorem contains_append {s pattern : String} (found : contains s pattern = true)
    (before after : String) : contains (before ++ s ++ after) pattern = true := by
  rw [contains_iff] at found ⊢
  rw [String.toList_append, String.toList_append]
  exact List.infix_append_of_infix_left (List.infix_append_of_infix_right found)

@[simp] theorem contains_empty (pattern : String) :
    contains "" pattern = decide (pattern = "") := by
  rw [contains, decide_eq_decide]
  simp [List.infix_nil, String.toList_eq_nil_iff]

@[simp] theorem trim_empty : trim "" = "" := by decide

@[simp] theorem toAsciiLowercase_empty : toAsciiLowercase "" = "" := by decide

theorem toAsciiLowercase_eq_empty {s : String} : toAsciiLowercase s = "" ↔ s = "" := by
  rw [← String.toList_eq_nil_iff, toList_toAsciiLowercase, List.map_eq_nil_iff,
    String.toList_eq_nil_iff]

theorem trimChars_trimChars (cs : List Char) : trimChars (trimChars cs) = trimChars cs := by
  have kept : (trimChars cs).dropWhile isWhitespace = trimChars cs := by
    rw [List.dropWhile_eq_self_iff]
    intro nonempty
    have start : trimChars cs <+: cs.dropWhile isWhitespace := List.rdropWhile_prefix _ _
    have longer := nonempty.trans_le start.length_le
    rw [start.getElem nonempty]
    exact List.dropWhile_get_zero_not _ _ longer
  rw [trimChars, kept, trimChars, List.rdropWhile_idempotent]

@[simp] theorem trim_trim (s : String) : trim (trim s) = trim s := by
  simp [trim, trimChars_trimChars]

theorem head_of_trimmed {x : Char} {cs : List Char} (trimmed : trimChars (x :: cs) = x :: cs) :
    isWhitespace x = false := by
  by_contra blank
  have shorter : (trimChars (x :: cs)).length ≤ cs.length := by
    rw [trimChars, List.dropWhile_cons_of_pos (by simpa using blank)]
    exact (List.rdropWhile_prefix _ _).length_le.trans (List.length_dropWhile_le _ _)
  rw [trimmed, List.length_cons] at shorter
  omega

theorem last_of_trimmed {x : Char} {cs : List Char} (trimmed : trimChars (cs ++ [x]) = cs ++ [x]) :
    isWhitespace x = false := by
  by_contra blank
  have whole : (cs ++ [x]).dropWhile isWhitespace = cs ++ [x] := by
    apply (List.dropWhile_suffix _).eq_of_length_le
    calc (cs ++ [x]).length = (trimChars (cs ++ [x])).length := by rw [trimmed]
      _ ≤ ((cs ++ [x]).dropWhile isWhitespace).length := (List.rdropWhile_prefix _ _).length_le
  have shorter : (trimChars (cs ++ [x])).length ≤ cs.length := by
    rw [trimChars, whole, List.rdropWhile_concat_pos _ _ _ (by simpa using blank)]
    exact (List.rdropWhile_prefix _ _).length_le
  rw [trimmed, List.length_append, List.length_singleton] at shorter
  omega

-- Trimming the text loses no occurrence of a trimmed pattern.
theorem contains_trim {s pattern : String} (trimmed : trim pattern = pattern) :
    contains (trim s) pattern = contains s pattern := by
  have trimmed : trimChars pattern.toList = pattern.toList := by
    simpa [trim] using congrArg String.toList trimmed
  rw [contains, contains, decide_eq_decide, trim, String.toList_ofList]
  generalize pattern.toList = cs at trimmed
  rcases List.eq_nil_or_concat cs with rfl | ⟨front, y, rfl⟩
  · simp
  · rw [List.concat_eq_append] at trimmed ⊢
    rw [trimChars, Occurrence.infix_rdropWhile_iff (last_of_trimmed trimmed)]
    obtain ⟨x, rest, first⟩ := List.exists_cons_of_ne_nil (l := front ++ [y]) (by simp)
    rw [first] at trimmed ⊢
    exact Occurrence.infix_dropWhile_iff (head_of_trimmed trimmed)

theorem isWhitespace_of_range {c : Char} (low : 0x21 ≤ c.toNat) (high : c.toNat ≤ 0x7e) :
    isWhitespace c = false := by
  simp only [isWhitespace]
  grind

theorem isAlphanum_range {c : Char} (alphanumeric : c.isAlphanum = true) :
    48 ≤ c.toNat ∧ c.toNat ≤ 122 := by
  simp only [Char.isAlphanum, Char.isAlpha, Char.isUpper, Char.isLower, Char.isDigit,
    Bool.or_eq_true, Bool.and_eq_true, decide_eq_true_eq, ge_iff_le, UInt32.le_iff_toNat_le]
    at alphanumeric
  change ((65 ≤ c.toNat ∧ c.toNat ≤ 90) ∨ 97 ≤ c.toNat ∧ c.toNat ≤ 122) ∨
    48 ≤ c.toNat ∧ c.toNat ≤ 57 at alphanumeric
  omega

theorem isWhitespace_of_isAlphanum {c : Char} (alphanumeric : c.isAlphanum = true) :
    isWhitespace c = false := by
  obtain ⟨low, high⟩ := isAlphanum_range alphanumeric
  exact isWhitespace_of_range (by omega) (by omega)

theorem toNat_toLower_of_capital {c : Char} (capital : c.val ≥ 'A'.val ∧ c.val ≤ 'Z'.val) :
    c.toLower.toNat = c.toNat + 0x20 := by
  have high : c.toNat ≤ 0x5a := capital.2
  rw [Char.toLower, dif_pos capital]
  change (c.val + ('a'.val - 'A'.val)).toNat = _
  rw [UInt32.toNat_add]
  exact Nat.mod_eq_of_lt (by change c.toNat + 0x20 < _; omega)

theorem isWhitespace_toLower (c : Char) : isWhitespace c.toLower = isWhitespace c := by
  by_cases capital : c.val ≥ 'A'.val ∧ c.val ≤ 'Z'.val
  · have low : 0x41 ≤ c.toNat := capital.1
    have high : c.toNat ≤ 0x5a := capital.2
    have moved := toNat_toLower_of_capital capital
    have before : isWhitespace c = false := isWhitespace_of_range (by omega) (by omega)
    have after : isWhitespace c.toLower = false := isWhitespace_of_range (by omega) (by omega)
    rw [before, after]
  · rw [Char.toLower, dif_neg capital]

theorem toAsciiLowercase_trim (s : String) :
    toAsciiLowercase (trim s) = trim (toAsciiLowercase s) := by
  have same : isWhitespace ∘ Char.toLower = isWhitespace := funext isWhitespace_toLower
  simp [toAsciiLowercase, trim, trimChars, List.rdropWhile, ← List.map_reverse, List.dropWhile_map,
    same]

theorem trim_toAsciiLowercase_trim (s : String) :
    trim (toAsciiLowercase (trim s)) = toAsciiLowercase (trim s) := by
  rw [← toAsciiLowercase_trim, trim_trim]

theorem utf8Size_of_ascii {c : Char} (ascii : c.toNat ≤ 0x7f) : c.utf8Size = 1 :=
  Char.utf8Size_eq_one_iff.mpr (UInt32.le_iff_toNat_le.mpr ascii)

theorem utf8Size_toLower (c : Char) : c.toLower.utf8Size = c.utf8Size := by
  by_cases capital : c.val ≥ 'A'.val ∧ c.val ≤ 'Z'.val
  · have high : c.toNat ≤ 0x5a := capital.2
    have moved := toNat_toLower_of_capital capital
    rw [utf8Size_of_ascii (by omega), utf8Size_of_ascii (by omega)]
  · rw [Char.toLower, dif_neg capital]

theorem utf8ByteSize_toAsciiLowercase (s : String) :
    (toAsciiLowercase s).utf8ByteSize = s.utf8ByteSize := by
  have sizes : Char.utf8Size ∘ Char.toLower = Char.utf8Size := funext utf8Size_toLower
  rw [toAsciiLowercase, utf8ByteSize_ofList, byteLen, List.map_map, sizes, ← byteLen,
    ← utf8ByteSize_ofList, String.ofList_toList]

theorem trimChars_eq_self {cs : List Char}
    (first : ∀ x, cs.head? = some x → isWhitespace x = false)
    (last : ∀ y, cs.getLast? = some y → isWhitespace y = false) : trimChars cs = cs := by
  have kept : cs.dropWhile isWhitespace = cs := by
    cases cs with
    | nil => rfl
    | cons x cs => exact List.dropWhile_cons_of_neg (by simp [first x rfl])
  rw [trimChars, kept, List.rdropWhile_eq_self_iff]
  intro nonempty
  simp [last _ (List.getLast?_eq_some_getLast nonempty)]

theorem trimChars_of_solid {cs : List Char} (solid : ∀ c ∈ cs, isWhitespace c = false) :
    trimChars cs = cs :=
  trimChars_eq_self (fun x first => solid x (List.mem_of_head? first)) fun y last =>
    solid y (List.mem_of_getLast? last)

section Blank

-- A line whose last token follows a blank.
variable {front token : List Char} {blank : Char} (white : isWhitespace blank = true)
  (solid : ∀ c ∈ token, isWhitespace c = false)

include white solid

theorem rdropWhile_blank :
    (front ++ blank :: token).rdropWhile (!isWhitespace ·) = front ++ [blank] := by
  have all : ∀ c ∈ token.reverse, (!isWhitespace c) = true := by simpa using solid
  rw [List.rdropWhile, List.reverse_append, List.reverse_cons, List.append_assoc,
    List.dropWhile_append_of_pos all, List.singleton_append,
    List.dropWhile_cons_of_neg (by simp [white])]
  simp

theorem rtakeWhile_blank : (front ++ blank :: token).rtakeWhile (!isWhitespace ·) = token := by
  have all : ∀ c ∈ token.reverse, (!isWhitespace c) = true := by simpa using solid
  rw [List.rtakeWhile, List.reverse_append, List.reverse_cons, List.append_assoc,
    List.takeWhile_append_of_pos all, List.singleton_append,
    List.takeWhile_cons_of_neg (by simp [white])]
  simp

end Blank

theorem exists_last_blank (cs : List Char) :
    (∀ c ∈ cs, isWhitespace c = false) ∨
      ∃ front blank token, cs = front ++ blank :: token ∧ isWhitespace blank = true ∧
        ∀ c ∈ token, isWhitespace c = false := by
  induction cs with
  | nil => exact Or.inl (by simp)
  | cons c cs ih =>
    rcases ih with solid | ⟨front, blank, token, rfl, white, solid⟩
    · by_cases here : isWhitespace c = true
      · exact Or.inr ⟨[], c, cs, rfl, here, solid⟩
      · exact Or.inl (List.forall_mem_cons.mpr ⟨by simpa using here, solid⟩)
    · exact Or.inr ⟨c :: front, blank, token, rfl, white, solid⟩

section Token

-- A line whose last token follows a single space.
variable {front token : List Char} (solid : ∀ c ∈ token, isWhitespace c = false)

include solid

theorem rdropWhile_token :
    (front ++ ' ' :: token).rdropWhile (!isWhitespace ·) = front ++ [' '] :=
  rdropWhile_blank (by decide) solid

theorem rtakeWhile_token : (front ++ ' ' :: token).rtakeWhile (!isWhitespace ·) = token :=
  rtakeWhile_blank (by decide) solid

end Token

theorem afterLast_eq_none {pattern cs : List Char} (absent : ¬pattern <:+: cs) :
    afterLast pattern cs = none := by
  induction cs with
  | nil => rfl
  | cons c cs ih =>
    have start : ¬pattern <+: c :: cs := fun first => absent first.isInfix
    have rest : ¬pattern <:+: cs := fun inside => absent (List.infix_cons inside)
    simp only [afterLast, ih rest, if_neg start]

-- Nothing after the first character of an occurrence begins another one.
theorem afterLast_append {c : Char} {pattern rest : List Char}
    (absent : ¬c :: pattern <:+: pattern ++ rest) (front : List Char) :
    afterLast (c :: pattern) (front ++ (c :: pattern ++ rest)) = some rest := by
  induction front with
  | nil =>
    have start : c :: pattern <+: c :: (pattern ++ rest) := List.prefix_append (c :: pattern) rest
    simp only [List.nil_append, List.cons_append, afterLast, afterLast_eq_none absent, if_pos start]
    simp
  | cons x front ih => simp only [List.cons_append, afterLast] at ih ⊢; rw [ih]

section Digits

variable {radix bound n : Nat}

theorem toDigit_range {c : Char} (digit : (toDigit radix c).isSome = true) :
    0x30 ≤ c.toNat ∧ c.toNat ≤ 0x7a := by
  by_contra outside
  have digits : ¬('0'.toNat ≤ c.toNat ∧ c.toNat ≤ '9'.toNat) :=
    fun inside => outside ⟨inside.1, inside.2.trans (by decide)⟩
  have small : ¬('a'.toNat ≤ c.toNat ∧ c.toNat ≤ 'z'.toNat) :=
    fun inside => outside ⟨le_trans (by decide) inside.1, inside.2⟩
  have capital : ¬('A'.toNat ≤ c.toNat ∧ c.toNat ≤ 'Z'.toNat) :=
    fun inside => outside ⟨le_trans (by decide) inside.1, inside.2.trans (by decide)⟩
  simp only [toDigit, if_neg digits, if_neg small, if_neg capital, lt_irrefl, if_false] at digit
  simp at digit

theorem radixValue_digits {digits : List Char}
    (read : radixValue radix bound digits = some n) :
    ∀ c ∈ digits, (toDigit radix c).isSome = true := by
  unfold radixValue at read
  generalize 0 = value at read
  induction digits generalizing value with
  | nil => simp
  | cons c digits ih =>
    rw [List.foldlM_cons] at read
    simp only [Option.bind_eq_bind, Option.bind_eq_some_iff] at read
    obtain ⟨next, ⟨digit, one, _⟩, rest⟩ := read
    exact List.forall_mem_cons.mpr ⟨by rw [one]; rfl, ih next rest⟩

theorem solid_of_radixValue {digits : List Char} (read : radixValue radix bound digits = some n) :
    ∀ c ∈ digits, isWhitespace c = false := by
  intro c member
  obtain ⟨low, high⟩ := toDigit_range (radixValue_digits read c member)
  exact isWhitespace_of_range (by omega) (by omega)

theorem solid_of_fromStrRadix {token : List Char}
    (read : fromStrRadix radix bound token = some n) : ∀ c ∈ token, isWhitespace c = false := by
  unfold fromStrRadix at read
  split at read
  next => simp at read
  next => simp at read
  next => exact List.forall_mem_cons.mpr ⟨by decide, solid_of_radixValue read⟩
  next => exact solid_of_radixValue read

theorem solid_of_parseI64 {token : List Char} {value : Int64}
    (read : parseI64 token = some value) : ∀ c ∈ token, isWhitespace c = false := by
  unfold parseI64 at read
  split at read
  next =>
    split at read
    next => simp at read
    next =>
      obtain ⟨k, cast, _⟩ := Option.map_eq_some_iff.mp read
      obtain ⟨m, digits, _⟩ := Option.bind_eq_some_iff.mp cast
      exact List.forall_mem_cons.mpr ⟨by decide, solid_of_radixValue digits⟩
  next =>
    obtain ⟨k, digits, _⟩ := Option.map_eq_some_iff.mp read
    exact solid_of_fromStrRadix digits

end Digits

theorem isWhitespace_of_isDigit {c : Char} (digit : c.isDigit = true) : isWhitespace c = false :=
  isWhitespace_of_isAlphanum (by simp [Char.isAlphanum, digit])

theorem solid_of_signed {cs : List Char} (solid : ∀ c ∈ (signed cs).2, isWhitespace c = false) :
    ∀ c ∈ cs, isWhitespace c = false := by
  unfold signed at solid
  split at solid
  next => exact List.forall_mem_cons.mpr ⟨by decide, solid⟩
  next => exact List.forall_mem_cons.mpr ⟨by decide, solid⟩
  next => exact solid

theorem solid_of_parseExponent {cs : List Char} {e : Int} (read : parseExponent cs = some e) :
    ∀ c ∈ cs, isWhitespace c = false := by
  unfold parseExponent at read
  split at read
  next => simp
  next mark rest =>
    simp only [Option.ite_none_right_eq_some] at read
    obtain ⟨⟨letter, -, digits⟩, -⟩ := read
    have tail : ∀ c ∈ rest, isWhitespace c = false := solid_of_signed fun c member =>
      isWhitespace_of_isDigit (List.all_eq_true.mp digits c member)
    exact List.forall_mem_cons.mpr ⟨by rcases letter with rfl | rfl <;> decide, tail⟩

theorem solid_of_span {cs : List Char}
    (rest : ∀ c ∈ (cs.span Char.isDigit).2, isWhitespace c = false) :
    ∀ c ∈ cs, isWhitespace c = false := by
  rw [List.span_eq_takeWhile_dropWhile] at rest
  intro c member
  rw [← List.takeWhile_append_dropWhile (p := Char.isDigit) (l := cs), List.mem_append] at member
  exact member.elim (fun digits => isWhitespace_of_isDigit (List.mem_takeWhile_imp digits)) (rest c)

theorem solid_of_parseDecimal {cs : List Char} {x : Float} (read : parseDecimal cs = some x) :
    ∀ c ∈ cs, isWhitespace c = false := by
  apply solid_of_span
  unfold parseDecimal at read
  generalize cs.span Char.isDigit = parts at read ⊢
  obtain ⟨whole, rest⟩ := parts
  dsimp only at read ⊢
  split at read
  next tail =>
    obtain ⟨-, exponent⟩ := Option.ite_none_left_eq_some.mp read
    obtain ⟨e, digits, -⟩ := Option.map_eq_some_iff.mp exponent
    exact List.forall_mem_cons.mpr ⟨by decide, solid_of_span (solid_of_parseExponent digits)⟩
  next =>
    obtain ⟨-, exponent⟩ := Option.ite_none_left_eq_some.mp read
    obtain ⟨e, digits, -⟩ := Option.map_eq_some_iff.mp exponent
    exact solid_of_parseExponent digits

-- A text that reads as a number has no blank in it.
theorem solid_of_parseF64 {cs : List Char} {x : Float} (read : parseF64 cs = some x) :
    ∀ c ∈ cs, isWhitespace c = false := by
  apply solid_of_signed
  unfold parseF64 at read
  generalize signed cs = parts at read ⊢
  obtain ⟨negative, rest⟩ := parts
  dsimp only at read ⊢
  obtain ⟨magnitude, read, -⟩ := Option.map_eq_some_iff.mp read
  have word {text : String} (same : String.ofList (rest.map Char.toLower) = text)
      (letters : text.toList.all (!isWhitespace ·) = true) :
      ∀ c ∈ rest, isWhitespace c = false := by
    intro c member
    have inside : c.toLower ∈ text.toList := by
      rw [← same, String.toList_ofList]
      exact List.mem_map_of_mem member
    rw [← isWhitespace_toLower]
    simpa using List.all_eq_true.mp letters _ inside
  split at read
  next same => exact word same (by decide)
  next same => exact word same (by decide)
  next same => exact word same (by decide)
  next => exact solid_of_parseDecimal read

theorem mapM_eq_some_iff {α β : Type} {f : α → Option β} {items : List α} {out : List β} :
    items.mapM f = some out ↔ items.map f = out.map some := by
  induction items generalizing out with
  | nil =>
    rw [List.mapM_nil, List.map_nil]
    constructor
    · intro same
      rw [← Option.some_inj.mp same, List.map_nil]
    · intro same
      rw [List.map_eq_nil_iff.mp same.symm]
      rfl
  | cons item items ih =>
    simp only [List.mapM_cons, List.map_cons, Option.bind_eq_bind, Option.bind_eq_some_iff,
      Option.pure_def, Option.some.injEq]
    constructor
    · rintro ⟨value, here, rest, read, rfl⟩
      rw [here, ih.mp read, List.map_cons]
    · intro same
      cases out with
      | nil => simp at same
      | cons value out =>
        obtain ⟨here, rest⟩ := List.cons.inj same
        exact ⟨value, here, out, ih.mpr rest, rfl⟩

theorem forall_isSome_iff {α β : Type} {f : α → Option β} {items : List α} :
    (∀ item ∈ items, (f item).isSome = true) ↔ ∃ out : List β, items.map f = out.map some := by
  induction items with
  | nil => simp
  | cons item items ih =>
    rw [List.forall_mem_cons, ih]
    constructor
    · rintro ⟨here, out, same⟩
      obtain ⟨value, read⟩ := Option.isSome_iff_exists.mp here
      exact ⟨value :: out, by rw [List.map_cons, read, same, List.map_cons]⟩
    · rintro ⟨out, same⟩
      cases out with
      | nil => simp at same
      | cons value out =>
        obtain ⟨here, rest⟩ := List.cons.inj same
        exact ⟨Option.isSome_iff_exists.mpr ⟨value, here⟩, out, rest⟩

theorem mem_splitOnP {α : Type} {p : α → Bool} {xs piece : List α}
    (member : piece ∈ xs.splitOnP p) :
    ∀ x ∈ piece, p x = false := by
  induction xs generalizing piece with
  | nil =>
    obtain rfl : piece = [] := by simpa using member
    simp
  | cons x xs ih =>
    rw [List.splitOnP_cons_eq_if_modifyHead] at member
    by_cases cut : p x = true
    next =>
      rw [if_pos cut] at member
      rcases List.mem_cons.mp member with rfl | later
      · simp
      · exact ih later
    next =>
      obtain ⟨first, rest, split⟩ := List.exists_cons_of_ne_nil (List.splitOnP_ne_nil p xs)
      rw [if_neg cut, split, List.modifyHead_cons] at member
      rw [split] at ih
      rcases List.mem_cons.mp member with rfl | later
      · exact List.forall_mem_cons.mpr ⟨by simpa using cut, ih List.mem_cons_self⟩
      · exact ih (List.mem_cons_of_mem _ later)

theorem splitOnP_lines {lines : List (List Char)} (single : ∀ line ∈ lines, '\n' ∉ line) :
    (lines.flatMap (· ++ ['\n'])).splitOnP (· = '\n') = lines ++ [[]] := by
  induction lines with
  | nil => rfl
  | cons line lines ih =>
    obtain ⟨first, rest⟩ := List.forall_mem_cons.mp single
    have one : line.splitOnP (· = '\n') = [line] := by
      apply List.splitOnP_eq_singleton
      intro c member
      have other : c ≠ '\n' := ne_of_mem_of_not_mem member first
      simpa using other
    rw [List.flatMap_cons, List.append_assoc, List.singleton_append,
      List.splitOnP_append_cons _ _ (by simp), one, ih rest]
    rfl

end RustStr
