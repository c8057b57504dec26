import Mathlib
import BrainEval.Lib.Str

set_option autoImplicit false

namespace Journal

open RustStr

section Lines

def stripCr (line : List Char) : List Char :=
  if line.getLast? = some '\r' then line.dropLast else line

-- `str::lines`: what follows the last line break is a line only where there is some of it.
def lines (text : List Char) : List (List Char) :=
  let pieces := text.splitOnP (· = '\n')
  pieces.dropLast.map stripCr ++ pieces.getLast?.toList.filter (!·.isEmpty)

variable {line : List Char} (single : '\n' ∉ line)

include single

theorem splitOnP_single : line.splitOnP (· = '\n') = [line] := by
  apply List.splitOnP_eq_singleton
  intro c member
  have other : c ≠ '\n' := ne_of_mem_of_not_mem member single
  simpa using other

theorem lines_single : lines line = if line = [] then [] else [line] := by
  rw [lines, splitOnP_single single]
  by_cases empty : line = []
  next => simp [empty]
  next => simp [empty]

theorem lines_append (rest : List Char) :
    lines (line ++ '\n' :: rest) = stripCr line :: lines rest := by
  obtain ⟨piece, pieces, split⟩ := List.exists_cons_of_ne_nil
    (List.splitOnP_ne_nil (· = '\n') rest)
  have cut : (line ++ '\n' :: rest).splitOnP (· = '\n') = line :: piece :: pieces := by
    rw [List.splitOnP_append_cons _ _ (by simp), splitOnP_single single, split]
    rfl
  simp only [lines, cut, split, List.dropLast_cons_cons, List.map_cons, List.cons_append,
    List.getLast?_cons_cons]

end Lines

variable {R : Type}

/-- What a reader of the lines finds: the records, and how many lines were none. -/
structure Recovered (R : Type) where
  records : List R
  unparseable : Nat

def readLine (decode : List Char → Option R) (found : Recovered R) (line : List Char) :
    Recovered R :=
  if (trimChars line).isEmpty then found
  else
    match decode line with
    | some record => { found with records := found.records ++ [record] }
    | none => { found with unparseable := found.unparseable + 1 }

def readAll (decode : List Char → Option R) (text : List Char) : Recovered R :=
  (lines text).foldl (readLine decode) ⟨[], 0⟩

theorem foldl_readLine (decode : List Char → Option R) (ls : List (List Char))
    (found : Recovered R) :
    ls.foldl (readLine decode) found =
      ⟨found.records ++ (ls.foldl (readLine decode) ⟨[], 0⟩).records,
        found.unparseable + (ls.foldl (readLine decode) ⟨[], 0⟩).unparseable⟩ := by
  induction ls generalizing found with
  | nil => simp
  | cons line ls ih =>
    rw [List.foldl_cons, List.foldl_cons, ih, ih (readLine decode ⟨[], 0⟩ line)]
    by_cases blank : (trimChars line).isEmpty = true
    next => simp [readLine, blank]
    next =>
      cases read : decode line with
      | none => simp [readLine, blank, read, Nat.add_assoc]
      | some record => simp [readLine, blank, read]

structure LineCodec (R : Type) where
  encode : R → List Char
  decode : List Char → Option R

namespace LineCodec

variable (codec : LineCodec R)

-- The record is one line of text, which is read back and no shorter text is taken for.
structure Reads (r : R) : Prop where
  decode_encode : codec.decode (codec.encode r) = some r
  decode_torn : ∀ {cut}, cut <+: codec.encode r → cut ≠ codec.encode r → codec.decode cut = none
  unbroken : ∀ {c}, c ∈ codec.encode r → c ≠ '\n' ∧ c ≠ '\r'
  opens : ∃ c cs, codec.encode r = c :: cs ∧ isWhitespace c = false

def text (records : List R) : List Char := records.flatMap (codec.encode · ++ ['\n'])

@[simp] theorem text_nil : codec.text [] = [] := rfl

theorem text_cons (r : R) (records : List R) :
    codec.text (r :: records) = codec.encode r ++ '\n' :: codec.text records := by
  simp [text]

variable {codec}

namespace Reads

variable {r : R} (reads : codec.Reads r)

include reads

theorem single_of_torn {cut : List Char} (torn : cut <+: codec.encode r) : '\n' ∉ cut :=
  fun member => (reads.unbroken (torn.subset member)).1 rfl

theorem stripCr_encode : stripCr (codec.encode r) = codec.encode r := by
  apply if_neg
  intro ends
  exact (reads.unbroken (List.mem_of_getLast? ends)).2 rfl

-- A line's opening is not blank, so nothing of a record is skipped as an empty line.
theorem filled_of_prefix {cut : List Char} (torn : cut <+: codec.encode r)
    (some_of_it : cut ≠ []) : (trimChars cut).isEmpty = false := by
  obtain ⟨c, cs, opening, solid⟩ := reads.opens
  obtain ⟨d, rest, rfl⟩ := List.exists_cons_of_ne_nil some_of_it
  rw [opening, List.cons_prefix_cons] at torn
  obtain ⟨rfl, -⟩ := torn
  cases trimmed : trimChars (d :: rest) with
  | cons => rfl
  | nil =>
    rw [trimChars, List.dropWhile_cons_of_neg (by simp [solid])] at trimmed
    have blank := List.rdropWhile_eq_nil_iff.mp trimmed d (by simp)
    rw [solid] at blank
    cases blank

theorem encode_ne_nil : codec.encode r ≠ [] := by
  obtain ⟨c, cs, opening, -⟩ := reads.opens
  simp [opening]

theorem readAll_encode (rest : List Char) :
    readAll codec.decode (codec.encode r ++ '\n' :: rest) =
      ⟨r :: (readAll codec.decode rest).records, (readAll codec.decode rest).unparseable⟩ := by
  have filled := reads.filled_of_prefix (List.prefix_refl _) reads.encode_ne_nil
  rw [readAll, lines_append (reads.single_of_torn (List.prefix_refl _)), reads.stripCr_encode,
    List.foldl_cons, foldl_readLine]
  simp [readLine, filled, reads.decode_encode, readAll]

theorem readAll_torn {cut : List Char} (torn : cut <+: codec.encode r) :
    readAll codec.decode cut =
      if cut = [] then ⟨[], 0⟩ else if cut = codec.encode r then ⟨[r], 0⟩ else ⟨[], 1⟩ := by
  rw [readAll, lines_single (reads.single_of_torn torn)]
  by_cases empty : cut = []
  next => simp [empty]
  next =>
    have filled := reads.filled_of_prefix torn empty
    by_cases whole : cut = codec.encode r
    next =>
      subst whole
      simp [empty, readLine, filled, reads.decode_encode]
    next => simp [empty, whole, readLine, filled, reads.decode_torn torn whole]

theorem byteLen_encode_pos : 0 < byteLen (codec.encode r) :=
  Nat.pos_of_ne_zero (mt byteLen_eq_zero.mp reads.encode_ne_nil)

end Reads

variable (codec) in
/-- How many records the first `n` bytes of the text hold whole, with or without the line break
behind the last. -/
def whole : List R → Nat → Nat
  | [], _ => 0
  | r :: records, n =>
    if n < byteLen (codec.encode r) then 0
    else whole records (n - (byteLen (codec.encode r) + 1)) + 1

theorem byteLen_text_cons (r : R) (records : List R) :
    byteLen (codec.text (r :: records)) =
      byteLen (codec.encode r) + 1 + byteLen (codec.text records) := by
  have break_size : '\n'.utf8Size = 1 := rfl
  rw [text_cons, byteLen_append, byteLen_cons, break_size, Nat.add_assoc]

theorem le_whole_iff {records : List R} (reads : ∀ r ∈ records, codec.Reads r) {n j : Nat}
    (within : j ≤ records.length) :
    j ≤ codec.whole records n ↔ byteLen (codec.text (records.take j)) ≤ n + 1 := by
  induction records generalizing n j with
  | nil =>
    obtain rfl : j = 0 := by simpa using within
    simp
  | cons r records ih =>
    cases j with
    | zero => simp
    | succ j =>
      rw [List.take_succ_cons, byteLen_text_cons, whole]
      by_cases short : n < byteLen (codec.encode r)
      next =>
        rw [if_pos short]
        omega
      next =>
        have later : ∀ r ∈ records, codec.Reads r :=
          fun r member => reads r (List.mem_cons_of_mem _ member)
        have inside := ih later (n := n - (byteLen (codec.encode r) + 1))
          (Nat.le_of_succ_le_succ within)
        rw [if_neg short, Nat.add_le_add_iff_right, inside]
        cases j with
        | zero =>
          simp only [List.take_zero, text_nil, byteLen_nil]
          omega
        | succ j =>
          obtain ⟨next, rest, rfl⟩ := List.exists_cons_of_length_pos
            (Nat.lt_of_lt_of_le (Nat.succ_pos j) (Nat.le_of_succ_le_succ within))
          have filled := (later next List.mem_cons_self).byteLen_encode_pos
          rw [List.take_succ_cons, byteLen_text_cons]
          omega

theorem whole_zero {records : List R} (reads : ∀ r ∈ records, codec.Reads r) :
    codec.whole records 0 = 0 := by
  cases records with
  | nil => rfl
  | cons r records => rw [whole, if_pos (reads r List.mem_cons_self).byteLen_encode_pos]

theorem byteLen_lt_of_torn {r : R} {cut : List Char} (torn : cut <+: codec.encode r)
    (short : cut ≠ codec.encode r) : byteLen cut < byteLen (codec.encode r) := by
  obtain ⟨rest, whole⟩ := torn
  have missing : rest ≠ [] := by
    rintro rfl
    exact short (by rw [← whole, List.append_nil])
  have size := Nat.pos_of_ne_zero (mt byteLen_eq_zero.mp missing)
  rw [← whole, byteLen_append]
  omega

/-- A text cut anywhere gives back the records that are whole in it, and at most one line that is
none. -/
theorem readAll_cut {records : List R} (reads : ∀ r ∈ records, codec.Reads r) {cut : List Char}
    (torn : cut <+: codec.text records) :
    readAll codec.decode cut =
      ⟨records.take (codec.whole records (byteLen cut)),
        if byteLen cut ≤ byteLen (codec.text (records.take (codec.whole records (byteLen cut))))
        then 0 else 1⟩ := by
  induction records generalizing cut with
  | nil =>
    obtain rfl : cut = [] := by simpa using torn
    rfl
  | cons r records ih =>
    obtain ⟨head, others⟩ := List.forall_mem_cons.mp reads
    have opening : codec.text (r :: records) =
        codec.encode r ++ ['\n'] ++ codec.text records := List.flatMap_cons
    by_cases longer : codec.encode r ++ ['\n'] <+: cut
    next =>
      obtain ⟨rest, rfl⟩ := longer
      have later : rest <+: codec.text records := by
        rwa [opening, List.prefix_append_right_inj] at torn
      have size : byteLen (codec.encode r ++ ['\n'] ++ rest) =
          byteLen (codec.encode r) + 1 + byteLen rest := by
        simp [show '\n'.utf8Size = 1 from rfl, Nat.add_assoc]
      have long : ¬ byteLen (codec.encode r) + 1 + byteLen rest < byteLen (codec.encode r) := by
        omega
      rw [size, List.append_assoc, List.singleton_append, head.readAll_encode, ih others later,
        whole, if_neg long, Nat.add_sub_cancel_left, List.take_succ_cons, byteLen_text_cons]
      simp only [Nat.add_le_add_iff_left]
    next =>
      have inside : cut <+: codec.encode r := by
        rcases List.prefix_or_prefix_of_prefix torn (opening ▸ List.prefix_append _ _) with
          within | beyond
        next =>
          rcases List.prefix_concat_iff.mp within with rfl | within
          · exact absurd (List.prefix_refl _) longer
          · exact within
        next => exact absurd beyond longer
      rw [head.readAll_torn inside, whole]
      by_cases full : cut = codec.encode r
      next =>
        subst full
        simp [head.encode_ne_nil, whole_zero others, byteLen_text_cons]
      next =>
        rw [if_neg full, if_pos (byteLen_lt_of_torn inside full)]
        simp [byteLen_eq_zero, apply_ite]

end LineCodec

end Journal
