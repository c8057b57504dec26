import Mathlib
import BrainEval.Lib.Decimal
import BrainEval.Score.Judge
import BrainEval.Synthesize

set_option autoImplicit false

namespace BrainEval.Synthesize

open RustStr Harness Occurrence

def shown (outcome : RecallOutcome) (episodicCap : Nat) : List MemoryResult :=
  outcome.memories.take (min outcome.memories.length (max episodicCap 1))

-- What synthesis puts before a text: the line break and the number.
def lineLabel (i : Nat) : List Char :=
  (if i = 0 then [] else ['\n']) ++ (Nat.toDigits 10 (i + 1) ++ ['.', ' '])

def foldedText (m : MemoryResult) : List Char := (toAsciiLowercase m.text).toList

def pieces (memories : List MemoryResult) : List (List Char × List Char) :=
  memories.mapIdx fun i m => (lineLabel i, foldedText m)

/-- The pattern occurs in the numbered list with a character of a label in it. -/
def TouchesLabels (memories : List MemoryResult) (pattern : String) : Prop :=
  TouchesLabel pattern.toList (pieces memories)

theorem touchesLabels_nil (pattern : String) : ¬ TouchesLabels [] pattern := by
  rintro ⟨found, inside, -, c, member, -⟩
  rw [pieces, List.mapIdx_nil] at inside
  simpa [marked] using inside.subset member

theorem lineLabel_ne_nil (i : Nat) : lineLabel i ≠ [] := by simp [lineLabel]

theorem toLower_of_digit {c : Char} (digit : c.isDigit = true) : c.toLower = c := by
  obtain ⟨_, high⟩ := Decimal.isDigit_range digit
  have small : ¬ (c.val ≥ 'A'.val ∧ c.val ≤ 'Z'.val) := by
    rintro ⟨capital, -⟩
    have capital : 65 ≤ c.toNat := capital
    omega
  rw [Char.toLower, dif_neg small]

theorem lineLabel_folded (i : Nat) : (lineLabel i).map Char.toLower = lineLabel i := by
  have digits : (Nat.toDigits 10 (i + 1)).map Char.toLower = Nat.toDigits 10 (i + 1) :=
    (List.map_congr_left fun c member =>
      toLower_of_digit (Decimal.allDigits_toDigits _ c member)).trans (List.map_id' _)
  unfold lineLabel
  split <;> simp [digits]

theorem numberedBlock_spelled (memories : List MemoryResult) (cap : Nat) :
    (numberedBlock memories cap).toList =
      spelled ((memories.take (min memories.length (max cap 1))).mapIdx
        fun i m => (lineLabel i, m.text.toList)) := by
  rw [numberedBlock, String.toList_intercalate, map_mapIdx]
  simpa [lineLabel] using intercalate_mapIdx ['\n'] (fun i => Nat.toDigits 10 (i + 1) ++ ['.', ' '])
    (fun m : MemoryResult => m.text.toList) (memories.take (min memories.length (max cap 1)))

-- Folding the case of the list folds the texts; the labels have no case.
theorem folded_numberedBlock (memories : List MemoryResult) (cap : Nat) :
    (toAsciiLowercase (numberedBlock memories cap)).toList =
      spelled (pieces (memories.take (min memories.length (max cap 1)))) := by
  rw [toList_toAsciiLowercase, numberedBlock_spelled, map_spelled, map_mapIdx]
  simp [pieces, lineLabel_folded, foldedText]

-- A pattern without line breaks that starts like no label stays clear of them.
theorem not_touchesLabels {pattern : String} {c : Char} {rest : List Char}
    (start : pattern.toList = c :: rest) (oneLine : '\n' ∉ pattern.toList)
    (noDigit : c.isDigit = false) (noDot : c ≠ '.') (noSpace : c ≠ ' ')
    (memories : List MemoryResult) : ¬ TouchesLabels memories pattern := by
  have outside (i : Nat) : c ∉ lineLabel i := by
    have digits : c ∉ Nat.toDigits 10 (i + 1) := fun member =>
      Bool.eq_false_iff.mp noDigit (Decimal.allDigits_toDigits _ c member)
    have newline : c ≠ '\n' := by
      rintro rfl
      simp [start] at oneLine
    unfold lineLabel
    split <;> simp [digits, newline, noDot, noSpace]
  rw [TouchesLabels, start]
  rw [start] at oneLine
  apply not_touchesLabel oneLine
  · intro p member
    obtain ⟨i, _, rfl⟩ := List.mem_mapIdx.mp member
    exact outside i
  · cases memories with
    | nil => simp [pieces]
    | cons m memories =>
      intro p member
      rw [pieces, List.mapIdx_cons, List.tail_cons] at member
      obtain ⟨i, _, rfl⟩ := List.mem_mapIdx.mp member
      exact ⟨Nat.toDigits 10 (i + 1 + 1) ++ ['.', ' '], by simp [lineLabel]⟩

section Answer

variable (outcome : RecallOutcome) (episodicCap : Nat)

-- What the judge finds in the answer is in one shown text, or across the labels.
theorem contains_answer_iff (some : outcome.memories ≠ []) {pattern : String}
    (trimmed : trim pattern = pattern) (nonempty : pattern ≠ "") :
    contains (toAsciiLowercase (trim (synthesizeAnswer outcome episodicCap))) pattern = true ↔
      (∃ m ∈ shown outcome episodicCap, contains (toAsciiLowercase m.text) pattern = true) ∨
        TouchesLabels (shown outcome episodicCap) pattern := by
  have labelled : ∀ p ∈ pieces (shown outcome episodicCap), p.1 ≠ [] := by
    intro p member
    obtain ⟨i, _, rfl⟩ := List.mem_mapIdx.mp member
    exact lineLabel_ne_nil i
  have answer : synthesizeAnswer outcome episodicCap =
      numberedBlock outcome.memories episodicCap := by
    simp [synthesizeAnswer, some]
  have texts : (∃ p ∈ pieces (shown outcome episodicCap), pattern.toList <:+: p.2) ↔
      ∃ m ∈ shown outcome episodicCap, pattern.toList <:+: foldedText m := by
    simp [pieces, List.mem_iff_getElem]
  rw [toAsciiLowercase_trim, contains_trim trimmed, contains_iff, answer, folded_numberedBlock]
  refine (infix_spelled_iff labelled ?_).trans (or_congr_left (texts.trans ?_))
  · simpa [String.toList_eq_nil_iff] using nonempty
  · simp [contains_iff, foldedText]

end Answer

end BrainEval.Synthesize
