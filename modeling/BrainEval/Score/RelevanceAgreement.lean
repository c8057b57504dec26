import Mathlib
import BrainEval.Score.Grounding
import BrainEval.Score.Retrieval

set_option autoImplicit false

namespace BrainEval.Retrieval

open RustStr Harness Synthesize

def countsAsRelevant (U : UnicodeData) (groundTruth text : String) : Bool :=
  !(toLowercase U groundTruth).isEmpty && contains (toLowercase U text) (toLowercase U groundTruth)

section Metrics

variable {U : UnicodeData} {r : QuestionResult} (counted : scored U r = true)

include counted

theorem countsAsRelevant_eq :
    countsAsRelevant U r.groundTruth =
      fun text => contains (toLowercase U text) (toLowercase U r.groundTruth) := by
  simp only [scored, Bool.and_eq_true, Bool.not_eq_true'] at counted
  funext text
  simp [countsAsRelevant, counted.2]

theorem recallScore_eq (k : Nat) :
    recallScore U k r (toLowercase U r.groundTruth) =
      if (r.retrievedMemoryContents.take k).any (countsAsRelevant U r.groundTruth) then 1
      else 0 := by
  rw [countsAsRelevant_eq counted]
  rfl

theorem reciprocalRankScore_eq :
    reciprocalRankScore U r (toLowercase U r.groundTruth) =
      reciprocalRank r.retrievedMemoryContents (countsAsRelevant U r.groundTruth) := by
  rw [countsAsRelevant_eq counted, reciprocalRankScore, reciprocalRank, List.findIdx?_map]
  rfl

end Metrics

theorem lowerFrom_ascii (U : UnicodeData) (cs before : List Char)
    (ascii : ∀ c ∈ cs, c.toNat < 0x80) : lowerFrom U before cs = cs.map Char.toLower := by
  induction cs generalizing before with
  | nil => rfl
  | cons c cs ih =>
    obtain ⟨here, rest⟩ := List.forall_mem_cons.mp ascii
    have plain : c ≠ 'Σ' := by
      rintro rfl
      exact absurd here (by decide)
    rw [lowerFrom, if_neg plain, U.lower_ascii c here, ih _ rest]
    rfl

theorem toLowercase_ascii (U : UnicodeData) {s : String} (ascii : ∀ c ∈ s.toList, c.toNat < 0x80) :
    toLowercase U s = toAsciiLowercase s := by
  rw [toLowercase, lowerFrom_ascii U _ _ ascii, toAsciiLowercase]

/-- A relevant memory that the answer shows makes the answer correct. -/
def HitIsCredited (U : UnicodeData) (outcome : RecallOutcome) (episodicCap : Nat)
    (questionId : String) (qtype : QuestionType) (groundTruth : String) : Prop :=
  (∃ m ∈ shown outcome episodicCap, countsAsRelevant U groundTruth m.text = true) →
    (judgeAnswerHeuristic questionId qtype groundTruth
      (synthesizeAnswer outcome episodicCap)).verdict = .correct

theorem memories_of_shown {outcome : RecallOutcome} {episodicCap : Nat} {m : MemoryResult}
    (member : m ∈ shown outcome episodicCap) : outcome.memories ≠ [] :=
  List.ne_nil_of_mem (List.mem_of_mem_take member)

theorem hit_is_credited_iff (U : UnicodeData) (outcome : RecallOutcome) (episodicCap : Nat)
    (questionId : String) {qtype : QuestionType} {groundTruth : String}
    (asked : qtype ≠ .abstention) (gold : trim groundTruth ≠ "") :
    HitIsCredited U outcome episodicCap questionId qtype groundTruth ↔
      ((∃ m ∈ shown outcome episodicCap, countsAsRelevant U groundTruth m.text = true) →
        (∃ m ∈ shown outcome episodicCap,
            contains (toAsciiLowercase m.text) (toAsciiLowercase (trim groundTruth)) = true) ∨
          TouchesLabels (shown outcome episodicCap) (toAsciiLowercase (trim groundTruth))) := by
  apply forall_congr'
  rintro ⟨m, member, _⟩
  exact judged_answer_correct_iff episodicCap (memories_of_shown member) asked gold

theorem contains_trim_of_contains {s pattern : String} (found : contains s pattern = true) :
    contains s (trim pattern) = true := by
  rw [contains_iff] at found ⊢
  have inside : (trim pattern).toList <:+: pattern.toList := by
    rw [trim, String.toList_ofList]
    exact (List.rdropWhile_prefix _ _).isInfix.trans (List.dropWhile_suffix _).isInfix
  exact inside.trans found

-- The two tests part only where case folding does.
theorem hit_is_credited_of_ascii (U : UnicodeData) (outcome : RecallOutcome) (episodicCap : Nat)
    (questionId : String) {qtype : QuestionType} {groundTruth : String}
    (asked : qtype ≠ .abstention) (gold : trim groundTruth ≠ "")
    (ascii : ∀ c ∈ groundTruth.toList, c.toNat < 0x80)
    (texts : ∀ m ∈ shown outcome episodicCap, ∀ c ∈ m.text.toList, c.toNat < 0x80) :
    HitIsCredited U outcome episodicCap questionId qtype groundTruth := by
  rw [hit_is_credited_iff U outcome episodicCap questionId asked gold]
  rintro ⟨m, member, relevant⟩
  refine Or.inl ⟨m, member, ?_⟩
  rw [countsAsRelevant, toLowercase_ascii U ascii, toLowercase_ascii U (texts m member),
    Bool.and_eq_true] at relevant
  rw [toAsciiLowercase_trim]
  exact contains_trim_of_contains relevant.2

theorem ascii_hit_is_credited :
    HitIsCredited .ascii (sampleOutcome ["Ann lives in Paris"]) 10 "q" .singleHop "paris" :=
  (hit_is_credited_iff _ _ _ _ (by decide) (by decide)).mpr fun _ =>
    Or.inl ⟨sampleMemory "Ann lives in Paris", by simp [sampleOutcome, shown], by decide +kernel⟩

-- The letters of Latin-1, whose capitals stand 32 before their small forms.
def latin1 : UnicodeData where
  lower c :=
    if 0xc0 ≤ c.toNat ∧ c.toNat ≤ 0xde ∧ c.toNat ≠ 0xd7 then [Char.ofNat (c.toNat + 0x20)]
    else [c.toLower]
  cased c := c.isAlpha || (0xc0 ≤ c.toNat && c.toNat ≤ 0xff && c.toNat ≠ 0xd7 && c.toNat ≠ 0xf7)
  caseIgnorable c := c.toNat ∈ [0x27, 0x2e, 0x3a, 0x5e, 0x60]
  lower_ascii c ascii := by simp; omega

theorem accented_hit_is_graded_wrong :
    ¬ HitIsCredited latin1 (sampleOutcome ["Ann met andré"]) 10 "q" .singleHop "ANDRÉ" := by
  intro credited
  have relevant : ∃ m ∈ shown (sampleOutcome ["Ann met andré"]) 10,
      countsAsRelevant latin1 "ANDRÉ" m.text = true := by
    decide +kernel
  have wrong : (judgeAnswerHeuristic "q" .singleHop "ANDRÉ"
      (synthesizeAnswer (sampleOutcome ["Ann met andré"]) 10)).verdict ≠ .correct := by
    decide +kernel
  exact wrong (credited relevant)

end BrainEval.Retrieval
