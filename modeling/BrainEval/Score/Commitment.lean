import Mathlib
import BrainEval.Score.AnswerShape
import BrainEval.Score.Grounding

set_option autoImplicit false

namespace BrainEval.Metrics

open RustStr Harness Synthesize

theorem step_committedGraded (m : ShapeTally) (r : QuestionResult) :
    (m.step r).committedGraded =
      m.committedGraded + if isCommitted r && r.verdict.isGraded then 1 else 0 := by
  unfold ShapeTally.step isCommitted ShapeTally.commit
  cases r.answerKind <;> by_cases declined : isDecline r.systemAnswer = true <;>
    by_cases graded : r.verdict.isGraded = true <;> simp [declined, graded]

-- The denominator of the committed precision counts the committed answers that are graded.
theorem foldl_committedGraded (results : List QuestionResult) (m : ShapeTally) :
    (results.foldl ShapeTally.step m).committedGraded =
      m.committedGraded + results.countP fun r => isCommitted r && r.verdict.isGraded := by
  induction results generalizing m with
  | nil => simp
  | cons r results ih =>
    rw [List.foldl_cons, ih, step_committedGraded, List.countP_cons]
    omega

theorem declinePhrases_clear : ∀ phrase ∈ declinePhrases,
    trim phrase = phrase ∧ phrase ≠ "" ∧ '\n' ∉ phrase.toList ∧
      (phrase.toList.head?.all fun c => !c.isDigit && c != '.' && c != ' ') = true := by
  decide +kernel

theorem not_touchesLabels_phrase {phrase : String} (member : phrase ∈ declinePhrases)
    (memories : List MemoryResult) : ¬ TouchesLabels memories phrase := by
  obtain ⟨-, nonempty, oneLine, head⟩ := declinePhrases_clear phrase member
  obtain ⟨c, rest, start⟩ := List.exists_cons_of_ne_nil (String.toList_eq_nil_iff.not.mpr nonempty)
  obtain ⟨⟨noDigit, noDot⟩, noSpace⟩ : (c.isDigit = false ∧ c ≠ '.') ∧ c ≠ ' ' := by
    simpa [start] using head
  exact not_touchesLabels start oneLine noDigit noDot noSpace memories

section Answer

variable {outcome : RecallOutcome} (episodicCap : Nat) (some : outcome.memories ≠ [])

include some

theorem trim_answer_ne_empty : trim (synthesizeAnswer outcome episodicCap) ≠ "" := by
  intro empty
  obtain ⟨m, memories, first⟩ : ∃ m memories, shown outcome episodicCap = m :: memories := by
    apply List.exists_cons_of_ne_nil
    have capped : 0 < max episodicCap 1 := by omega
    simp [shown, some, capped.ne']
  have dot : TouchesLabels (shown outcome episodicCap) "." := by
    have there : ('.', true) ∈ Occurrence.marked (pieces (shown outcome episodicCap)) := by
      simp [first, pieces, List.mapIdx_cons, Occurrence.marked, lineLabel]
    exact ⟨[('.', true)], (List.singleton_infix_iff _ _).mpr there, by decide, by simp⟩
  have found := (contains_answer_iff outcome episodicCap some (by decide) (by decide)).mpr
    (Or.inr dot)
  rw [empty] at found
  exact absurd found (by decide)

theorem hasDeclinePhrase_answer :
    hasDeclinePhrase (toAsciiLowercase (trim (synthesizeAnswer outcome episodicCap))) = true ↔
      ∃ m ∈ shown outcome episodicCap, hasDeclinePhrase (toAsciiLowercase m.text) = true := by
  simp only [hasDeclinePhrase, List.any_eq_true]
  constructor
  · rintro ⟨phrase, member, found⟩
    obtain ⟨trimmed, nonempty, -⟩ := declinePhrases_clear phrase member
    rcases (contains_answer_iff outcome episodicCap some trimmed nonempty).mp found with
      ⟨m, listed, inside⟩ | touched
    · exact ⟨m, listed, phrase, member, inside⟩
    · exact absurd touched (not_touchesLabels_phrase member _)
  · rintro ⟨m, listed, phrase, member, inside⟩
    obtain ⟨trimmed, nonempty, -⟩ := declinePhrases_clear phrase member
    exact ⟨phrase, member, (contains_answer_iff outcome episodicCap some trimmed nonempty).mpr
      (Or.inl ⟨m, listed, inside⟩)⟩

theorem isDecline_answer : isDecline (synthesizeAnswer outcome episodicCap) = true ↔
    ∃ m ∈ shown outcome episodicCap, hasDeclinePhrase (toAsciiLowercase m.text) = true := by
  rw [← hasDeclinePhrase_answer episodicCap some, isDecline]
  simp [trim_answer_ne_empty episodicCap some]

end Answer

/-- An answer quoting memories is an assertion to every reader of it. -/
structure CommittedMeansAsserted (outcome : RecallOutcome) (episodicCap : Nat) : Prop where
  declines : isDecline (synthesizeAnswer outcome episodicCap) = true ↔ outcome.memories = []
  counted : outcome.memories ≠ [] → ∀ (before after : List QuestionResult) (r : QuestionResult),
    r.systemAnswer = synthesizeAnswer outcome episodicCap →
      r.answerKind = .single ∨ r.answerKind = .many → r.verdict.isGraded = true →
        ((before ++ r :: after).foldl ShapeTally.step .zero).committedGraded =
          ((before ++ after).foldl ShapeTally.step .zero).committedGraded + 1
  abstention : outcome.memories ≠ [] → ∀ questionId groundTruth,
    (judgeAnswerHeuristic questionId .abstention groundTruth
      (synthesizeAnswer outcome episodicCap)).verdict ≠ .correct

theorem committed_means_asserted_iff (outcome : RecallOutcome) (episodicCap : Nat) :
    CommittedMeansAsserted outcome episodicCap ↔
      ∀ m ∈ shown outcome episodicCap, hasDeclinePhrase (toAsciiLowercase m.text) = false := by
  constructor
  · intro asserted m listed
    have some := List.ne_nil_of_mem (List.mem_of_mem_take listed)
    by_contra quoted
    exact some (asserted.declines.mp
      ((isDecline_answer episodicCap some).mpr ⟨m, listed, by simpa using quoted⟩))
  · intro clear
    have plain (some : outcome.memories ≠ []) :
        isDecline (synthesizeAnswer outcome episodicCap) = false := by
      rw [Bool.eq_false_iff, ne_eq, isDecline_answer episodicCap some]
      rintro ⟨m, listed, quoted⟩
      simp [clear m listed] at quoted
    refine ⟨⟨fun declined => ?_, fun none => ?_⟩, ?_, ?_⟩
    · by_contra some
      simp [plain some] at declined
    · have answer : synthesizeAnswer outcome episodicCap = dontKnow := by
        simp [synthesizeAnswer, none]
      rw [answer]
      decide +kernel
    · intro some before after r answer kind graded
      have committed : isCommitted r = true := by
        rcases kind with kind | kind <;> simp [isCommitted, kind, answer, plain some]
      simp only [foldl_committedGraded, List.countP_append, List.countP_cons]
      simp [committed, graded]
      omega
    · intro some questionId groundTruth
      have spoken := trim_answer_ne_empty episodicCap some
      have silent : ¬ hasDeclinePhrase
          (toAsciiLowercase (trim (synthesizeAnswer outcome episodicCap))) = true := by
        simpa [isDecline, spoken] using plain some
      rw [judgeAnswerHeuristic_unanswerable (Or.inl rfl), if_neg (not_or.mpr ⟨spoken, silent⟩)]
      decide

theorem quoted_phrase_reads_as_decline :
    isDecline (synthesizeAnswer (sampleOutcome ["Bob's number is unknown"]) 10) = true ∧
      (judgeAnswerHeuristic "q" .abstention "" (synthesizeAnswer
        (sampleOutcome ["Bob's number is unknown"]) 10)).verdict = .correct ∧
      ¬ CommittedMeansAsserted (sampleOutcome ["Bob's number is unknown"]) 10 := by
  have declined : isDecline (synthesizeAnswer (sampleOutcome ["Bob's number is unknown"]) 10) =
      true := by
    decide +kernel
  refine ⟨declined, by decide +kernel, fun asserted => ?_⟩
  simpa [sampleOutcome] using asserted.declines.mp declined

end BrainEval.Metrics
