import Mathlib
import BrainEval.Core.Outcome
import BrainEval.Blackbox.Recall
import BrainEval.Lib.Str

set_option autoImplicit false

namespace BrainEval.Retrieval

open RustStr Ranking

structure RetrievalStats where
  recallAt1 : ℚ
  recallAt5 : ℚ
  recallAt10 : ℚ
  ndcgAt5 : ℝ
  ndcgAt10 : ℝ
  mrr : ℚ

-- One turn of the loop all three means share; each `acc` branch is a `continue`.
def addScore (U : UnicodeData) {F : Type} [DivisionRing F] (score : QuestionResult → String → F)
    (acc : F × Nat) (r : QuestionResult) : F × Nat :=
  if r.retrievalFailed || r.ingestionFailed then acc
  else if r.retrievedMemoryContents.isEmpty then acc
  else
    let ground := toLowercase U r.groundTruth
    if ground.isEmpty then acc else (acc.1 + score r ground, acc.2 + 1)

def meanOver (U : UnicodeData) {F : Type} [DivisionRing F]
    (score : QuestionResult → String → F) (results : List QuestionResult) : F :=
  let (total, count) := results.foldl (addScore U score) (0, 0)
  if count = 0 then 0 else total / (count : F)

def recallScore (U : UnicodeData) (k : Nat) (r : QuestionResult) (ground : String) : ℚ :=
  let found := (r.retrievedMemoryContents.take k).any fun c => contains (toLowercase U c) ground
  if found then 1 else 0

def meanRecallAtK (U : UnicodeData) (results : List QuestionResult) (k : Nat) : ℚ :=
  meanOver U (recallScore U k) results

noncomputable def ndcgAtK (retrieved relevant : List String) (k : Nat) : ℝ :=
  if relevant.isEmpty then 1
  else
    let dcg := ((retrieved.take k).zipIdx.map fun ranked =>
      (if relevant.contains ranked.1 then 1 else 0) / discount ranked.2).sum
    let idealK := min k relevant.length
    let idcg := ((List.range idealK).map fun i => 1 / discount i).sum
    if idcg = 0 then 0 else dcg / idcg

noncomputable def ndcgScore (U : UnicodeData) (k : Nat) (r : QuestionResult)
    (ground : String) : ℝ :=
  let retrievedIds := r.retrievedMemoryContents.map (toLowercase U)
  let relevant := retrievedIds.filter fun c => contains c ground
  ndcgAtK retrievedIds relevant k

noncomputable def meanNdcgAtK (U : UnicodeData) (results : List QuestionResult) (k : Nat) : ℝ :=
  meanOver U (ndcgScore U k) results

def reciprocalRank {T : Type} (ranked : List T) (isRelevant : T → Bool) : ℚ :=
  match ranked.findIdx? isRelevant with
  | some i => 1 / ((i + 1 : Nat) : ℚ)
  | none => 0

def reciprocalRankScore (U : UnicodeData) (r : QuestionResult) (ground : String) : ℚ :=
  reciprocalRank (r.retrievedMemoryContents.map (toLowercase U)) fun c => contains c ground

def meanReciprocalRank (U : UnicodeData) (results : List QuestionResult) : ℚ :=
  meanOver U (reciprocalRankScore U) results

noncomputable def computeRetrievalStats (U : UnicodeData) (results : List QuestionResult) :
    Option RetrievalStats :=
  let anyRetrieved := results.any fun r => !r.retrievedMemoryContents.isEmpty
  if !anyRetrieved then none
  else some {
    recallAt1 := meanRecallAtK U results 1
    recallAt5 := meanRecallAtK U results 5
    recallAt10 := meanRecallAtK U results 10
    ndcgAt5 := meanNdcgAtK U results 5
    ndcgAt10 := meanNdcgAtK U results 10
    mrr := meanReciprocalRank U results }

def scored (U : UnicodeData) (r : QuestionResult) : Bool :=
  !(r.retrievalFailed || r.ingestionFailed) && !r.retrievedMemoryContents.isEmpty &&
    !(toLowercase U r.groundTruth).isEmpty

def population (U : UnicodeData) (results : List QuestionResult) : List QuestionResult :=
  results.filter (scored U)

section Means

variable {F : Type} [DivisionRing F] (U : UnicodeData) (score : QuestionResult → String → F)

theorem addScore_eq (acc : F × Nat) (r : QuestionResult) :
    addScore U score acc r =
      if scored U r then (acc.1 + score r (toLowercase U r.groundTruth), acc.2 + 1) else acc := by
  unfold addScore scored
  by_cases failed : (r.retrievalFailed || r.ingestionFailed) = true
  · rw [if_pos failed]
    simp [failed]
  · rw [if_neg failed, Bool.eq_false_iff.mpr failed]
    by_cases none : r.retrievedMemoryContents.isEmpty = true
    · simp [none]
    · by_cases empty : (toLowercase U r.groundTruth).isEmpty = true <;> simp [none, empty]

theorem foldl_addScore (results : List QuestionResult) (acc : F × Nat) :
    results.foldl (addScore U score) acc =
      (acc.1 + ((population U results).map fun r => score r (toLowercase U r.groundTruth)).sum,
        acc.2 + (population U results).length) := by
  induction results generalizing acc with
  | nil => simp [population]
  | cons r results ih =>
    rw [List.foldl_cons, ih, addScore_eq]
    by_cases counted : scored U r = true
    · simp [population, counted, add_assoc, Nat.add_comm 1]
    · simp [population, counted]

-- Each mean is the plain average of its score over the one population.
theorem meanOver_eq (results : List QuestionResult) :
    meanOver U score results =
      ((population U results).map fun r => score r (toLowercase U r.groundTruth)).sum /
        ((population U results).length : F) := by
  simp only [meanOver, foldl_addScore, zero_add]
  split
  · next none => simp [List.length_eq_zero_iff.mp none]
  · rfl

theorem meanOver_perm {results results' : List QuestionResult} (perm : results.Perm results') :
    meanOver U score results = meanOver U score results' := by
  have counted := perm.filter (scored U)
  rw [meanOver_eq, meanOver_eq, population, population, counted.length_eq,
    (counted.map fun r => score r (toLowercase U r.groundTruth)).sum_eq]

end Means

theorem computeRetrievalStats_perm (U : UnicodeData) {results results' : List QuestionResult}
    (perm : results.Perm results') :
    computeRetrievalStats U results = computeRetrievalStats U results' := by
  have any : (results.any fun r => !r.retrievedMemoryContents.isEmpty) =
      results'.any fun r => !r.retrievedMemoryContents.isEmpty := by
    rw [Bool.eq_iff_iff, List.any_eq_true, List.any_eq_true]
    exact exists_congr fun r => and_congr_left' perm.mem_iff
  simp only [computeRetrievalStats, meanRecallAtK, meanNdcgAtK, meanReciprocalRank, any,
    meanOver_perm U _ perm]

def retrievalSide (r : QuestionResult) : QuestionResult :=
  { qr r.answerKind .notJudged "" with
    groundTruth := r.groundTruth
    retrievedMemoryContents := r.retrievedMemoryContents
    ingestionFailed := r.ingestionFailed
    retrievalFailed := r.retrievalFailed }

theorem computeRetrievalStats_retrievalSide (U : UnicodeData) (results : List QuestionResult) :
    computeRetrievalStats U (results.map retrievalSide) = computeRetrievalStats U results := by
  simp only [computeRetrievalStats, meanRecallAtK, meanNdcgAtK, meanReciprocalRank, meanOver,
    List.foldl_map, List.any_map]
  rfl

end BrainEval.Retrieval
