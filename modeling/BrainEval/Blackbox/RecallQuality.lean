import Mathlib
import BrainEval.Lib.RankWeight
import BrainEval.Client.Harness
import BrainEval.Score.Retrieval

set_option autoImplicit false

namespace BrainEval.Scale

open RustStr Ranking

structure RecallTargets where
  at1 : ℚ
  atK : ℚ
  mrr : ℚ
  ndcg : ℚ

def RecallTargets.default : RecallTargets := ⟨97 / 100, 95 / 100, 97 / 100, 97 / 100⟩

structure RecallQualityReport where
  queries : Nat
  topK : Nat
  recallAt1 : ℚ
  recallAtK : ℚ
  mrr : ℚ
  ndcgAtK : ℝ
  targetAt1 : ℚ
  targetAtK : ℚ
  targetMrr : ℚ
  targetNdcg : ℚ

def RecallQualityReport.pass (r : RecallQualityReport) : Bool :=
  r.recallAt1 ≥ r.targetAt1 && r.recallAtK ≥ r.targetAtK

def RecallQualityReport.MeetsRankingAdvisories (r : RecallQualityReport) : Prop :=
  r.mrr ≥ r.targetMrr ∧ r.ndcgAtK ≥ r.targetNdcg

-- `{n:0width}`
def zeroPad (width n : Nat) : String :=
  let digits := (toString n).toList
  String.ofList (List.replicate (width - digits.length) '0' ++ digits)

def nonce (salt : String) (i : Nat) : String := "zq" ++ salt ++ zeroPad 6 i ++ "xz"

-- The text `run_recall_quality` encodes for query `i`.
def noteText (salt : String) (i : Nat) : String :=
  "Reference note " ++ toString i ++ ": the marker is " ++ nonce salt i ++
    ". Surrounded by ordinary prose so retrieval has to discriminate."

structure ProbeEncode where
  text : String
  waitDerived : Bool

structure ProbeRecall where
  cue : String
  maxResults : Nat
  includeText : Bool

structure Tally where
  hitAt1 : Nat
  hitAtK : Nat
  sumRr : ℚ
  sumNdcg : ℝ

def Tally.zero : Tally := ⟨0, 0, 0, 0⟩

noncomputable def Tally.addQuery (topK : Nat) (needle : String) (tally : Tally)
    (hits : List MemoryResult) : Tally :=
  let rank := hits.findIdx? fun m => contains m.text needle
  let gains : List ℝ := hits.map fun m => if contains m.text needle then 1 else 0
  { hitAt1 := if rank = some 0 then tally.hitAt1 + 1 else tally.hitAt1
    hitAtK := if rank.isSome then tally.hitAtK + 1 else tally.hitAtK
    sumRr := tally.sumRr + reciprocalRank rank
    sumNdcg := tally.sumNdcg + ndcgAtK gains topK }

section Run

variable (encodeNote : Nat → ProbeEncode → Except HarnessError Unit)
  (recallNote : Nat → ProbeRecall → Except HarnessError RecallAnswer)

noncomputable def queryNotes (topK : Nat) (salt : String) :
    List Nat → Tally → Except HarnessError Tally
  | [], tally => .ok tally
  | i :: rest, tally => do
    let needle := nonce salt i
    let answer ← recallNote i ⟨needle, topK, true⟩
    queryNotes topK salt rest (tally.addQuery topK needle answer.memories)

noncomputable def Tally.report (tally : Tally) (n topK : Nat) (targets : RecallTargets) :
    RecallQualityReport :=
  let denom := max n 1
  { queries := n
    topK
    recallAt1 := tally.hitAt1 / denom
    recallAtK := tally.hitAtK / denom
    mrr := tally.sumRr / denom
    ndcgAtK := tally.sumNdcg / denom
    targetAt1 := targets.at1
    targetAtK := targets.atK
    targetMrr := targets.mrr
    targetNdcg := targets.ndcg }

noncomputable def runRecallQuality (n topK : Nat) (salt : String) (targets : RecallTargets) :
    Except HarnessError RecallQualityReport := do
  -- each write waits until it can be recalled
  (List.range n).forM fun i => encodeNote i ⟨noteText salt i, true⟩
  let tally ← queryNotes recallNote topK salt (List.range n) .zero
  return tally.report n topK targets

end Run

/-- One answer to one query: `top_k` hits at most, one of them with the needle at most. -/
structure KnownAnswer (topK : Nat) (needle : String) (hits : List MemoryResult) : Prop where
  short : hits.length ≤ topK
  single : hits.countP (fun m => contains m.text needle) ≤ 1

-- The place is counted from zero here, and from one there.
theorem reciprocalRank_agrees {T : Type} (ranked : List T) (isRelevant : T → Bool) :
    reciprocalRank (ranked.findIdx? isRelevant) = Retrieval.reciprocalRank ranked isRelevant := by
  rw [reciprocalRank.eq_def, Retrieval.reciprocalRank]
  cases ranked.findIdx? isRelevant with
  | none => rfl
  | some i => push_cast; rfl

section Query

variable {topK : Nat} {needle : String} {hits : List MemoryResult}

theorem gains_eq :
    (hits.map fun m => if contains m.text needle then (1 : ℝ) else 0) =
      (hits.map fun m => contains m.text needle).map gain := by
  rw [List.map_map]
  rfl

theorem count_relevance :
    (hits.map fun m => contains m.text needle).count true =
      hits.countP fun m => contains m.text needle := by
  rw [List.count_eq_countP, List.countP_map]
  congr 1
  funext m
  simp

theorem ndcg_of_missed (missed : hits.findIdx? (fun m => contains m.text needle) = none) :
    ndcgAtK (hits.map fun m => if contains m.text needle then (1 : ℝ) else 0) topK = 0 := by
  rw [gains_eq]
  apply ndcgAtK_none_relevant
  rw [count_relevance, List.countP_eq_zero]
  simpa [List.findIdx?_eq_none_iff] using missed

-- The one hit gains at its rank, and the ideal order has it first.
theorem ndcg_of_found (known : KnownAnswer topK needle hits) {r : Nat}
    (found : hits.findIdx? (fun m => contains m.text needle) = some r) :
    ndcgAtK (hits.map fun m => if contains m.text needle then (1 : ℝ) else 0) topK =
      1 / discount r := by
  obtain ⟨within, hit, -⟩ := List.findIdx?_eq_some_iff_getElem.mp found
  have place : (hits.map fun m => contains m.text needle)[r]? = some true := by
    simp [within, hit]
  have one : (hits.map fun m => contains m.text needle).count true = 1 := by
    apply le_antisymm (count_relevance.trans_le known.single)
    exact List.count_pos_iff.mpr (List.mem_of_getElem? place)
  have cut : min topK 1 = 1 := min_eq_right (by have := known.short; omega)
  have whole : (hits.map fun m => contains m.text needle).take topK =
      hits.map fun m => contains m.text needle :=
    List.take_of_length_le (by simpa using known.short)
  have ideal : discountedFrom 0 (List.replicate 1 1) = 1 := by simp [discount_zero]
  rw [gains_eq, ndcgAtK_binary, one, cut, ideal, if_neg one_ne_zero, whole, div_one,
    discounted_gains, hits_of_single one.le place, weight, Finset.sum_singleton]

theorem first_le_reciprocalRank (r : Nat) :
    (if r = 0 then 1 else 0 : ℚ) ≤ reciprocalRank (some r) := by
  rw [reciprocalRank]
  by_cases first : r = 0
  next => simp [first]
  next =>
    rw [if_neg first]
    positivity

theorem reciprocalRank_le_discount (r : Nat) :
    ((reciprocalRank (some r) : ℚ) : ℝ) ≤ 1 / discount r := by
  rw [reciprocalRank]
  push_cast
  exact one_div_le_one_div_of_le (discount_pos r) (discount_le r)

theorem discount_inv_le_one (r : Nat) : 1 / discount r ≤ 1 := by
  rw [div_le_one (discount_pos r)]
  exact one_le_discount r

-- The order the sums keep after `asked` queries.
structure Tally.Ordered (asked : Nat) (tally : Tally) : Prop where
  first_le_rr : (tally.hitAt1 : ℚ) ≤ tally.sumRr
  rr_le_ndcg : (tally.sumRr : ℝ) ≤ tally.sumNdcg
  ndcg_le_found : tally.sumNdcg ≤ tally.hitAtK
  found_le : tally.hitAtK ≤ asked

theorem Tally.zero_ordered : Tally.zero.Ordered 0 := by
  constructor <;> simp [Tally.zero]

theorem Tally.addQuery_missed (tally : Tally)
    (missed : hits.findIdx? (fun m => contains m.text needle) = none) :
    tally.addQuery topK needle hits = tally := by
  simp [Tally.addQuery, missed, ndcg_of_missed missed, reciprocalRank]

theorem Tally.addQuery_found (tally : Tally) (known : KnownAnswer topK needle hits) {r : Nat}
    (found : hits.findIdx? (fun m => contains m.text needle) = some r) :
    tally.addQuery topK needle hits =
      { hitAt1 := if r = 0 then tally.hitAt1 + 1 else tally.hitAt1
        hitAtK := tally.hitAtK + 1
        sumRr := tally.sumRr + reciprocalRank (some r)
        sumNdcg := tally.sumNdcg + 1 / discount r } := by
  simp [Tally.addQuery, found, ndcg_of_found known found]

theorem Tally.addQuery_ordered {tally : Tally} {asked : Nat} (ordered : tally.Ordered asked)
    (known : KnownAnswer topK needle hits) :
    (tally.addQuery topK needle hits).Ordered (asked + 1) := by
  obtain ⟨first_le_rr, rr_le_ndcg, ndcg_le_found, found_le⟩ := ordered
  cases found : hits.findIdx? fun m => contains m.text needle with
  | none =>
    rw [Tally.addQuery_missed tally found]
    exact ⟨first_le_rr, rr_le_ndcg, ndcg_le_found, Nat.le_succ_of_le found_le⟩
  | some r =>
    rw [Tally.addQuery_found tally known found]
    constructor <;> dsimp only
    · have first := first_le_reciprocalRank r
      by_cases zero : r = 0
      next =>
        rw [if_pos zero] at first ⊢
        push_cast
        linarith
      next =>
        rw [if_neg zero] at first ⊢
        linarith
    · have rank := reciprocalRank_le_discount r
      push_cast
      linarith
    · have top := discount_inv_le_one r
      push_cast
      linarith
    · exact Nat.succ_le_succ found_le

end Query

theorem queryNotes_ordered (recallNote : Nat → ProbeRecall → Except HarnessError RecallAnswer)
    {topK : Nat} {salt : String} {queries : List Nat} {tally : Tally} {asked : Nat}
    (ordered : tally.Ordered asked)
    (answered : ∀ i ∈ queries, ∃ answer, recallNote i ⟨nonce salt i, topK, true⟩ = .ok answer ∧
      KnownAnswer topK (nonce salt i) answer.memories) :
    ∃ total, queryNotes recallNote topK salt queries tally = .ok total ∧
      total.Ordered (asked + queries.length) := by
  induction queries generalizing tally asked with
  | nil => exact ⟨tally, rfl, ordered⟩
  | cons i rest ih =>
    obtain ⟨⟨answer, here, known⟩, later⟩ := List.forall_mem_cons.mp answered
    obtain ⟨total, run, kept⟩ := ih (Tally.addQuery_ordered ordered known) later
    refine ⟨total, ?_, ?_⟩
    · rw [queryNotes, here]
      exact run
    · rwa [List.length_cons, Nat.add_comm rest.length, ← Nat.add_assoc]

theorem forM_ok {ε α : Type} {f : α → Except ε Unit} {items : List α}
    (each : ∀ item ∈ items, f item = .ok ()) : items.forM f = .ok () := by
  induction items with
  | nil => rfl
  | cons item items ih =>
    obtain ⟨here, rest⟩ := List.forall_mem_cons.mp each
    change (f item >>= fun _ => items.forM f) = .ok ()
    rw [here]
    exact ih rest

structure RecallQualityReport.Ordered (r : RecallQualityReport) : Prop where
  recallAt1_le_mrr : r.recallAt1 ≤ r.mrr
  mrr_le_ndcg : (r.mrr : ℝ) ≤ r.ndcgAtK
  ndcg_le_recallAtK : r.ndcgAtK ≤ r.recallAtK
  recallAtK_le_one : r.recallAtK ≤ 1

-- The advisory floors are no higher than the gate on the first rank, so passing it meets them.
theorem advisories_of_pass {r : RecallQualityReport} (ordered : r.Ordered)
    (mrr_floor : r.targetMrr ≤ r.targetAt1) (ndcg_floor : r.targetNdcg ≤ r.targetAt1)
    (passed : r.pass = true) : r.MeetsRankingAdvisories := by
  have first : r.targetAt1 ≤ r.recallAt1 := by
    simp only [RecallQualityReport.pass, ge_iff_le, Bool.and_eq_true, decide_eq_true_eq] at passed
    exact passed.1
  have rank : r.targetAt1 ≤ r.mrr := first.trans ordered.recallAt1_le_mrr
  refine ⟨mrr_floor.trans rank, ?_⟩
  calc (r.targetNdcg : ℝ) ≤ r.mrr := by exact_mod_cast ndcg_floor.trans rank
    _ ≤ r.ndcgAtK := ordered.mrr_le_ndcg

theorem Tally.Ordered.report {tally : Tally} {n : Nat} (ordered : tally.Ordered n) (topK : Nat)
    (targets : RecallTargets) : (tally.report n topK targets).Ordered := by
  have least : (1 : ℚ) ≤ (max n 1 : Nat) := by exact_mod_cast le_max_right n 1
  have positive : (0 : ℚ) < (max n 1 : Nat) := lt_of_lt_of_le one_pos least
  have positive' : (0 : ℝ) < (max n 1 : Nat) := by exact_mod_cast positive
  constructor <;> simp only [Tally.report]
  · exact div_le_div_of_nonneg_right ordered.first_le_rr positive.le
  · push_cast
    exact div_le_div_of_nonneg_right ordered.rr_le_ndcg (by exact_mod_cast positive'.le)
  · push_cast
    exact div_le_div_of_nonneg_right ordered.ndcg_le_found (by exact_mod_cast positive'.le)
  · rw [div_le_one positive]
    exact_mod_cast ordered.found_le.trans (le_max_left n 1)

theorem known_answer_probe_laws (encodeNote : Nat → ProbeEncode → Except HarnessError Unit)
    (recallNote : Nat → ProbeRecall → Except HarnessError RecallAnswer) (n topK : Nat)
    (salt : String) (targets : RecallTargets)
    (encoded : ∀ i < n, encodeNote i ⟨noteText salt i, true⟩ = .ok ())
    (answered : ∀ i < n, ∃ answer, recallNote i ⟨nonce salt i, topK, true⟩ = .ok answer ∧
      KnownAnswer topK (nonce salt i) answer.memories) :
    (∃ report, runRecallQuality encodeNote recallNote n topK salt targets = .ok report ∧
      report.queries = n ∧ report.Ordered) ∧
    ∀ (hits : List MemoryResult) (needle : String),
      reciprocalRank (hits.findIdx? fun m => contains m.text needle) =
        Retrieval.reciprocalRank hits fun m => contains m.text needle := by
  refine ⟨?_, fun hits needle => reciprocalRank_agrees hits _⟩
  have written : (List.range n).forM (fun i => encodeNote i ⟨noteText salt i, true⟩) = .ok () :=
    forM_ok fun i member => encoded i (List.mem_range.mp member)
  have queried : ∀ i ∈ List.range n, ∃ answer,
      recallNote i ⟨nonce salt i, topK, true⟩ = .ok answer ∧
        KnownAnswer topK (nonce salt i) answer.memories :=
    fun i member => answered i (List.mem_range.mp member)
  obtain ⟨total, run, ordered⟩ := queryNotes_ordered recallNote Tally.zero_ordered queried
  rw [Nat.zero_add, List.length_range] at ordered
  refine ⟨total.report n topK targets, ?_, rfl, ordered.report topK targets⟩
  rw [runRecallQuality, written]
  change (queryNotes recallNote topK salt (List.range n) .zero >>= _) = _
  rw [run]
  rfl

def recalled (text : String) : MemoryResult := ⟨0, text, 0, 0, none, 0, [], none⟩

theorem second_hits_reported :
    ∃ report, runRecallQuality (fun _ _ => .ok ())
        (fun i _ => .ok ⟨.many, [recalled "Reference note", recalled (noteText "0a" i)]⟩) 2 2 "0a"
        .default = .ok report ∧ report.queries = 2 ∧ report.Ordered :=
  (known_answer_probe_laws _ _ 2 2 "0a" .default (fun _ _ => rfl) fun i asked =>
    ⟨_, rfl, le_refl 2, by
      dsimp only
      interval_cases i <;> decide +kernel⟩).1

end BrainEval.Scale
