import Mathlib
import BrainEval.Core.Outcome
import BrainEval.Lib.Agreement

set_option autoImplicit false

namespace BrainEval.MetaJudge

open Agreement

structure LabeledVerdict where
  gold : Verdict
  judge : Verdict
  deriving DecidableEq

structure JudgeMetaReport where
  n : Nat
  exactAgreement : ℚ
  adjacentAgreement : ℚ
  cohensKappa : ℚ
  scoreBias : ℚ
  scoreMae : ℚ
  confusion : Table (Fin 3)

def verdictIndex : Verdict → Option (Fin 3)
  | .correct => some 0
  | .partialCredit => some 1
  | .incorrect => some 2
  | .notJudged => none

-- What `meta_evaluate` accumulates in its pass over the labels.
structure Tally where
  confusion : Table (Fin 3)
  graded : Nat
  exact : Nat
  adjacent : Nat
  signed : ℚ
  abs : ℚ

def Tally.empty : Tally where
  confusion := fun _ _ => 0
  graded := 0
  exact := 0
  adjacent := 0
  signed := 0
  abs := 0

-- The loop's body; a pair ungraded on either side is skipped.
def Tally.count (t : Tally) (l : LabeledVerdict) : Tally :=
  match verdictIndex l.gold, verdictIndex l.judge with
  | some gi, some ji =>
    let d := l.judge.score - l.gold.score
    { confusion := bump t.confusion gi ji
      graded := t.graded + 1
      exact := if gi = ji then t.exact + 1 else t.exact
      adjacent := if Nat.dist gi ji ≤ 1 then t.adjacent + 1 else t.adjacent
      signed := t.signed + d
      abs := t.abs + |d| }
  | _, _ => t

structure Marginals where
  agree : Nat
  rowTot : Fin 3 → Nat
  colTot : Fin 3 → Nat

def Marginals.add (confusion : Table (Fin 3)) (m : Marginals) (gi ji : Fin 3) : Marginals where
  agree := if gi = ji then m.agree + confusion gi ji else m.agree
  rowTot := Function.update m.rowTot gi (m.rowTot gi + confusion gi ji)
  colTot := Function.update m.colTot ji (m.colTot ji + confusion gi ji)

def marginals (confusion : Table (Fin 3)) : Marginals :=
  (List.finRange 3).foldl
    (fun m gi => (List.finRange 3).foldl (fun m ji => m.add confusion gi ji) m)
    { agree := 0, rowTot := fun _ => 0, colTot := fun _ => 0 }

-- The tests of a difference against the machine epsilon are equalities of rationals here.
def cohensKappa (confusion : Table (Fin 3)) (n : Nat) : ℚ :=
  if n = 0 then 0
  else
    let m := marginals confusion
    let po : ℚ := m.agree / n
    let pe : ℚ := ((List.finRange 3).map fun i => (m.rowTot i / n : ℚ) * (m.colTot i / n)).sum
    if 1 - pe = 0 then if po - 1 = 0 then 1 else 0
    else (po - pe) / (1 - pe)

def tally (labels : List LabeledVerdict) : Tally := labels.foldl Tally.count Tally.empty

def Tally.report (t : Tally) : JudgeMetaReport where
  n := t.graded
  exactAgreement := t.exact / t.graded
  adjacentAgreement := t.adjacent / t.graded
  cohensKappa := cohensKappa t.confusion t.graded
  scoreBias := t.signed / t.graded
  scoreMae := t.abs / t.graded
  confusion := t.confusion

def metaEvaluate (labels : List LabeledVerdict) : Option JudgeMetaReport :=
  if labels.length = 0 then none
  else
    let t := tally labels
    if t.graded = 0 then none else some t.report

def disagreementRate (runA runB : List Verdict) : Option ℚ :=
  if runA.isEmpty || runA.length != runB.length then none
  else some (((runA.zip runB).filter fun pair => pair.1 != pair.2).length / runA.length)

def LabeledVerdict.graded (l : LabeledVerdict) : Bool := l.gold.isGraded && l.judge.isGraded

def LabeledVerdict.swap (l : LabeledVerdict) : LabeledVerdict where
  gold := l.judge
  judge := l.gold

def Tally.swap (t : Tally) : Tally :=
  { t with confusion := t.confusion.transpose, signed := -t.signed }

def JudgeMetaReport.swap (r : JudgeMetaReport) : JudgeMetaReport :=
  { r with confusion := r.confusion.transpose, scoreBias := -r.scoreBias }

/-- What the figures of one report owe to each other. -/
structure JudgeMetaReport.Lawful (r : JudgeMetaReport) : Prop where
  cells : total r.confusion = r.n
  exact_le : r.exactAgreement ≤ r.adjacentAgreement
  adjacent_le : r.adjacentAgreement ≤ 1
  mae : r.scoreMae = 1 - (r.exactAgreement + r.adjacentAgreement) / 2
  bias_le : |r.scoreBias| ≤ r.scoreMae
  kappa_le : r.cohensKappa ≤ 1
  kappa_eq : r.cohensKappa = 1 ↔ r.exactAgreement = 1

structure MetaLaws (labels : List LabeledVerdict) : Prop where
  graded : metaEvaluate labels = metaEvaluate (labels.filter LabeledVerdict.graded)
  none_iff : metaEvaluate labels = none ↔ labels.filter LabeledVerdict.graded = []
  report : ∀ r, metaEvaluate labels = some r → r.Lawful
  swapped : metaEvaluate (labels.map LabeledVerdict.swap) =
    (metaEvaluate labels).map JudgeMetaReport.swap
  streams : (∀ l ∈ labels, l.graded = true) →
    disagreementRate (labels.map LabeledVerdict.gold) (labels.map LabeledVerdict.judge) =
      (metaEvaluate labels).map fun r => 1 - r.exactAgreement

/-- The pass's state: the table holds what was graded, and the absolute error is what the two
agreements leave. -/
structure Tally.Sound (t : Tally) : Prop where
  total_eq : total t.confusion = t.graded
  agreed_eq : agreed t.confusion = t.exact
  exact_le : t.exact ≤ t.adjacent
  adjacent_le : t.adjacent ≤ t.graded
  abs_eq : t.abs = t.graded - (t.exact + t.adjacent) / 2
  signed_le : |t.signed| ≤ t.abs

section Counting

variable {l : LabeledVerdict}

theorem verdictIndex_inj {a b : Verdict} : verdictIndex a = verdictIndex b ↔ a = b := by
  cases a <;> cases b <;> decide

theorem graded_iff :
    l.graded = true ↔ ∃ gi ji, verdictIndex l.gold = some gi ∧ verdictIndex l.judge = some ji := by
  rcases l with ⟨gold, judge⟩
  cases gold <;> cases judge <;> simp [LabeledVerdict.graded, Verdict.isGraded, verdictIndex]

theorem count_of_graded (t : Tally) {gi ji : Fin 3} (gold : verdictIndex l.gold = some gi)
    (judge : verdictIndex l.judge = some ji) :
    t.count l =
      { confusion := bump t.confusion gi ji
        graded := t.graded + 1
        exact := if gi = ji then t.exact + 1 else t.exact
        adjacent := if Nat.dist gi ji ≤ 1 then t.adjacent + 1 else t.adjacent
        signed := t.signed + (l.judge.score - l.gold.score)
        abs := t.abs + |l.judge.score - l.gold.score| } := by
  simp only [Tally.count, gold, judge]

theorem count_of_ungraded (t : Tally) (ungraded : l.graded = false) : t.count l = t := by
  unfold Tally.count
  split
  next gi ji gold judge =>
    rw [graded_iff.mpr ⟨gi, ji, gold, judge⟩] at ungraded
    contradiction
  next => rfl

-- One step between neighbours costs half a point, an exact match nothing.
theorem error_eq {gi ji : Fin 3} (gold : verdictIndex l.gold = some gi)
    (judge : verdictIndex l.judge = some ji) :
    |l.judge.score - l.gold.score| =
      1 - ((if gi = ji then 1 else 0) + (if Nat.dist gi ji ≤ 1 then 1 else 0)) / 2 := by
  rcases l with ⟨g, j⟩
  cases g <;> cases j <;> cases gold <;> cases judge <;> decide +kernel

theorem count_sound {t : Tally} (sound : t.Sound) : (t.count l).Sound := by
  by_cases graded : l.graded = true
  next =>
    obtain ⟨gi, ji, gold, judge⟩ := graded_iff.mp graded
    have error := error_eq gold judge
    rw [count_of_graded t gold judge]
    have near : gi = ji → Nat.dist gi ji ≤ 1 := by
      rintro rfl
      rw [Nat.dist_self]
      exact Nat.zero_le 1
    constructor
    · exact (total_bump _ _ _).trans (congrArg (· + 1) sound.total_eq)
    · rw [agreed_bump, sound.agreed_eq]
      dsimp only
      split <;> rfl
    · have := sound.exact_le
      dsimp only
      split_ifs <;> grind
    · have := sound.adjacent_le
      dsimp only
      split_ifs <;> omega
    · dsimp only
      rw [error, sound.abs_eq]
      split_ifs <;> push_cast <;> ring
    · exact (abs_add_le _ _).trans (add_le_add_left sound.signed_le _)
  next =>
    rw [count_of_ungraded t (Bool.not_eq_true _ ▸ graded)]
    exact sound

theorem empty_sound : Tally.empty.Sound := by
  constructor <;> simp [Tally.empty, total, rowTotal, agreed]

theorem tally_sound (labels : List LabeledVerdict) : (tally labels).Sound := by
  unfold tally
  induction labels using List.reverseRecOn with
  | nil => exact empty_sound
  | append_singleton front l ih =>
    rw [List.foldl_append]
    exact count_sound ih

end Counting

section Kappa

variable (confusion : Table (Fin 3))

theorem marginals_eq :
    marginals confusion =
      { agree := agreed confusion
        rowTot := rowTotal confusion
        colTot := colTotal confusion } := by
  have agree : (marginals confusion).agree = agreed confusion := by
    simp [marginals, Marginals.add, agreed, List.finRange, Fin.sum_univ_three]
  have rows : (marginals confusion).rowTot = rowTotal confusion := by
    funext i
    fin_cases i <;>
      simp [marginals, Marginals.add, rowTotal, List.finRange, Fin.sum_univ_three]
  have cols : (marginals confusion).colTot = colTotal confusion := by
    funext j
    fin_cases j <;>
      simp [marginals, Marginals.add, colTotal, List.finRange, Fin.sum_univ_three]
  rw [← agree, ← rows, ← cols]

theorem cohensKappa_eq (some : total confusion ≠ 0) :
    cohensKappa confusion (total confusion) = kappa ℚ confusion := by
  have chance : ((List.finRange 3).map fun i =>
      (rowTotal confusion i / total confusion : ℚ) * (colTotal confusion i / total confusion)).sum =
        byChance confusion / (total confusion : ℚ) ^ 2 := by
    rw [← List.ofFn_eq_map, List.sum_ofFn, byChance]
    push_cast
    rw [Finset.sum_div]
    refine Finset.sum_congr rfl fun i _ => ?_
    rw [div_mul_div_comm, sq]
  simp only [cohensKappa, if_neg some, marginals_eq, chance, kappa]

end Kappa

section Report

variable {labels : List LabeledVerdict} {r : JudgeMetaReport}

theorem count_filter (t : Tally) :
    (labels.filter LabeledVerdict.graded).foldl Tally.count t = labels.foldl Tally.count t := by
  induction labels generalizing t with
  | nil => rfl
  | cons l rest ih =>
    rw [List.filter_cons, List.foldl_cons]
    split
    next => rw [List.foldl_cons, ih]
    next ungraded => rw [ih, count_of_ungraded t (Bool.not_eq_true _ ▸ ungraded)]

theorem count_graded (t : Tally) :
    (labels.foldl Tally.count t).graded = t.graded + labels.countP LabeledVerdict.graded := by
  induction labels generalizing t with
  | nil => rfl
  | cons l rest ih =>
    rw [List.foldl_cons, ih]
    by_cases graded : l.graded = true
    next =>
      obtain ⟨gi, ji, gold, judge⟩ := graded_iff.mp graded
      rw [count_of_graded t gold judge, List.countP_cons_of_pos graded]
      exact Nat.add_right_comm _ _ _
    next =>
      rw [count_of_ungraded t (Bool.not_eq_true _ ▸ graded), List.countP_cons_of_neg graded]

theorem tally_graded (labels : List LabeledVerdict) :
    (tally labels).graded = labels.countP LabeledVerdict.graded := by
  rw [tally, count_graded]
  exact Nat.zero_add _

theorem metaEvaluate_eq (labels : List LabeledVerdict) :
    metaEvaluate labels =
      if (tally labels).graded = 0 then none else some (tally labels).report := by
  unfold metaEvaluate
  split
  next empty =>
    rw [List.length_eq_zero_iff] at empty
    subst empty
    rfl
  next => rfl

theorem metaEvaluate_filter :
    metaEvaluate labels = metaEvaluate (labels.filter LabeledVerdict.graded) := by
  have same : tally (labels.filter LabeledVerdict.graded) = tally labels := count_filter _
  rw [metaEvaluate_eq, metaEvaluate_eq, same]

theorem metaEvaluate_eq_none :
    metaEvaluate labels = none ↔ labels.filter LabeledVerdict.graded = [] := by
  rw [metaEvaluate_eq, ← List.length_eq_zero_iff, ← List.countP_eq_length_filter, ← tally_graded]
  split
  next none => simp [none]
  next some => simp [some]

theorem lawful (computed : metaEvaluate labels = some r) : r.Lawful := by
  have sound := tally_sound labels
  rw [metaEvaluate_eq] at computed
  split at computed
  next => simp at computed
  next some =>
    obtain rfl := Option.some_inj.mp computed
    have long : (0 : ℚ) < (tally labels).graded := Nat.cast_pos.mpr (Nat.pos_of_ne_zero some)
    have cells := sound.total_eq
    have kappas := kappa_bounds (F := ℚ) (tally labels).confusion (cells ▸ some)
    rw [← cohensKappa_eq _ (cells ▸ some), cells, sound.agreed_eq] at kappas
    constructor
    · exact cells
    · exact div_le_div_of_nonneg_right (Nat.cast_le.mpr sound.exact_le) long.le
    · exact div_le_one_of_le₀ (Nat.cast_le.mpr sound.adjacent_le) long.le
    · simp only [Tally.report, sound.abs_eq]
      field_simp
    · simp only [Tally.report]
      rw [abs_div, abs_of_pos long]
      exact div_le_div_of_nonneg_right sound.signed_le long.le
    · exact kappas.1
    · simp only [Tally.report]
      rw [div_eq_one_iff_eq long.ne', Nat.cast_inj]
      exact kappas.2

end Report

section Swap

theorem swap_count (t : Tally) (l : LabeledVerdict) :
    t.swap.count l.swap = (t.count l).swap := by
  by_cases graded : l.graded = true
  next =>
    obtain ⟨gi, ji, gold, judge⟩ := graded_iff.mp graded
    have gold' : verdictIndex l.swap.gold = some ji := judge
    have judge' : verdictIndex l.swap.judge = some gi := gold
    rw [count_of_graded _ gold' judge', count_of_graded t gold judge]
    have back : l.gold.score - l.judge.score = -(l.judge.score - l.gold.score) :=
      (neg_sub _ _).symm
    simp only [Tally.swap, LabeledVerdict.swap, bump_transpose, eq_comm (a := ji),
      Nat.dist_comm ji.val, back, abs_neg, neg_add]
  next =>
    rw [Bool.not_eq_true] at graded
    have graded' : l.swap.graded = false := by
      rw [← graded]
      exact Bool.and_comm _ _
    rw [count_of_ungraded _ graded', count_of_ungraded t graded]

theorem tally_swap (labels : List LabeledVerdict) :
    tally (labels.map LabeledVerdict.swap) = (tally labels).swap := by
  unfold tally
  induction labels using List.reverseRecOn with
  | nil => simp [Tally.swap, Tally.empty]; rfl
  | append_singleton front l ih =>
    rw [List.map_append, List.foldl_append, List.foldl_append, ih]
    exact swap_count _ l

theorem cohensKappa_transpose (labels : List LabeledVerdict) :
    cohensKappa (tally labels).confusion.transpose (tally labels).graded =
      cohensKappa (tally labels).confusion (tally labels).graded := by
  have cells := (tally_sound labels).total_eq
  by_cases none : (tally labels).graded = 0
  next => simp only [cohensKappa, if_pos none]
  next =>
    have some : total (tally labels).confusion ≠ 0 := cells ▸ none
    rw [← cells, cohensKappa_eq _ some, ← kappa_transpose, ← cohensKappa_eq]
    · rw [total_transpose]
    · rwa [total_transpose]

theorem metaEvaluate_swap (labels : List LabeledVerdict) :
    metaEvaluate (labels.map LabeledVerdict.swap) =
      (metaEvaluate labels).map JudgeMetaReport.swap := by
  rw [metaEvaluate_eq, metaEvaluate_eq, tally_swap]
  by_cases none : (tally labels).graded = 0
  next => simp [Tally.swap, none]
  next =>
    simp only [Tally.swap, Tally.report, if_neg none, Option.map_some, JudgeMetaReport.swap,
      cohensKappa_transpose, neg_div]

end Swap

section Streams

variable {labels : List LabeledVerdict} (graded : ∀ l ∈ labels, l.graded = true)

include graded

theorem exact_add_disagreements (t : Tally) :
    (labels.foldl Tally.count t).exact + labels.countP (fun l => l.gold != l.judge) =
      t.exact + labels.length := by
  induction labels generalizing t with
  | nil => rfl
  | cons l rest ih =>
    obtain ⟨gi, ji, gold, judge⟩ := graded_iff.mp (graded l List.mem_cons_self)
    have match_iff : gi = ji ↔ l.gold = l.judge := by
      rw [← verdictIndex_inj, gold, judge, Option.some_inj]
    have rest := ih (fun x member => graded x (List.mem_cons_of_mem _ member)) (t.count l)
    rw [count_of_graded t gold judge] at rest
    rw [List.foldl_cons, List.countP_cons, List.length_cons, count_of_graded t gold judge]
    by_cases same : gi = ji
    next =>
      simp only [if_pos same, match_iff.mp same, bne_self_eq_false, Bool.false_eq_true,
        if_false] at rest ⊢
      omega
    next =>
      have differ : (l.gold != l.judge) = true := bne_iff_ne.mpr fun h => same (match_iff.mpr h)
      simp only [if_neg same, differ, if_true] at rest ⊢
      omega

theorem disagreementRate_eq :
    disagreementRate (labels.map LabeledVerdict.gold) (labels.map LabeledVerdict.judge) =
      (metaEvaluate labels).map fun r => 1 - r.exactAgreement := by
  have all : labels.countP LabeledVerdict.graded = labels.length :=
    List.countP_eq_length.mpr graded
  have split := exact_add_disagreements graded Tally.empty
  have pairs : (((labels.map LabeledVerdict.gold).zip (labels.map LabeledVerdict.judge)).filter
      fun pair => pair.1 != pair.2).length = labels.countP fun l => l.gold != l.judge := by
    rw [← List.countP_eq_length_filter, List.zip_map', List.countP_map]
    rfl
  rw [disagreementRate, pairs, metaEvaluate_eq, tally_graded, all]
  by_cases none : labels = []
  next => simp [none]
  next =>
    have some : labels.length ≠ 0 := fun zero => none (List.length_eq_zero_iff.mp zero)
    have long : (labels.length : ℚ) ≠ 0 := Nat.cast_ne_zero.mpr some
    have counted : ((tally labels).exact : ℚ) + labels.countP (fun l => l.gold != l.judge) =
        labels.length := by
      have exact : Tally.empty.exact = 0 := rfl
      rw [exact, Nat.zero_add] at split
      exact_mod_cast split
    simp only [List.isEmpty_map, List.isEmpty_eq_false_iff.mpr none, List.length_map,
      bne_self_eq_false, Bool.or_false, Bool.false_eq_true, if_false, if_neg some,
      Option.map_some, Tally.report, tally_graded, all]
    congr 1
    rw [eq_sub_iff_add_eq, ← add_div, add_comm, counted, div_self long]

end Streams

theorem meta_evaluate_laws (labels : List LabeledVerdict) : MetaLaws labels where
  graded := metaEvaluate_filter
  none_iff := metaEvaluate_eq_none
  report := fun _ => lawful
  swapped := metaEvaluate_swap labels
  streams := disagreementRate_eq

end BrainEval.MetaJudge
