import Mathlib
import BrainEval.Runner.Agreement

set_option autoImplicit false

namespace BrainEval.Runner

open SortBy

def Fate.isUnavailable : Fate → Bool
  | .unavailable _ => true
  | _ => false

namespace Run

variable (run : Run)

def phase1Fails (idx : Nat) : Bool :=
  (run.planOf (run.key idx)).any fun pl => (run.fate pl).isUnavailable

def phase1Idxs (pl : Planned) : List Nat := if (run.fate pl).isUnavailable then pl.idxs else []

theorem phase1Of_idx (pl : Planned) : (run.phase1Of pl).map (·.idx) = run.phase1Idxs pl := by
  unfold phase1Of phase1Idxs
  cases run.fate pl <;> simp [Fate.isUnavailable, Function.comp_def, failed]

theorem mem_phase1Idxs {idx : Nat} :
    idx ∈ run.phase0.planned.flatMap run.phase1Idxs ↔
      idx < run.instances.length ∧ run.phase1Fails idx = true := by
  have planned : ∀ pl ∈ run.phase0.planned, idx ∈ pl.idxs →
      run.phase1Fails idx = (run.fate pl).isUnavailable := by
    intro pl member inside
    rw [phase1Fails, run.planOf_of_mem member inside, Option.any_some]
  rw [List.mem_flatMap]
  constructor
  · rintro ⟨pl, member, inside⟩
    unfold phase1Idxs at inside
    split at inside
    · next fails =>
      exact ⟨run.idx_lt_of_mem member inside, (planned pl member inside).trans fails⟩
    · simp at inside
  · rintro ⟨within, fails⟩
    obtain ⟨pl, member, inside, _⟩ := run.planOf_key within
    refine ⟨pl, member, ?_⟩
    rw [planned pl member inside] at fails
    simpa [phase1Idxs, fails] using inside

theorem phase1Idxs_keyed :
    (run.phase0.planned.flatMap run.phase1Idxs).Pairwise fun a b =>
      run.key a < run.key b ∨ run.key a = run.key b ∧ a < b := by
  have keyed : ∀ pl ∈ run.phase0.planned, ∀ idx ∈ run.phase1Idxs pl, run.key idx = pl.convKey := by
    intro pl member idx inside
    unfold phase1Idxs at inside
    split at inside
    · exact run.key_of_mem member inside
    · simp at inside
  rw [List.pairwise_flatMap]
  constructor
  · intro pl member
    have counted : (run.phase1Idxs pl).Pairwise (· < ·) := by
      unfold phase1Idxs
      split
      · rw [(run.mem_planned member).1]
        exact List.pairwise_lt_range.filter _
      · exact List.Pairwise.nil
    refine counted.imp_of_mem ?_
    intro a b left right less
    exact Or.inr ⟨(keyed pl member a left).trans (keyed pl member b right).symm, less⟩
  · refine run.planned_keys_strict.imp_of_mem ?_
    intro pl pl' member member' less a left b right
    rw [keyed pl member a left, keyed pl' member' b right]
    exact Or.inl less

namespace Schedule

variable {run} (s : run.Schedule)

theorem order_eq :
    s.order = run.phase0.planned.flatMap run.phase1Idxs ++ s.merged.map (·.idx) := by
  rw [order, pushes, List.map_append, phase1_eq, List.map_flatMap]
  simp only [phase1Of_idx]

theorem merged_counted : (s.merged.map (·.idx)).Pairwise (· < ·) := by
  have distinct := s.order_nodup
  rw [order, pushes, List.map_append] at distinct
  rw [List.pairwise_map]
  exact sortByKey_strict (((sortByKey_perm _ _).map _).nodup_iff.mp
    (List.Nodup.of_append_right distinct))

structure InInstanceOrder : Prop where
  order : s.order = List.range run.instances.length
  reports : List.Forall₂ Merged.Reports s.pushes run.instances

theorem inInstanceOrder_of_order (counted : s.order = List.range run.instances.length) :
    s.InInstanceOrder := by
  refine ⟨counted, ?_⟩
  have pushed : s.pushes.length = run.instances.length := by
    simpa [order] using congrArg List.length counted
  rw [List.forall₂_iff_get]
  refine ⟨pushed, fun k below within => ?_⟩
  have index : (s.pushes.get ⟨k, below⟩).idx = k := by
    have kth := List.getElem_of_eq counted (i := k) (by simpa [order] using below)
    simpa [order] using kth
  obtain ⟨idx, _, settled⟩ := s.mem_pushes.mp (List.get_mem s.pushes ⟨k, below⟩)
  have reports := run.outcome_reports settled
  rw [← run.outcome_idx settled, index] at reports
  simpa [inst, within] using reports

theorem order_eq_range_iff (asking : run.config.verifyMemoryList = false) :
    s.order = List.range run.instances.length ↔
      ∀ i j, i < j → j < run.instances.length → run.phase1Fails j = true →
        run.phase1Fails i = true ∧ run.key i ≤ run.key j := by
  -- the failures stand in key order before the rest in index order
  have perm := s.order_perm asking
  rw [order_eq] at perm ⊢
  rw [append_eq_range_iff run.key perm run.phase1Idxs_keyed s.merged_counted]
  constructor
  · intro closed i j less within fails
    obtain ⟨inside, rising⟩ := closed i j less (run.mem_phase1Idxs.mpr ⟨within, fails⟩)
    exact ⟨(run.mem_phase1Idxs.mp inside).2, rising⟩
  · intro closed i j less inside
    obtain ⟨within, fails⟩ := run.mem_phase1Idxs.mp inside
    obtain ⟨earlier, rising⟩ := closed i j less within fails
    exact ⟨run.mem_phase1Idxs.mpr ⟨less.trans within, earlier⟩, rising⟩

-- The report is in instance order exactly when no question that phase 1 failed comes after one it
-- did not, or after one of a later conversation key.
theorem instance_order_iff (asking : run.config.verifyMemoryList = false) :
    s.InInstanceOrder ↔
      ∀ i j, i < j → j < run.instances.length → run.phase1Fails j = true →
        run.phase1Fails i = true ∧ run.key i ≤ run.key j := by
  rw [← s.order_eq_range_iff asking]
  exact ⟨fun listed => listed.order, s.inInstanceOrder_of_order⟩

end Schedule

def firstRefused : Run :=
  plainRun { World.silent with
      connect := fun k _ _ => if k = "a" then .error "refused" else .ok () }
    [sampleInstance "q0" "a", sampleInstance "q1" "b"]

theorem first_refused_in_order : firstRefused.reversed.InInstanceOrder := by
  refine (firstRefused.reversed.instance_order_iff rfl).mpr ?_
  intro i j less within fails
  have connected : firstRefused.phase1Fails 1 = false := by decide +kernel
  have two : firstRefused.instances.length = 2 := rfl
  obtain rfl : j = 1 := by omega
  simp [connected] at fails

def secondRefused : Run :=
  plainRun { World.silent with
      connect := fun k _ _ => if k = "b" then .error "refused" else .ok () }
    [sampleInstance "q0" "a", sampleInstance "q1" "b"]

theorem refused_question_comes_first :
    secondRefused.sequential.questionResults.map (·.questionId) = ["q1", "q0"] ∧
      ¬ secondRefused.sequential.InInstanceOrder := by
  have swapped : secondRefused.sequential.order = [1, 0] := by decide +kernel
  refine ⟨by decide +kernel, fun listed => ?_⟩
  have counted := swapped.symm.trans listed.order
  revert counted
  decide

end Run

end BrainEval.Runner
