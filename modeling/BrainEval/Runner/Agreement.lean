import Mathlib
import BrainEval.Runner.Fate

set_option autoImplicit false

namespace BrainEval.Runner

open SortBy Report

structure Merged.Reports (m : Merged) (inst : EvalInstance) : Prop where
  questionId : m.result.questionId = inst.questionId
  questionType : m.result.questionType = inst.questionType
  question : m.result.question = inst.question
  groundTruth : m.result.groundTruth = inst.answer
  record : m.record.result = m.result

theorem flatMap_filterMap {α β γ : Type} (f : α → Option β) (g : β → List γ) (items : List α) :
    (items.filterMap f).flatMap g = items.flatMap fun item => (f item).elim [] g := by
  induction items with
  | nil => rfl
  | cons item items ih => cases met : f item <;> simp [met, ih]

namespace Run

variable (run : Run)

def ledgerOf (pl : Planned) : Option ConversationWrite :=
  (run.groupOf pl).bind (·.conversationWrite)

theorem ledgerOf_id {pl : Planned} {write : ConversationWrite}
    (written : run.ledgerOf pl = some write) : write.conversationId = pl.convKey := by
  unfold ledgerOf groupOf at written
  split at written
  · simp at written
  · simp at written
  · by_cases reading : run.isReadOnly = true
    · simp [reading] at written
    · simp only [reading, Option.bind_some] at written
      obtain rfl := Option.some.inj written
      rfl

theorem outcome_reports {idx : Nat} {m : Merged} (settled : run.outcome idx = some m) :
    m.Reports (run.inst idx) := by
  rcases run.outcome_cases settled with ⟨_, _, _, rfl⟩ | ⟨_, _, _, rfl⟩
  · exact ⟨rfl, rfl, rfl, rfl, rfl⟩
  · exact ⟨rfl, rfl, rfl, rfl, rfl⟩

theorem planOf_key {idx : Nat} (within : idx < run.instances.length) :
    ∃ pl ∈ run.phase0.planned, idx ∈ pl.idxs ∧ run.planOf (run.key idx) = some pl := by
  have listed := run.planned_idxs_perm.mem_iff.mpr (List.mem_range.mpr within)
  obtain ⟨pl, member, inside⟩ := List.mem_flatMap.mp listed
  exact ⟨pl, member, inside, run.planOf_of_mem member inside⟩

theorem outcome_isSome (asking : run.config.verifyMemoryList = false) {idx : Nat}
    (within : idx < run.instances.length) : ∃ m, run.outcome idx = some m := by
  obtain ⟨pl, _, _, planned⟩ := run.planOf_key within
  rw [outcome, planned, Option.bind_some, asking]
  cases run.fate pl with
  | unavailable reason => exact ⟨_, rfl⟩
  | lost id reason => exact ⟨_, rfl⟩
  | opened id => exact ⟨_, rfl⟩

namespace Schedule

variable {run} (s s' : run.Schedule)

def order : List Nat := s.pushes.map (·.idx)

theorem phase1_eq : run.phase1Failures s.ingested = run.phase0.planned.flatMap run.phase1Of :=
  run.phase1Failures_eq s.ingested_perm

theorem groups_perm : s.readBack.Perm (run.phase0.planned.filterMap run.groupOf) := by
  rw [← run.groups_of_prepared s.ingested_perm]
  exact s.readBack_perm

theorem merged_perm :
    s.merged.Perm
      (run.phase0.planned.flatMap fun pl => (run.groupOf pl).elim [] (·.questions)) := by
  have questions := s.groups_perm.flatMap_right (·.questions)
  rw [flatMap_filterMap] at questions
  exact (sortByKey_perm _ _).trans questions

theorem pushes_questions : s.pushes.Perm (run.phase0.planned.flatMap run.questionsOf) := by
  rw [pushes, phase1_eq]
  exact (s.merged_perm.append_left _).trans (List.flatMap_append_perm _ _ _)

theorem pushes_perm :
    s.pushes.Perm ((List.range run.instances.length).filterMap run.outcome) :=
  s.pushes_questions.trans run.questions_perm

theorem mem_pushes {m : Merged} :
    m ∈ s.pushes ↔ ∃ idx, idx < run.instances.length ∧ run.outcome idx = some m := by
  rw [s.pushes_perm.mem_iff, List.mem_filterMap]
  simp only [List.mem_range]

theorem order_perm (asking : run.config.verifyMemoryList = false) :
    s.order.Perm (List.range run.instances.length) := by
  have perm := s.pushes_perm.map (·.idx)
  rw [List.map_filterMap] at perm
  refine perm.trans (List.Perm.of_eq ?_)
  calc
    _ = (List.range run.instances.length).filterMap some := by
      apply List.filterMap_congr
      intro idx member
      obtain ⟨m, settled⟩ := run.outcome_isSome asking (List.mem_range.mp member)
      rw [settled, Option.map_some, run.outcome_idx settled]
    _ = _ := List.filterMap_some

theorem order_nodup : s.order.Nodup := by
  have perm := s.pushes_perm.map (·.idx)
  refine perm.nodup_iff.mpr ?_
  rw [List.Nodup, List.pairwise_map, List.pairwise_filterMap]
  refine List.nodup_range.imp ?_
  intro a b ne m left m' right same
  rw [run.outcome_idx left, run.outcome_idx right] at same
  exact ne same

theorem merged_eq : s.merged = s'.merged := by
  apply sortByKey_eq_of_perm
  · exact (s.groups_perm.trans s'.groups_perm.symm).flatMap_right _
  · have distinct := s.order_nodup
    rw [order, pushes, List.map_append] at distinct
    exact ((sortByKey_perm _ _).map _).nodup_iff.mp (List.Nodup.of_append_right distinct)

theorem pushes_eq : s.pushes = s'.pushes := by
  rw [pushes, pushes, phase1_eq, phase1_eq, merged_eq s s']

theorem conversationWrites_eq :
    s.conversationWrites = run.phase0.planned.filterMap run.ledgerOf := by
  have perm := s.groups_perm.filterMap (·.conversationWrite)
  rw [List.filterMap_filterMap] at perm
  have strict : (run.phase0.planned.filterMap run.ledgerOf).Pairwise
      fun a b => a.conversationId < b.conversationId := by
    rw [List.pairwise_filterMap]
    refine run.planned_keys_strict.imp ?_
    intro a b less write left write' right
    rwa [run.ledgerOf_id left, run.ledgerOf_id right]
  apply sortByKey_unique perm
  · exact strict.imp fun less => le_of_lt less
  · have distinct : ((run.phase0.planned.filterMap run.ledgerOf).map (·.conversationId)).Nodup := by
      rw [List.Nodup, List.pairwise_map]
      exact strict.imp fun less => ne_of_lt less
    intro a left b right same
    exact List.inj_on_of_nodup_map distinct left right same

theorem records_results : s.questionRecords.map (·.result) = s.questionResults := by
  rw [questionRecords, questionResults, List.map_map]
  apply List.map_congr_left
  intro m member
  obtain ⟨idx, _, settled⟩ := s.mem_pushes.mp member
  exact (run.outcome_reports settled).record

/-- One result and one record for each instance, each that instance's. -/
structure ExactlyOnce : Prop where
  order : s.order.Perm (List.range run.instances.length)
  results : s.questionResults.length = run.instances.length
  records : s.questionRecords.length = run.instances.length
  reports : ∀ m ∈ s.pushes, m.Reports (run.inst m.idx)
  paired : s.questionRecords.map (·.result) = s.questionResults

theorem exactlyOnce (asking : run.config.verifyMemoryList = false) : s.ExactlyOnce := by
  have perm := s.order_perm asking
  have pushed : s.pushes.length = run.instances.length := by
    simpa [order] using perm.length_eq
  refine ⟨perm, by simpa [questionResults] using pushed, by simpa [questionRecords] using pushed,
    ?_, s.records_results⟩
  intro m member
  obtain ⟨idx, _, settled⟩ := s.mem_pushes.mp member
  rw [run.outcome_idx settled]
  exact run.outcome_reports settled

theorem exactly_once_any_schedule (asking : run.config.verifyMemoryList = false) :
    s.ExactlyOnce ∧ s.questionResults = s'.questionResults ∧
      s.questionRecords = s'.questionRecords ∧ s.conversationWrites = s'.conversationWrites := by
  refine ⟨s.exactlyOnce asking, ?_, ?_, ?_⟩
  · rw [questionResults, questionResults, pushes_eq s s']
  · rw [questionRecords, questionRecords, pushes_eq s s']
  · rw [conversationWrites_eq, conversationWrites_eq]

end Schedule

def interleavedRun (world : World) : Run :=
  plainRun world [sampleInstance "q0" "b", sampleInstance "q1" "a", sampleInstance "q2" "b"]

theorem interleaved_once_any_schedule :
    (interleavedRun .silent).sequential.ExactlyOnce ∧
      (interleavedRun .silent).sequential.questionResults =
        (interleavedRun .silent).reversed.questionResults ∧
      (interleavedRun .silent).sequential.questionRecords =
        (interleavedRun .silent).reversed.questionRecords ∧
      (interleavedRun .silent).sequential.conversationWrites =
        (interleavedRun .silent).reversed.conversationWrites :=
  Schedule.exactly_once_any_schedule _ _ rfl

end Run

end BrainEval.Runner
