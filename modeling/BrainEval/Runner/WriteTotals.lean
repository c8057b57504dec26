import Mathlib
import BrainEval.Runner.Agreement

set_option autoImplicit false

namespace BrainEval.Runner

open Harness Report Metrics Grouping

section Sessions

variable (encode : List EncodeRequest → Except String EncodeResponse) (ms : Nat → Nat)

-- The written turns of the sessions the server takes whole.
def acceptedTurns : List (Session × Nat) → List EncodeRequest → Nat
  | [], _ => 0
  | entry :: rest, log =>
    let result := ingest encode (ms entry.2) log entry.1.turns
    (if result.2.isOk then entry.1.turns.countP isWritten else 0) +
      acceptedTurns rest (log ++ result.1)

theorem saturatingAdd_eq_zero {a b : Nat} : saturatingAdd a b = 0 ↔ a = 0 ∧ b = 0 := by
  unfold saturatingAdd
  omega

structure IngestAggregate.Unwritten (a : IngestAggregate) : Prop where
  attempted : a.attempted = 0
  deduplicated : a.deduplicated = 0
  storedIds : a.storedIds = []

theorem ingestSession_log (state : List Sent × IngestAggregate) (entry : Session × Nat) :
    (ingestSession encode ms state entry).1.map (·.request) =
      state.1.map (·.request) ++
        (ingest encode (ms entry.2) (state.1.map (·.request)) entry.1.turns).1 := by
  simp [ingestSession, Function.comp_def]

theorem attempted_eq_zero (entries : List (Session × Nat)) (state : List Sent × IngestAggregate) :
    (entries.foldl (ingestSession encode ms) state).2.attempted = 0 ↔
      state.2.attempted = 0 ∧ acceptedTurns encode ms entries (state.1.map (·.request)) = 0 := by
  induction entries generalizing state with
  | nil => simp [acceptedTurns]
  | cons entry entries ih =>
    rw [List.foldl_cons, ih, ingestSession_log, acceptedTurns, ingestSession]
    dsimp only
    cases met : (ingest encode (ms entry.2) (state.1.map (·.request)) entry.1.turns).2 with
    | error e => simp [Except.isOk, Except.toBool]
    | ok out =>
      have count := (ingest_ok encode met).2.1
      simp [IngestAggregate.add, saturatingAdd_eq_zero, count, Except.isOk, Except.toBool]
      tauto

theorem unwritten_of_accepted (entries : List (Session × Nat))
    (state : List Sent × IngestAggregate) (unwritten : state.2.Unwritten)
    (none : acceptedTurns encode ms entries (state.1.map (·.request)) = 0) :
    (entries.foldl (ingestSession encode ms) state).2.Unwritten := by
  induction entries generalizing state with
  | nil => exact unwritten
  | cons entry entries ih =>
    rw [acceptedTurns] at none
    obtain ⟨here, rest⟩ := Nat.add_eq_zero_iff.mp none
    rw [← ingestSession_log] at rest
    apply ih _ _ rest
    obtain ⟨attempted, deduplicated, storedIds⟩ := unwritten
    rw [ingestSession]
    dsimp only
    cases met : (ingest encode (ms entry.2) (state.1.map (·.request)) entry.1.turns).2 with
    | error e => exact ⟨attempted, deduplicated, storedIds⟩
    | ok out =>
      obtain ⟨⟨balance, _⟩, count, _⟩ := ingest_ok encode met
      simp only [met, Except.isOk, Except.toBool, if_true] at here
      have ids : out.storedIds = [] := List.length_eq_zero_iff.mp (by omega)
      refine ⟨?_, ?_, ?_⟩
      · exact saturatingAdd_eq_zero.mpr ⟨attempted, by omega⟩
      · exact saturatingAdd_eq_zero.mpr ⟨deduplicated, by omega⟩
      · simp [IngestAggregate.add, storedIds, ids]

end Sessions

structure WriteTotalsAgree (report : RunReport) : Prop where
  attempted :
    report.write.summary.totalAttempted = (report.write.conversations.map (·.attempted)).sum
  stored : report.write.summary.totalStored = (report.write.conversations.map (·.stored)).sum
  deduplicated :
    report.write.summary.totalDeduplicated =
      (report.write.conversations.map (·.deduplicated)).sum

namespace Run

variable (run : Run)

def writtenTurns (convKey : String) (inst : EvalInstance) : Nat :=
  acceptedTurns (run.world.encode convKey) (run.world.ingestMs convKey) inst.sessions.zipIdx []

section Ingesting

variable (ingesting : run.isReadOnly = false)

include ingesting

theorem convWrite_attempted (pl : Planned) :
    (run.convWrite pl).attempted = 0 ↔
      run.writtenTurns pl.convKey (run.inst (pl.idxs.headD 0)) = 0 := by
  rw [convWrite, ingesting, if_neg Bool.false_ne_true]
  have counted := attempted_eq_zero (run.world.encode pl.convKey) (run.world.ingestMs pl.convKey)
    (run.inst (pl.idxs.headD 0)).sessions.zipIdx ([], .zero)
  exact counted.trans ⟨fun both => both.2, fun none => ⟨rfl, none⟩⟩

theorem convWrite_unwritten {pl : Planned}
    (none : run.writtenTurns pl.convKey (run.inst (pl.idxs.headD 0)) = 0) :
    (run.convWrite pl).attempted = 0 ∧ (run.convWrite pl).stored = 0 ∧
      (run.convWrite pl).deduplicated = 0 := by
  rw [convWrite, ingesting, if_neg Bool.false_ne_true]
  obtain ⟨attempted, deduplicated, storedIds⟩ :=
    unwritten_of_accepted (run.world.encode pl.convKey) (run.world.ingestMs pl.convKey)
      (run.inst (pl.idxs.headD 0)).sessions.zipIdx ([], .zero) ⟨rfl, rfl, rfl⟩ none
  exact ⟨attempted, by simpa [ConvWrite.fromIngest, ingestSessions] using storedIds, deduplicated⟩

end Ingesting

section ReadBack

variable (opened : ∀ idx, idx < run.instances.length → run.readBack idx = true)

include opened

theorem opened_planned {pl : Planned} (member : pl ∈ run.phase0.planned) :
    ∃ id, run.fate pl = .opened id := by
  obtain ⟨idx, inside⟩ := List.exists_mem_of_ne_nil _ (run.mem_planned member).2
  have read := opened idx (run.idx_lt_of_mem member inside)
  rw [run.readBack_of_mem member inside] at read
  exact Fate.isOpened_iff.mp read

def copies (run : Run) (pl : Planned) : Nat :=
  if run.config.verifyMemoryList then 0 else pl.idxs.length

theorem sum_results (s : run.Schedule) (part : QuestionResult → Nat) (weight : ConvWrite → Nat)
    (copied : ∀ idx cw, part (run.asked idx cw).result = weight cw) :
    (s.questionResults.map part).sum =
      (run.phase0.planned.map fun pl => run.copies pl * weight (run.convWrite pl)).sum := by
  -- conversation by conversation, each question carries the counters
  have perm := (s.pushes_questions.map (·.result)).map part
  rw [Schedule.questionResults, perm.sum_eq, List.map_map, List.map_flatMap, List.flatMap_def,
    List.sum_flatten, List.map_map]
  congr 1
  apply List.map_congr_left
  intro pl member
  obtain ⟨id, met⟩ := run.opened_planned opened member
  by_cases listed : run.config.verifyMemoryList = true
  · simp [questionsOf, phase1Of, groupOf, met, listed, copies]
  · simp [questionsOf, phase1Of, groupOf, met, listed, copies, copied, Function.comp_def]

theorem sum_writes (s : run.Schedule) (ingesting : run.isReadOnly = false)
    (part : ConversationWrite → Nat) (weight : ConvWrite → Nat)
    (copied : ∀ k id cw, part (run.ledger k id cw) = weight cw) :
    (s.conversationWrites.map part).sum =
      (run.phase0.planned.map fun pl => weight (run.convWrite pl)).sum := by
  rw [s.conversationWrites_eq, List.map_filterMap, ← List.filterMap_eq_map]
  congr 1
  apply List.filterMap_congr
  intro pl member
  obtain ⟨id, met⟩ := run.opened_planned opened member
  simp [ledgerOf, groupOf, met, ingesting, copied]

end ReadBack

theorem copies_sum_iff (weight : Planned → Nat) :
    (run.phase0.planned.map fun pl => run.copies pl * weight pl).sum =
        (run.phase0.planned.map weight).sum ↔
      ∀ pl ∈ run.phase0.planned,
        run.config.verifyMemoryList = true ∨ 2 ≤ pl.idxs.length → weight pl = 0 := by
  by_cases listed : run.config.verifyMemoryList = true
  · have zero : (run.phase0.planned.map weight).sum = 0 ↔
        ∀ pl ∈ run.phase0.planned, weight pl = 0 := by
      rw [List.sum_eq_zero_iff_forall_eq_nat, List.forall_mem_map]
    simpa [copies, listed, eq_comm (a := 0)] using zero
  · have repeated := sum_copies_eq_iff (fun pl : Planned => pl.idxs.length) weight
      fun pl member => List.length_pos_of_ne_nil (run.mem_planned member).2
    simpa [copies, listed] using repeated

theorem write_totals_iff (U : RustStr.UnicodeData) (s : run.Schedule)
    (ingesting : run.isReadOnly = false)
    (opened : ∀ idx, idx < run.instances.length → run.readBack idx = true) :
    WriteTotalsAgree (s.report U) ↔
      ∀ group ∈ run.groups.toList, run.config.verifyMemoryList = true ∨ 2 ≤ group.2.length →
        run.writtenTurns group.1 (run.inst (group.2.headD 0)) = 0 := by
  have attempted : (s.report U).write.summary.totalAttempted =
        ((s.report U).write.conversations.map (·.attempted)).sum ↔
      ∀ pl ∈ run.phase0.planned, run.config.verifyMemoryList = true ∨ 2 ≤ pl.idxs.length →
        (run.convWrite pl).attempted = 0 := by
    rw [← copies_sum_iff, ← run.sum_results opened s (·.writeAttempted) (·.attempted)
      fun _ _ => rfl, ← run.sum_writes opened s ingesting (·.attempted) (·.attempted)
      fun _ _ _ => rfl]
    rfl
  rw [← planned_groups, List.forall_mem_map]
  constructor
  · intro agree pl member repeated
    have none := attempted.mp agree.attempted pl member repeated
    exact (run.convWrite_attempted ingesting pl).mp none
  · intro unwritten
    have none : ∀ pl ∈ run.phase0.planned, run.config.verifyMemoryList = true ∨
        2 ≤ pl.idxs.length → (run.convWrite pl).attempted = 0 ∧ (run.convWrite pl).stored = 0 ∧
          (run.convWrite pl).deduplicated = 0 :=
      fun pl member repeated => run.convWrite_unwritten ingesting (unwritten pl member repeated)
    refine ⟨attempted.mpr fun pl member repeated => (none pl member repeated).1, ?_, ?_⟩
    · have stored := (run.copies_sum_iff fun pl => (run.convWrite pl).stored).mpr
        fun pl member repeated => (none pl member repeated).2.1
      rw [← run.sum_results opened s (·.writeStored) (·.stored) fun _ _ => rfl,
        ← run.sum_writes opened s ingesting (·.stored) (·.stored) fun _ _ _ => rfl] at stored
      exact stored
    · have merged := (run.copies_sum_iff fun pl => (run.convWrite pl).deduplicated).mpr
        fun pl member repeated => (none pl member repeated).2.2
      rw [← run.sum_results opened s (·.writeDeduplicated) (·.deduplicated) fun _ _ => rfl,
        ← run.sum_writes opened s ingesting (·.deduplicated) (·.deduplicated)
          fun _ _ _ => rfl] at merged
      exact merged

theorem one_question_each_agrees :
    WriteTotalsAgree ((plainRun .silent
      [sampleInstance "q0" "a", sampleInstance "q1" "b"]).sequential.report .ascii) :=
  (write_totals_iff _ .ascii _ rfl (by decide +kernel)).mpr (by decide +kernel)

def sharedConversation : Run :=
  plainRun .silent [sampleInstance "q0" "a", sampleInstance "q1" "a"]

theorem shared_conversation_counts_twice :
    (∀ idx, idx < sharedConversation.instances.length →
        sharedConversation.readBack idx = true) ∧
      (sharedConversation.sequential.report .ascii).write.summary.totalAttempted = 2 ∧
      ((sharedConversation.sequential.report .ascii).write.conversations.map
        (·.attempted)).sum = 1 ∧
      ¬ WriteTotalsAgree (sharedConversation.sequential.report .ascii) := by
  have twice : (sharedConversation.sequential.questionResults.map (·.writeAttempted)).sum = 2 := by
    decide +kernel
  have once : (sharedConversation.sequential.conversationWrites.map (·.attempted)).sum = 1 := by
    decide +kernel
  refine ⟨by decide +kernel, twice, once, fun agree => ?_⟩
  have same : 2 = 1 := twice.symm.trans (agree.attempted.trans once)
  omega

end Run

end BrainEval.Runner
