import Mathlib
import BrainEval.Runner.Machine

set_option autoImplicit false

namespace BrainEval.Runner

open Concurrent SortBy Report

@[simp] theorem RunState.push_phase (s : RunState) (merged : List Merged) :
    (s.push merged).phase = s.phase := rfl

@[simp] theorem RunState.push_ingest (s : RunState) (merged : List Merged) :
    (s.push merged).ingest = s.ingest := rfl

@[simp] theorem RunState.push_read (s : RunState) (merged : List Merged) :
    (s.push merged).read = s.read := rfl

@[simp] theorem RunState.push_graded (s : RunState) (merged : List Merged) :
    (s.push merged).graded = s.graded := rfl

@[simp] theorem RunState.push_pushed (s : RunState) (merged : List Merged) :
    (s.push merged).pushed = s.pushed ++ merged := rfl

theorem foldl_record_lines (results : List QuestionResult) (t : IncrementalTracker) :
    (results.foldl IncrementalTracker.record t).lines = t.lines ++ results := by
  induction results generalizing t with
  | nil => simp
  | cons r results ih => simp [ih, IncrementalTracker.record]

@[simp] theorem RunState.push_lines (s : RunState) (merged : List Merged) :
    (s.push merged).tracker.lines = s.tracker.lines ++ merged.map (·.result) :=
  foldl_record_lines _ _

namespace Run

variable (run : Run)

def yieldOf (group : GroupRead) : GroupOutcome := run.groupFuture run.phase0.tokens group.pre

/-- What a group has answered and will answer is what its future returns. -/
def Sound (group : GroupRead) : Prop :=
  group.graded ++ group.todo.map (run.asked · group.pre.cw) =
    if run.asks group.pre then group.pre.idxs.map (run.asked · group.pre.cw) else []

theorem asks_questions {pre : Prepared} (asks : run.asks pre = true) :
    (run.groupFuture run.phase0.tokens pre).questions = pre.idxs.map (run.asked · pre.cw) := by
  unfold Run.asks at asks
  unfold groupFuture
  cases held : run.phase0.tokens[pre.spaceId]? with
  | none => simp [held] at asks
  | some token =>
    simp only [held, Bool.and_eq_true, Bool.not_eq_true'] at asks
    obtain ⟨reopened, asking⟩ := asks
    cases met : run.world.reconnect pre.convKey pre.spaceId token with
    | error e => simp [met, Except.isOk, Except.toBool] at reopened
    | ok _ => simp [met, asking]

theorem startReading_sound (pre : Prepared) : run.Sound (run.startReading pre) := by
  unfold Sound startReading
  by_cases asks : run.asks pre = true <;> simp [asks]

theorem Sound.graded {group : GroupRead} {idx : Nat} {todo : List Nat} (sound : run.Sound group)
    (next : group.todo = idx :: todo) :
    run.Sound { group with
      graded := group.graded ++ [run.asked idx group.pre.cw], todo := todo } := by
  unfold Sound at sound ⊢
  rw [next] at sound
  simpa using sound

theorem Sound.asks {group : GroupRead} {idx : Nat} {todo : List Nat} (sound : run.Sound group)
    (next : group.todo = idx :: todo) : run.asks group.pre = true := by
  unfold Sound at sound
  rw [next] at sound
  by_contra silent
  simp [silent] at sound

theorem finishReading_eq {group : GroupRead} (sound : run.Sound group)
    (finished : group.todo = []) :
    run.finishReading group = run.yieldOf group := by
  unfold Sound at sound
  unfold finishReading yieldOf
  rw [finished, List.map_nil, List.append_nil] at sound
  by_cases asks : run.asks group.pre = true
  · rw [if_pos asks] at sound ⊢
    rw [sound, ← run.asks_questions asks]
  · rw [if_neg asks]

theorem Sound.mem_finish {group : GroupRead} (sound : run.Sound group) {m : Merged}
    (answered : m ∈ group.graded) : m ∈ (run.finishReading group).questions := by
  unfold Sound at sound
  unfold finishReading
  by_cases asks : run.asks group.pre = true
  · rwa [if_pos asks]
  · rw [if_neg asks] at sound
    rw [(List.append_eq_nil_iff.mp sound).1] at answered
    exact nomatch answered

/-- What holds wherever a run is interrupted; `held` says where a graded result sits. -/
structure Inv (s : RunState) : Prop where
  ingest : (s.ingest.yields run.ingestFuture).Perm (run.phase0.planned.map run.ingestFuture)
  ingesting : s.phase = .ingesting → s.read = .start [] ∧ s.graded = [] ∧ s.pushed = []
  ingested : s.phase ≠ .ingesting → s.ingest.todo = []
  read : s.phase ≠ .ingesting → (s.read.yields run.yieldOf).Perm
    ((preparedOf s.ingest.done).map (run.groupFuture run.phase0.tokens))
  groups : ∀ group ∈ s.read.todo, run.Sound group ∧ group.pre ∈ preparedOf s.ingest.done
  reading : s.phase = .reading → s.pushed = run.phase1Failures s.ingest.done
  merged : s.phase = .merged → s.read.todo = [] ∧ s.pushed =
    run.phase1Failures s.ingest.done ++
      restoreInstanceOrder (s.read.done.flatMap GroupOutcome.questions)
  lines : s.tracker.lines = s.pushed.map (·.result)
  held : ∀ r ∈ s.graded, ∃ idx cw, r = (run.asked idx cw).result ∧
    (run.asked idx cw ∈ s.read.todo.flatMap GroupRead.graded ∨
      run.asked idx cw ∈ s.read.done.flatMap GroupOutcome.questions)

theorem beforeIngest_inv : run.Inv run.beforeIngest where
  ingest := List.Perm.refl _
  ingesting _ := ⟨rfl, rfl, rfl⟩
  ingested late := absurd rfl late
  read late := absurd rfl late
  groups _ member := nomatch member
  reading late := nomatch late
  merged late := nomatch late
  lines := rfl
  held _ member := nomatch member

section Steps

variable {run} {s : RunState} (inv : run.Inv s)

include inv

theorem Inv.ingestedStep {slot : Nat} {pl : Planned} (phase : s.phase = .ingesting)
    (polled : s.ingest.inFlight run.width slot = some pl) :
    run.Inv { s with ingest := s.ingest.complete slot (run.ingestFuture pl) } := by
  obtain ⟨empty, ungraded, unpushed⟩ := inv.ingesting phase
  refine
    { ingest := (Buffered.complete_yields run.ingestFuture polled).trans inv.ingest
      ingesting := fun _ => ⟨empty, ungraded, unpushed⟩
      ingested := fun late => absurd phase late
      read := fun late => absurd phase late
      groups := ?_
      reading := fun late => ?_
      merged := fun late => ?_
      lines := inv.lines
      held := ?_ }
  · intro group member
    simp [empty, Buffered.start] at member
  · simp [phase] at late
  · simp [phase] at late
  · intro r member
    simp [ungraded] at member

theorem Inv.mergeIngestStep (phase : s.phase = .ingesting) (finished : s.ingest.todo = []) :
    run.Inv (({ s with
      phase := .reading
      read := .start ((preparedOf s.ingest.done).map run.startReading) } : RunState).push
        (run.phase1Failures s.ingest.done)) := by
  obtain ⟨_, ungraded, unpushed⟩ := inv.ingesting phase
  refine
    { ingest := inv.ingest
      ingesting := fun early => nomatch early
      ingested := fun _ => finished
      read := fun _ => ?_
      groups := ?_
      reading := fun _ => ?_
      merged := fun late => nomatch late
      lines := ?_
      held := ?_ }
  · simp [Buffered.yields, Buffered.start, Function.comp_def, yieldOf, startReading]
  · intro group member
    obtain ⟨pre, prepared, rfl⟩ := List.mem_map.mp member
    exact ⟨run.startReading_sound pre, prepared⟩
  · simp [unpushed]
  · simp [inv.lines, unpushed]
  · intro r member
    simp [ungraded] at member

theorem Inv.gradedStep {slot : Nat} {group : GroupRead} {idx : Nat} {todo : List Nat}
    (phase : s.phase = .reading) (polled : s.read.inFlight run.width slot = some group)
    (next : group.todo = idx :: todo) :
    run.Inv { s with
      read := s.read.update slot
        { group with graded := group.graded ++ [run.asked idx group.pre.cw], todo := todo }
      graded := s.graded ++ [(run.asked idx group.pre.cw).result] } := by
  obtain ⟨sound, prepared⟩ := inv.groups _ (Buffered.mem_of_inFlight polled)
  refine
    { ingest := inv.ingest
      ingesting := fun early => ?_
      ingested := inv.ingested
      read := fun late => ?_
      groups := ?_
      reading := inv.reading
      merged := fun late => ?_
      lines := inv.lines
      held := ?_ }
  · simp [phase] at early
  · refine List.Perm.trans (List.Perm.of_eq ?_) (inv.read late)
    exact Buffered.update_yields run.yieldOf polled rfl
  · intro other member
    rcases List.mem_or_eq_of_mem_set member with old | rfl
    · exact inv.groups other old
    · exact ⟨Sound.graded run sound next, prepared⟩
  · simp [phase] at late
  · intro r member
    rcases List.mem_append.mp member with old | new
    · obtain ⟨idx', cw, rfl, inside | outside⟩ := inv.held r old
      · refine ⟨idx', cw, rfl, Or.inl (Buffered.subset_update polled ?_ inside)⟩
        exact List.subset_append_left _ _
      · exact ⟨idx', cw, rfl, Or.inr outside⟩
    · obtain rfl := List.mem_singleton.mp new
      refine ⟨idx, _, rfl, Or.inl (Buffered.updated_subset polled _ ?_)⟩
      exact List.mem_append_right _ (List.mem_singleton.mpr rfl)

theorem Inv.completedStep {slot : Nat} {group : GroupRead} (phase : s.phase = .reading)
    (polled : s.read.inFlight run.width slot = some group) (finished : group.todo = []) :
    run.Inv { s with read := s.read.complete slot (run.finishReading group) } := by
  obtain ⟨sound, _⟩ := inv.groups _ (Buffered.mem_of_inFlight polled)
  have result := run.finishReading_eq sound finished
  refine
    { ingest := inv.ingest
      ingesting := fun early => ?_
      ingested := inv.ingested
      read := fun late => ?_
      groups := ?_
      reading := inv.reading
      merged := fun late => ?_
      lines := inv.lines
      held := ?_ }
  · simp [phase] at early
  · rw [result]
    exact (Buffered.complete_yields run.yieldOf polled).trans (inv.read late)
  · intro other member
    exact inv.groups other (List.mem_of_mem_eraseIdx member)
  · simp [phase] at late
  · intro r member
    obtain ⟨idx, cw, rfl, inside | outside⟩ := inv.held r member
    · rcases Buffered.mem_complete polled inside (run.finishReading group) with here | elsewhere
      · refine ⟨idx, cw, rfl, Or.inr ?_⟩
        simp only [Buffered.complete, List.flatMap_append, List.flatMap_singleton]
        exact List.mem_append_right _ (Sound.mem_finish run sound here)
      · exact ⟨idx, cw, rfl, Or.inl elsewhere⟩
    · refine ⟨idx, cw, rfl, Or.inr ?_⟩
      simp only [Buffered.complete, List.flatMap_append]
      exact List.mem_append_left _ outside

theorem Inv.mergeStep (phase : s.phase = .reading) (finished : s.read.todo = []) :
    run.Inv (({ s with phase := .merged } : RunState).push
      (restoreInstanceOrder (s.read.done.flatMap GroupOutcome.questions))) := by
  have past : s.phase ≠ .ingesting := by simp [phase]
  refine
    { ingest := inv.ingest
      ingesting := fun early => nomatch early
      ingested := fun _ => inv.ingested past
      read := fun _ => inv.read past
      groups := inv.groups
      reading := fun early => nomatch early
      merged := fun _ => ⟨finished, ?_⟩
      lines := ?_
      held := inv.held }
  · simp [inv.reading phase]
  · simp [inv.lines]

end Steps

theorem step_inv {s s' : RunState} {a : Action} (inv : run.Inv s)
    (taken : run.step s a = some s') : run.Inv s' := by
  rcases run.step_cases taken with ⟨slot, pl, _, phase, polled, rfl⟩ | ⟨_, phase, finished, rfl⟩ |
    ⟨slot, group, idx, todo, _, phase, polled, next, rfl⟩ |
    ⟨slot, group, _, phase, polled, finished, rfl⟩ | ⟨_, phase, finished, rfl⟩
  · exact inv.ingestedStep phase polled
  · exact inv.mergeIngestStep phase finished
  · exact inv.gradedStep phase polled next
  · exact inv.completedStep phase polled finished
  · exact inv.mergeStep phase finished

theorem reachable_inv {s : RunState} (reached : run.Reachable s) : run.Inv s :=
  reached.inv run.beforeIngest_inv fun _ _ _ inv taken => run.step_inv inv taken

-- A run that got to its end is a schedule, and the report and the sidecar are the schedule's.
theorem finished_schedule {s : RunState} (reached : run.Reachable s)
    (finished : s.phase = .merged) :
    ∃ schedule : run.Schedule, schedule.ingested = s.ingest.done ∧ schedule.readBack = s.read.done ∧
      s.pushed = schedule.pushes ∧ s.tracker.lines = schedule.questionResults := by
  have inv := run.reachable_inv reached
  have past : s.phase ≠ .ingesting := by simp [finished]
  obtain ⟨readDone, pushed⟩ := inv.merged finished
  have ingested := inv.ingest
  rw [Buffered.yields_finished _ (inv.ingested past)] at ingested
  have read := inv.read past
  rw [Buffered.yields_finished _ readDone] at read
  refine ⟨⟨s.ingest.done, ingested, s.read.done, read⟩, rfl, rfl, pushed, ?_⟩
  rw [inv.lines, pushed]
  rfl

-- A failed RECALL is marked on the result; a phase-1 failure has the mark clear.
theorem asked_ne_failed (idx idx' : Nat) (cw : ConvWrite) (reason : String) :
    (run.asked idx cw).result ≠ (run.failed idx' reason true).result := by
  intro same
  have kind := congrArg QuestionResult.answerKind same
  have missed := congrArg QuestionResult.retrievalFailed same
  change (run.reading idx).answerKind = .error at kind
  change (run.reading idx).retrievalFailed = false at missed
  unfold reading at kind missed
  cases met : run.recallOutcome idx with
  | error e => simp [met] at missed
  | ok outcome =>
    rw [met] at kind
    cases shape : outcome.answerKind <;> simp [shape, answerKindFromWire] at kind

theorem phase1Failures_failed {ingested : List IngestOutcome} {m : Merged}
    (member : m ∈ run.phase1Failures ingested) : ∃ idx reason, m = run.failed idx reason true := by
  obtain ⟨o, _, member⟩ := List.mem_flatMap.mp member
  split at member
  · exact nomatch member
  · next reason _ =>
    obtain ⟨idx, _, rfl⟩ := List.mem_map.mp member
    exact ⟨idx, reason, rfl⟩

-- Before the final merge no graded result is in the sidecar, and after it all of them are.
theorem lines_iff {s : RunState} (inv : run.Inv s) {r : QuestionResult} (graded : r ∈ s.graded) :
    r ∈ s.tracker.lines ↔ s.phase = .merged := by
  obtain ⟨idx, cw, rfl, held⟩ := inv.held r graded
  rw [inv.lines]
  constructor
  · intro written
    obtain ⟨m, pushed, same⟩ := List.mem_map.mp written
    cases phase : s.phase with
    | merged => rfl
    | ingesting =>
      rw [(inv.ingesting phase).2.2] at pushed
      exact nomatch pushed
    | reading =>
      rw [inv.reading phase] at pushed
      obtain ⟨idx', reason, rfl⟩ := run.phase1Failures_failed pushed
      exact absurd same.symm (run.asked_ne_failed idx idx' cw reason)
  · intro merged
    obtain ⟨finished, pushed⟩ := inv.merged merged
    rw [finished] at held
    have answered := held.resolve_left fun member => nomatch member
    rw [pushed]
    exact List.mem_map_of_mem (List.mem_append_right _ (mem_sortByKey.mpr answered))

def Durable : Prop :=
  ∀ s a s', run.Reachable s → run.step s a = some s' → ∀ r ∈ s.graded, r ∈ s'.tracker.lines

theorem asks_eq {pl : Planned} (member : pl ∈ run.phase0.planned) {pre : Prepared}
    (settled : (run.ingestFuture pl).settle = .inl pre) :
    pre.idxs = pl.idxs ∧
      run.asks pre = ((run.fate pl).isOpened && !run.config.verifyMemoryList) := by
  obtain ⟨id, token, rfl, held, fate⟩ := run.prepared_cases member settled
  refine ⟨rfl, ?_⟩
  unfold Run.asks
  simp only [fate, held]
  cases run.world.reconnect pl.convKey id token <;> rfl

section Silent

variable (silent : ∀ idx, idx < run.instances.length → run.readBack idx = true →
  run.config.verifyMemoryList = true)

include silent

theorem asks_silent {ingested : List IngestOutcome}
    (perm : ingested.Perm (run.phase0.planned.map run.ingestFuture)) {pre : Prepared}
    (prepared : pre ∈ preparedOf ingested) : run.asks pre = false := by
  obtain ⟨pl, member, settled⟩ := (run.mem_preparedOf perm).mp prepared
  obtain ⟨idxs, asks⟩ := run.asks_eq member settled
  obtain ⟨idx, inside⟩ := List.exists_mem_of_ne_nil _ (run.mem_planned member).2
  have within := run.idx_lt_of_mem member inside
  rw [asks, ← run.readBack_of_mem member inside]
  by_cases opened : run.readBack idx = true
  · simp [silent idx within opened]
  · simp [opened]

theorem silent_ungraded {s : RunState} (reached : run.Reachable s) : s.graded = [] := by
  have both : run.Inv s ∧ s.graded = [] := by
    refine Concurrent.Reachable.inv (P := fun s => run.Inv s ∧ s.graded = [])
      ⟨run.beforeIngest_inv, rfl⟩ ?_ reached
    rintro s a s' ⟨inv, none⟩ taken
    refine ⟨run.step_inv inv taken, ?_⟩
    rcases run.step_cases taken with ⟨slot, pl, _, _, _, rfl⟩ | ⟨_, _, _, rfl⟩ |
      ⟨slot, group, idx, todo, _, phase, polled, next, rfl⟩ | ⟨slot, group, _, _, _, _, rfl⟩ |
      ⟨_, _, _, rfl⟩
    · exact none
    · exact none
    -- the one step that grades needs a question left to ask
    · obtain ⟨sound, prepared⟩ := inv.groups _ (Buffered.mem_of_inFlight polled)
      have perm := inv.ingest
      rw [Buffered.yields_finished _ (inv.ingested (by simp [phase]))] at perm
      have asks := Sound.asks run sound next
      rw [run.asks_silent silent perm prepared] at asks
      exact absurd asks (by decide)
    · exact none
    · exact none
  exact both.2

end Silent

theorem width_pos : 0 < run.width := Nat.lt_of_lt_of_le Nat.one_pos (Nat.le_max_right _ _)

theorem reach_ingested (todo : List Planned) (done : List IngestOutcome)
    (reached : run.Reachable { run.beforeIngest with ingest := ⟨todo, done⟩ }) :
    run.Reachable
      { run.beforeIngest with ingest := ⟨[], done ++ todo.map run.ingestFuture⟩ } := by
  induction todo generalizing done with
  | nil => simpa using reached
  | cons pl todo ih =>
    have taken : run.step { run.beforeIngest with ingest := ⟨pl :: todo, done⟩ } (.ingested 0) =
        some { run.beforeIngest with ingest := ⟨todo, done ++ [run.ingestFuture pl]⟩ } := by
      simp [step, beforeIngest, run.width_pos, Buffered.complete]
    have next := ih _ (reached.next _ taken)
    simpa using next

def readingState (todo : List GroupRead) (done : List GroupOutcome) : RunState :=
  ({ run.beforeIngest with
    phase := .reading
    ingest := ⟨[], run.phase0.planned.map run.ingestFuture⟩
    read := ⟨todo, done⟩ } : RunState).push
      (run.phase1Failures (run.phase0.planned.map run.ingestFuture))

theorem reach_reading :
    run.Reachable (run.readingState
      ((preparedOf (run.phase0.planned.map run.ingestFuture)).map run.startReading) []) := by
  have ingested := run.reach_ingested run.phase0.planned [] .start
  exact ingested.next .mergeIngest (by simp [step, beforeIngest, readingState, Buffered.start])

theorem reach_asking (todo : List Prepared) (done : List GroupOutcome)
    (asking : ∃ pre ∈ todo, run.asks pre = true)
    (reached : run.Reachable (run.readingState (todo.map run.startReading) done)) :
    ∃ pre ∈ todo, run.asks pre = true ∧
      ∃ rest done', run.Reachable (run.readingState (run.startReading pre :: rest) done') := by
  induction todo generalizing done with
  | nil => simp at asking
  | cons pre todo ih =>
    by_cases asks : run.asks pre = true
    · exact ⟨pre, List.mem_cons_self, asks, _, _, reached⟩
    -- a group that asks nothing completes first
    · have later : ∃ pre ∈ todo, run.asks pre = true := by simpa [asks] using asking
      have taken : run.step (run.readingState ((pre :: todo).map run.startReading) done)
          (.completed 0) = some (run.readingState (todo.map run.startReading)
            (done ++ [run.finishReading (run.startReading pre)])) := by
        simp [step, readingState, run.width_pos, Buffered.complete, startReading, asks]
        rfl
      obtain ⟨pre', member, rest⟩ := ih _ later (reached.next _ taken)
      exact ⟨pre', List.mem_cons_of_mem _ member, rest⟩

theorem reading_goes_on {s : RunState} (phase : s.phase = .reading) {group : GroupRead}
    {rest : List GroupRead} (under : s.read.todo = group :: rest) :
    ∃ a s', run.step s a = some s' ∧ s'.phase = .reading ∧ ∀ r ∈ s.graded, r ∈ s'.graded := by
  have polled : s.read.inFlight run.width 0 = some group := by
    simp [Buffered.inFlight, run.width_pos, under]
  cases todo : group.todo with
  | nil =>
    refine ⟨.completed 0, { s with read := s.read.complete 0 (run.finishReading group) }, ?_, phase,
      fun _ member => member⟩
    simp [step, phase, polled, todo]
  | cons idx todo' =>
    have taken : ∃ s', run.step s (.graded 0) = some s' := by simp [step, phase, polled, todo]
    obtain ⟨s', taken⟩ := taken
    refine ⟨.graded 0, s', taken, ?_⟩
    simp only [step, phase, if_true, polled, Option.bind_some, todo, Option.some.injEq] at taken
    subst taken
    exact ⟨rfl, fun _ member => List.mem_append_left _ member⟩

theorem reach_question {idx : Nat} (within : idx < run.instances.length)
    (read : run.readBack idx = true) (asking : run.config.verifyMemoryList = false) :
    ∃ pre idx' todo rest done, run.startReading pre = ⟨pre, [], idx' :: todo⟩ ∧
      run.Reachable (run.readingState (run.startReading pre :: rest) done) := by
  obtain ⟨pl, member, inside, _⟩ := run.planOf_key within
  have opened := (run.readBack_of_mem member inside).symm.trans read
  obtain ⟨pre, settled⟩ : ∃ pre, (run.ingestFuture pl).settle = .inl pre := by
    obtain ⟨id, met⟩ := Fate.isOpened_iff.mp opened
    exact ⟨_, by rw [ingestFuture_settle, met]⟩
  have prepared := (run.mem_preparedOf (List.Perm.refl _)).mpr ⟨pl, member, settled⟩
  have asks : run.asks pre = true := by
    rw [(run.asks_eq member settled).2, opened, asking]
    rfl
  obtain ⟨first, listed, asks, rest, done, reached⟩ :=
    run.reach_asking _ [] ⟨pre, prepared, asks⟩ run.reach_reading
  obtain ⟨pl', member', settled'⟩ := (run.mem_preparedOf (List.Perm.refl _)).mp listed
  have some : first.idxs ≠ [] := by
    rw [(run.asks_eq member' settled').1]
    exact (run.mem_planned member').2
  obtain ⟨idx', todo, idxs⟩ := List.exists_cons_of_ne_nil some
  exact ⟨first, idx', todo, rest, done, by simp [startReading, asks, idxs], reached⟩

theorem not_durable {idx : Nat} (within : idx < run.instances.length)
    (read : run.readBack idx = true) (asking : run.config.verifyMemoryList = false) :
    ¬ run.Durable := by
  intro durable
  obtain ⟨pre, idx', todo, rest, done, start, reached⟩ := run.reach_question within read asking
  let r := (run.asked idx' pre.cw).result
  let s : RunState := { run.readingState (run.startReading pre :: rest) done with
    read := ⟨⟨pre, [run.asked idx' pre.cw], todo⟩ :: rest, done⟩
    graded := [r] }
  have graded : run.step (run.readingState (run.startReading pre :: rest) done) (.graded 0) =
      some s := by
    simp [step, readingState, run.width_pos, start, Buffered.update, s]
    rfl
  -- the step after that is not the merge
  obtain ⟨a, s', taken, phase, kept⟩ := run.reading_goes_on (s := s) rfl rfl
  have reached' := reached.next _ graded
  have here : r ∈ s.graded := List.mem_singleton.mpr rfl
  have written := durable s a s' reached' taken r here
  have inv := run.reachable_inv (reached'.next _ taken)
  have merged := (run.lines_iff inv (kept r here)).mp written
  rw [phase] at merged
  cases merged

theorem durable_iff :
    run.Durable ↔ ∀ idx, idx < run.instances.length → run.readBack idx = true →
      run.config.verifyMemoryList = true := by
  constructor
  · intro durable idx within read
    by_contra asking
    exact run.not_durable within read (Bool.eq_false_iff.mpr asking) durable
  · intro silent s a s' reached _ r graded
    rw [run.silent_ungraded silent reached] at graded
    exact nomatch graded

theorem graded_question_not_in_sidecar :
    ([Action.ingested 0, .mergeIngest, .graded 0, .completed 0].foldlM
        (plainRun .silent [sampleInstance "q0" "a"]).step
        (plainRun .silent [sampleInstance "q0" "a"]).beforeIngest).map
          (fun s => (s.graded.map (·.questionId), s.tracker.lines.map (·.questionId), s.phase)) =
        some (["q0"], [], .reading) ∧
      ¬ (plainRun .silent [sampleInstance "q0" "a"]).Durable :=
  ⟨by decide +kernel, not_durable _ (Nat.zero_lt_one : 0 < 1) (by decide +kernel) rfl⟩

end Run

end BrainEval.Runner
