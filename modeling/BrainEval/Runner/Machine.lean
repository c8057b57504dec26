import Mathlib
import BrainEval.Lib.Concurrent
import BrainEval.Runner.Agreement

set_option autoImplicit false

namespace BrainEval.Runner

open Concurrent SortBy Report Std

structure IncrementalTracker where
  total : Nat
  done : Nat
  scoreSum : ℚ
  lines : List QuestionResult

def IncrementalTracker.record (t : IncrementalTracker) (result : QuestionResult) :
    IncrementalTracker :=
  { t with
    done := t.done + 1
    scoreSum := t.scoreSum + result.score
    lines := t.lines ++ [result] }

/-- A group of phase 2 under way: the questions answered so far and those still to ask. -/
structure GroupRead where
  pre : Prepared
  graded : List Merged
  todo : List Nat

inductive Phase where
  | ingesting
  | reading
  | merged
  deriving DecidableEq, Repr

structure RunState where
  phase : Phase
  ingest : Buffered Planned IngestOutcome
  read : Buffered GroupRead GroupOutcome
  -- every result `run_question` has returned
  graded : List QuestionResult
  tracker : IncrementalTracker
  pushed : List Merged

inductive Action where
  | ingested (slot : Nat)
  | mergeIngest
  | graded (slot : Nat)
  | completed (slot : Nat)
  | merge
  deriving DecidableEq, Repr

-- `tracker.record` is called where the two report vectors are pushed, and nowhere else.
def RunState.push (s : RunState) (merged : List Merged) : RunState :=
  { s with
    tracker := (merged.map (·.result)).foldl IncrementalTracker.record s.tracker
    pushed := s.pushed ++ merged }

namespace Run

variable (run : Run)

def width : Nat := max run.config.concurrency 1

def asks (pre : Prepared) : Bool :=
  match run.phase0.tokens[pre.spaceId]? with
  | none => false
  | some token =>
    (run.world.reconnect pre.convKey pre.spaceId token).isOk && !run.config.verifyMemoryList

def startReading (pre : Prepared) : GroupRead := ⟨pre, [], if run.asks pre then pre.idxs else []⟩

def finishReading (group : GroupRead) : GroupOutcome :=
  let out := run.groupFuture run.phase0.tokens group.pre
  if run.asks group.pre then { out with questions := group.graded } else out

def beforeIngest : RunState where
  phase := .ingesting
  ingest := .start run.phase0.planned
  read := .start []
  graded := []
  tracker := ⟨run.instances.length, 0, 0, []⟩
  pushed := []

def step (s : RunState) : Action → Option RunState
  | .ingested slot =>
    if s.phase = .ingesting then
      (s.ingest.inFlight run.width slot).map fun pl =>
        { s with ingest := s.ingest.complete slot (run.ingestFuture pl) }
    else none
  | .mergeIngest =>
    if s.phase = .ingesting ∧ s.ingest.todo.isEmpty then
      some ({ s with
        phase := .reading
        read := .start ((preparedOf s.ingest.done).map run.startReading) }.push
          (run.phase1Failures s.ingest.done))
    else none
  | .graded slot =>
    if s.phase = .reading then
      (s.read.inFlight run.width slot).bind fun group =>
        match group.todo with
        | [] => none
        | idx :: todo =>
          -- the result stays inside the future until the stream is collected
          let m := run.asked idx group.pre.cw
          some { s with
            read := s.read.update slot { group with graded := group.graded ++ [m], todo := todo }
            graded := s.graded ++ [m.result] }
    else none
  | .completed slot =>
    if s.phase = .reading then
      (s.read.inFlight run.width slot).bind fun group =>
        if group.todo.isEmpty then
          some { s with read := s.read.complete slot (run.finishReading group) }
        else none
    else none
  | .merge =>
    if s.phase = .reading ∧ s.read.todo.isEmpty then
      some ({ s with phase := .merged }.push
        (restoreInstanceOrder (s.read.done.flatMap GroupOutcome.questions)))
    else none

def Reachable (s : RunState) : Prop := Concurrent.Reachable run.step run.beforeIngest s

theorem step_cases {s s' : RunState} {a : Action} (taken : run.step s a = some s') :
    (∃ slot pl, a = .ingested slot ∧ s.phase = .ingesting ∧
      s.ingest.inFlight run.width slot = some pl ∧
      s' = { s with ingest := s.ingest.complete slot (run.ingestFuture pl) }) ∨
    (a = .mergeIngest ∧ s.phase = .ingesting ∧ s.ingest.todo = [] ∧
      s' = { s with
        phase := .reading
        read := .start ((preparedOf s.ingest.done).map run.startReading) }.push
          (run.phase1Failures s.ingest.done)) ∨
    (∃ slot group idx todo, a = .graded slot ∧ s.phase = .reading ∧
      s.read.inFlight run.width slot = some group ∧ group.todo = idx :: todo ∧
      s' = { s with
        read := s.read.update slot
          { group with graded := group.graded ++ [run.asked idx group.pre.cw], todo := todo }
        graded := s.graded ++ [(run.asked idx group.pre.cw).result] }) ∨
    (∃ slot group, a = .completed slot ∧ s.phase = .reading ∧
      s.read.inFlight run.width slot = some group ∧ group.todo = [] ∧
      s' = { s with read := s.read.complete slot (run.finishReading group) }) ∨
    (a = .merge ∧ s.phase = .reading ∧ s.read.todo = [] ∧
      s' = { s with phase := .merged }.push
        (restoreInstanceOrder (s.read.done.flatMap GroupOutcome.questions))) := by
  cases a with
  | ingested slot =>
    simp only [step, Option.ite_none_right_eq_some, Option.map_eq_some_iff] at taken
    obtain ⟨phase, pl, polled, rfl⟩ := taken
    exact Or.inl ⟨slot, pl, rfl, phase, polled, rfl⟩
  | mergeIngest =>
    simp only [step, Option.ite_none_right_eq_some, Option.some.injEq, List.isEmpty_iff] at taken
    obtain ⟨⟨phase, finished⟩, rfl⟩ := taken
    exact Or.inr (Or.inl ⟨rfl, phase, finished, rfl⟩)
  | graded slot =>
    simp only [step, Option.ite_none_right_eq_some, Option.bind_eq_some_iff] at taken
    obtain ⟨phase, group, polled, taken⟩ := taken
    cases asking : group.todo with
    | nil => simp [asking] at taken
    | cons idx todo =>
      simp only [asking, Option.some.injEq] at taken
      exact Or.inr (Or.inr (Or.inl
        ⟨slot, group, idx, todo, rfl, phase, polled, asking, taken.symm⟩))
  | completed slot =>
    simp only [step, Option.ite_none_right_eq_some, Option.bind_eq_some_iff, List.isEmpty_iff,
      Option.some.injEq] at taken
    obtain ⟨phase, group, polled, finished, rfl⟩ := taken
    exact Or.inr (Or.inr (Or.inr (Or.inl ⟨slot, group, rfl, phase, polled, finished, rfl⟩)))
  | merge =>
    simp only [step, Option.ite_none_right_eq_some, Option.some.injEq, List.isEmpty_iff] at taken
    obtain ⟨⟨phase, finished⟩, rfl⟩ := taken
    exact Or.inr (Or.inr (Or.inr (Or.inr ⟨rfl, phase, finished, rfl⟩)))

end Run

end BrainEval.Runner
