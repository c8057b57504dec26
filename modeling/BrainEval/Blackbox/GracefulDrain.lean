import Mathlib
import BrainEval.SpaceManifest
import BrainEval.Client.Harness
import BrainEval.Blackbox.Scenario
import BrainEval.Blackbox.RestartRecovery

set_option autoImplicit false

namespace BrainEval.GracefulDrain

open Early Scenario

structure World where
  spaceId : WireUuid
  firstBoot : Except String Unit
  firstConnect : Except String Unit
  encode : Nat → EncodeRequest → Except String WireMemoryId
  firstClose : Except String Unit
  stoppedCleanly : Bool
  restartBoot : Except String Unit
  secondConnect : Except String Unit
  recallFirst : String → Except String (List MemoryResult)
  recallSettled : String → Except String (List MemoryResult)
  secondClose : Except String Unit

def name : String := "graceful_shutdown_drain"

def writes : Nat := 25

def World.marker (w : World) : String := "drain-marker-" ++ SpaceManifest.hex16 w.spaceId

def request (marker : String) (i : Nat) : EncodeRequest :=
  ⟨marker ++ ": drained fact number " ++ toString i, none⟩

theorem request_contains (marker : String) (i : Nat) :
    RustStr.contains (request marker i).text marker = true := by
  rw [RustStr.contains_iff]
  exact ⟨[], (": drained fact number " ++ toString i).toList, by simp [request]⟩

def World.written (w : World) (i : Nat) : Except String WireMemoryId :=
  w.encode i (request w.marker i)

-- Hits are counted, where the crash scenario counts the ids it lists.
def count (marker : String) (hits : List MemoryResult) : Nat :=
  hits.countP fun m => RustStr.contains m.text marker

def verdict (stoppedCleanly : Bool) (immediate settled : Nat) : ScenarioOutcome :=
  if settled < writes then
    .fail name ("data loss after graceful shutdown: recovered " ++ toString settled ++ "/" ++
      toString writes ++ " (immediate " ++ toString immediate ++ ")")
  else
    .observed name ("graceful stop clean=" ++ toString stoppedCleanly ++ "; no data loss (" ++
      toString settled ++ "/" ++ toString writes ++ "). OBSERVED immediate-recall=" ++
      toString immediate ++ "/" ++ toString writes ++ " vs after-settle=" ++ toString settled ++
      "/" ++ toString writes ++ ". FLAGGED: immediate<settled means the drain left derivation to " ++
      "finish post-reboot rather than flushing it — confirm the intended drain contract live.")

def runGracefulDrain (w : World) : Scenario ScenarioOutcome := do
  labelled "first boot: " w.firstBoot
  labelled "connect #1: " w.firstConnect
  (List.range writes).forM fun i =>
    labelled ("encode #" ++ toString i ++ ": ") ((w.written i).map fun _ => ())
  labelled "close #1: " w.firstClose
  labelled "restart boot: " w.restartBoot
  labelled "connect #2: " w.secondConnect
  let first ← labelled "recall after restart: " (w.recallFirst w.marker)
  let second ← labelled "recall after settle: " (w.recallSettled w.marker)
  labelled "close #2: " w.secondClose
  return verdict w.stoppedCleanly (count w.marker first) (count w.marker second)

def gracefulShutdownDrain (volume : Option String) (w : World) : Option ScenarioOutcome :=
  match volume with
  | none =>
    some (.fail name "graceful_shutdown_drain requires opts.data_volume (a persistent volume)")
  | some _ => outcome name (runGracefulDrain w)

structure World.Runs (w : World) : Prop where
  firstBoot : w.firstBoot = .ok ()
  firstConnect : w.firstConnect = .ok ()
  firstClose : w.firstClose = .ok ()
  restartBoot : w.restartBoot = .ok ()
  secondConnect : w.secondConnect = .ok ()
  recalled : ∃ hits, w.recallFirst w.marker = .ok hits
  secondClose : w.secondClose = .ok ()

theorem verdict_passed_iff {stoppedCleanly : Bool} {immediate settled : Nat} :
    (verdict stoppedCleanly immediate settled).passed = true ↔ writes ≤ settled := by
  unfold verdict
  split
  next few => simpa [ScenarioOutcome.fail] using few
  next enough => simpa [ScenarioOutcome.observed] using enough

theorem passes_iff_counted {volume : Option String} {w : World} :
    Passes (gracefulShutdownDrain volume w) ↔ volume.isSome = true ∧ w.Runs ∧
      (∀ i < writes, ∃ id, w.written i = .ok id) ∧
        ∃ hits, w.recallSettled w.marker = .ok hits ∧ writes ≤ count w.marker hits := by
  cases volume with
  | none => simp [gracefulShutdownDrain, Passes, ScenarioOutcome.fail]
  | some path =>
    rw [gracefulShutdownDrain, passes_outcome_iff, Option.isSome_some, eq_self, true_and]
    simp only [runGracefulDrain, yields_bind_iff, yields_labelled_iff, yields_forM_iff,
      yields_pure_iff, RestartRecovery.map_eq_ok_iff, List.mem_range, and_true]
    constructor
    · rintro ⟨-, ⟨⟨⟩, booted, ⟨⟩, connected, -, written, ⟨⟩, closed, ⟨⟩, rebooted, ⟨⟩, reached,
        first, recalled, second, settled, ⟨⟩, ended, rfl⟩, passed⟩
      exact ⟨⟨booted, connected, closed, rebooted, reached, ⟨first, recalled⟩, ended⟩, written,
        second, settled, verdict_passed_iff.mp passed⟩
    · rintro ⟨runs, written, second, settled, enough⟩
      obtain ⟨first, recalled⟩ := runs.recalled
      exact ⟨_, ⟨(), runs.firstBoot, (), runs.firstConnect, (), written, (), runs.firstClose, (),
        runs.restartBoot, (), runs.secondConnect, first, recalled, second, settled, (),
        runs.secondClose, rfl⟩, verdict_passed_iff.mpr enough⟩

def marked (marker : String) (hits : List MemoryResult) : List MemoryResult :=
  hits.filter fun m => RustStr.contains m.text marker

theorem count_eq (marker : String) (hits : List MemoryResult) :
    count marker hits = (marked marker hits).length := List.countP_eq_length_filter

/-- The settled recall gives no memory twice, and each marked one is a write of this run. -/
def World.Fresh (w : World) : Prop :=
  ∀ hits, w.recallSettled w.marker = .ok hits →
    ((marked w.marker hits).map MemoryResult.memoryId).Nodup ∧
      ∀ m ∈ marked w.marker hits, ∃ i < writes, w.written i = .ok m.memoryId

theorem graceful_drain_passes_iff {volume : Option String} {w : World} (fresh : w.Fresh) :
    Passes (gracefulShutdownDrain volume w) ↔ volume.isSome = true ∧ w.Runs ∧
      ∃ stored : Fin writes → WireMemoryId, Function.Injective stored ∧
        (∀ i : Fin writes, w.written i = .ok (stored i)) ∧
        ∃ hits, w.recallSettled w.marker = .ok hits ∧
          ∀ i, ∃ m ∈ marked w.marker hits, m.memoryId = stored i := by
  rw [passes_iff_counted]
  refine and_congr_right fun _ => and_congr_right fun _ => ?_
  have counted {hits : List MemoryResult} (answered : w.recallSettled w.marker = .ok hits) :
      ((marked w.marker hits).map MemoryResult.memoryId).toFinset.card = count w.marker hits := by
    rw [List.toFinset_card_of_nodup (fresh hits answered).1, List.length_map, count_eq]
  have found_iff {hits : List MemoryResult} {id : WireMemoryId} :
      id ∈ ((marked w.marker hits).map MemoryResult.memoryId).toFinset ↔
        ∃ m ∈ marked w.marker hits, m.memoryId = id := by
    rw [List.mem_toFinset, List.mem_map]
  constructor
  · rintro ⟨written, hits, settled, enough⟩
    choose stored answered using fun i : Fin writes => written i i.isLt
    have own : ∀ id ∈ ((marked w.marker hits).map MemoryResult.memoryId).toFinset,
        ∃ i, stored i = id := fun id found => by
      obtain ⟨m, member, rfl⟩ := found_iff.mp found
      obtain ⟨i, inside, given⟩ := (fresh hits settled).2 m member
      have same := (answered ⟨i, inside⟩).symm.trans given
      exact ⟨⟨i, inside⟩, Except.ok.inj same⟩
    obtain ⟨distinct, present⟩ :=
      RestartRecovery.stored_of_counted own ((counted settled).symm ▸ enough)
    exact ⟨stored, distinct, answered, hits, settled, fun i => found_iff.mp (present i)⟩
  · rintro ⟨stored, distinct, answered, hits, settled, present⟩
    refine ⟨fun i inside => ⟨_, answered ⟨i, inside⟩⟩, hits, settled, ?_⟩
    rw [← counted settled]
    exact RestartRecovery.counted_of_stored distinct fun i => found_iff.mpr (present i)

-- A run in which the server numbers the writes and recalls each of them.
def recalledRun : World where
  spaceId := Vector.replicate 16 0
  firstBoot := .ok ()
  firstConnect := .ok ()
  encode i _ := .ok i
  firstClose := .ok ()
  stoppedCleanly := true
  restartBoot := .ok ()
  secondConnect := .ok ()
  recallFirst _ := .ok []
  recallSettled marker := .ok ((List.range writes).map fun i =>
    ⟨i, (request marker i).text, 0, 0, none, 0, [], none⟩)
  secondClose := .ok ()

theorem recalled_run_passes :
    Passes (gracefulShutdownDrain (some "drain-volume") recalledRun) := by
  have all {hits : List MemoryResult}
      (answered : recalledRun.recallSettled recalledRun.marker = .ok hits) :
      marked recalledRun.marker hits = (List.range writes).map fun i =>
        ⟨i, (request recalledRun.marker i).text, 0, 0, none, 0, [], none⟩ := by
    obtain rfl := Except.ok.inj answered
    refine List.filter_eq_self.mpr fun m member => ?_
    obtain ⟨i, -, rfl⟩ := List.mem_map.mp member
    exact request_contains _ i
  have fresh : recalledRun.Fresh := fun hits answered => by
    rw [all answered]
    constructor
    · rw [List.map_map]
      exact List.nodup_range.map fun i j same => same
    · intro m member
      obtain ⟨i, inside, rfl⟩ := List.mem_map.mp member
      exact ⟨i, List.mem_range.mp inside, rfl⟩
  refine (graceful_drain_passes_iff fresh).mpr ⟨rfl, ⟨rfl, rfl, rfl, rfl, rfl, ⟨[], rfl⟩, rfl⟩,
    Fin.val, Fin.val_injective, fun _ => rfl, _, rfl, fun i => ?_⟩
  rw [all rfl]
  exact ⟨_, List.mem_map.mpr ⟨i, List.mem_range.mpr i.isLt, rfl⟩, rfl⟩

-- Outside of that, one memory that is given often enough hides that all others are lost.
theorem passes_of_repeated_hit {path : String} {w : World} {m : MemoryResult} (runs : w.Runs)
    (written : ∀ i < writes, ∃ id, w.written i = .ok id)
    (own : RustStr.contains m.text w.marker = true)
    (repeated : w.recallSettled w.marker = .ok (List.replicate writes m)) :
    Passes (gracefulShutdownDrain (some path) w) := by
  refine passes_iff_counted.mpr ⟨rfl, runs, written, _, repeated, ?_⟩
  rw [count, List.countP_replicate, if_pos own]

end BrainEval.GracefulDrain
