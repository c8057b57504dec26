import Mathlib
import BrainEval.SpaceManifest
import BrainEval.Blackbox.Scenario
import BrainEval.Blackbox.MemoryList

set_option autoImplicit false

namespace BrainEval.RestartRecovery

open Early Scenario MemoryList

structure World where
  spaceId : WireUuid
  firstBoot : Except String Unit
  firstConnect : Except String Unit
  encode : Nat → EncodeRequest → Except String WireMemoryId
  firstClose : Except String Unit
  restartBoot : Except String Unit
  secondConnect : Except String Unit
  listing : Answers
  secondClose : Except String Unit

def name : String := "restart_recovery"

def writes : Nat := 25

def World.marker (w : World) : String := "recovery-marker-" ++ SpaceManifest.hex16 w.spaceId

def request (marker : String) (i : Nat) : EncodeRequest :=
  ⟨marker ++ ": durable fact number " ++ toString i, none⟩

theorem request_contains (marker : String) (i : Nat) :
    RustStr.contains (request marker i).text marker = true := by
  rw [RustStr.contains_iff]
  exact ⟨[], (": durable fact number " ++ toString i).toList, by simp [request]⟩

def World.written (w : World) (i : Nat) : Except String WireMemoryId :=
  w.encode i (request w.marker i)

def verdict (recovered : Nat) : ScenarioOutcome :=
  if recovered ≥ writes then
    .pass name ("all " ++ toString writes ++ " memories survived a container restart (WAL replay)")
  else
    .fail name ("data loss after restart: recovered " ++ toString recovered ++ "/" ++
      toString writes ++ " memories")

def runRestartRecovery (w : World) : Scenario ScenarioOutcome := do
  labelled "first boot: " w.firstBoot
  labelled "connect #1: " w.firstConnect
  (List.range writes).forM fun i =>
    labelled ("encode #" ++ toString i ++ ": ") ((w.written i).map fun _ => ())
  labelled "close #1: " w.firstClose
  labelled "restart boot: " w.restartBoot
  labelled "connect #2: " w.secondConnect
  let recovered ← labelledRun "memory list after restart: "
    (durableActiveMemoryIds w.marker w.listing)
  labelled "close #2: " w.secondClose
  return verdict recovered.card

def restartRecovery (volume : Option String) (w : World) : Option ScenarioOutcome :=
  match volume with
  | none => some (.fail name "restart_recovery requires opts.data_volume (a persistent volume)")
  | some _ => outcome name (runRestartRecovery w)

structure World.Runs (w : World) : Prop where
  firstBoot : w.firstBoot = .ok ()
  firstConnect : w.firstConnect = .ok ()
  firstClose : w.firstClose = .ok ()
  restartBoot : w.restartBoot = .ok ()
  secondConnect : w.secondConnect = .ok ()
  secondClose : w.secondClose = .ok ()

theorem map_eq_ok_iff {α β : Type} {result : Except String α} {f : α → β} {b : β} :
    result.map f = .ok b ↔ ∃ a, result = .ok a ∧ f a = b := by
  cases result <;> simp [Except.map]

theorem verdict_passed_iff {recovered : Nat} :
    (verdict recovered).passed = true ↔ writes ≤ recovered := by
  unfold verdict
  split
  next enough => simpa [ScenarioOutcome.pass] using enough
  next few => simpa [ScenarioOutcome.fail] using few

theorem passes_iff_counted {volume : Option String} {w : World} :
    Passes (restartRecovery volume w) ↔ volume.isSome = true ∧ w.Runs ∧
      (∀ i < writes, ∃ id, w.written i = .ok id) ∧
        ∃ ids, durableActiveMemoryIds w.marker w.listing = some (.ok ids) ∧ writes ≤ ids.card := by
  cases volume with
  | none => simp [restartRecovery, Passes, ScenarioOutcome.fail]
  | some path =>
    rw [restartRecovery, passes_outcome_iff, Option.isSome_some, eq_self, true_and]
    simp only [runRestartRecovery, yields_bind_iff, yields_labelled_iff, yields_labelledRun_iff,
      yields_forM_iff, yields_pure_iff, map_eq_ok_iff, List.mem_range, and_true]
    constructor
    · rintro ⟨-, ⟨⟨⟩, booted, ⟨⟩, connected, -, written, ⟨⟩, closed, ⟨⟩, rebooted, ⟨⟩, reached, ids,
        listed, ⟨⟩, ended, rfl⟩, passed⟩
      exact ⟨⟨booted, connected, closed, rebooted, reached, ended⟩, written, ids, listed,
        verdict_passed_iff.mp passed⟩
    · rintro ⟨runs, written, ids, listed, enough⟩
      exact ⟨_, ⟨(), runs.firstBoot, (), runs.firstConnect, (), written, (), runs.firstClose, (),
        runs.restartBoot, (), runs.secondConnect, ids, listed, (), runs.secondClose, rfl⟩,
        verdict_passed_iff.mpr enough⟩

/-- Every marked row that the restarted server lists is a write of this run. -/
def World.Fresh (w : World) : Prop :=
  ∀ ids, durableActiveMemoryIds w.marker w.listing = some (.ok ids) →
    ∀ id ∈ ids, ∃ i < writes, w.written i = .ok id

-- So many listed ids, all from so many writes, leave no write out and give none twice.
theorem stored_of_counted {n : Nat} {stored : Fin n → WireMemoryId} {ids : Finset WireMemoryId}
    (own : ∀ id ∈ ids, ∃ i, stored i = id) (enough : n ≤ ids.card) :
    Function.Injective stored ∧ ∀ i, stored i ∈ ids := by
  have inside : ids ⊆ Finset.univ.image stored := fun id listed => by
    obtain ⟨i, same⟩ := own id listed
    exact Finset.mem_image.mpr ⟨i, Finset.mem_univ i, same⟩
  have most : (Finset.univ.image stored).card ≤ n :=
    Finset.card_image_le.trans_eq (Finset.card_fin n)
  have all : ids = Finset.univ.image stored :=
    Finset.eq_of_subset_of_card_le inside (most.trans enough)
  have full : (Finset.univ.image stored).card = (Finset.univ : Finset (Fin n)).card := by
    rw [Finset.card_fin]
    exact le_antisymm most (all ▸ enough)
  refine ⟨fun i j same => ?_, fun i => ?_⟩
  · exact Finset.injOn_of_card_image_eq full (Finset.mem_univ i) (Finset.mem_univ j) same
  · rw [all]
    exact Finset.mem_image_of_mem stored (Finset.mem_univ i)

theorem counted_of_stored {n : Nat} {stored : Fin n → WireMemoryId} {ids : Finset WireMemoryId}
    (distinct : Function.Injective stored) (listed : ∀ i, stored i ∈ ids) : n ≤ ids.card := by
  have inside : Finset.univ.image stored ⊆ ids := Finset.image_subset_iff.mpr fun i _ => listed i
  have count := Finset.card_le_card inside
  rwa [Finset.card_image_of_injective _ distinct, Finset.card_fin] at count

-- A run in which the server numbers the writes and lists them all.
def numberedRun : World where
  spaceId := Vector.replicate 16 0
  firstBoot := .ok ()
  firstConnect := .ok ()
  encode i _ := .ok i
  firstClose := .ok ()
  restartBoot := .ok ()
  secondConnect := .ok ()
  listing := [.ok [⟨(List.range writes).map fun i =>
    ⟨i, (request ("recovery-marker-" ++ SpaceManifest.hex16 (Vector.replicate 16 0)) i).text, 0⟩,
      [], true⟩]]
  secondClose := .ok ()

theorem numberedRun_ids : ∃ ids,
    durableActiveMemoryIds numberedRun.marker numberedRun.listing = some (.ok ids) ∧
      ∀ id, id ∈ ids ↔ id < writes := by
  obtain ⟨e, walked, visited⟩ := exists_walk_of_final_page numberedRun.marker
    ((List.range writes).map fun i => ⟨i, (request numberedRun.marker i).text, 0⟩) []
  refine ⟨e.present, durableIds_iff.mpr ⟨e, walked, rfl⟩, fun id => ?_⟩
  rw [mem_present_iff walked, visited]
  simp only [List.mem_map, List.mem_range]
  constructor
  · rintro ⟨-, ⟨i, inside, rfl⟩, rfl, -⟩
    exact inside
  · exact fun inside => ⟨_, ⟨id, inside, rfl⟩, rfl, rfl, request_contains _ id⟩

end BrainEval.RestartRecovery
