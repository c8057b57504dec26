import Mathlib
import BrainEval.Runner.Pipeline
import BrainEval.Runner.VerifyList

set_option autoImplicit false

namespace BrainEval

namespace MemoryList

open Harness Paging

-- The call comes back, and its caller is not unwound.
def returns (outcome : Option Verification) : Bool := outcome.any (·.panicked.isNone)

/-- Some page that the cursors lead to, with no refusal before it, has a row. -/
def ListsRow (answers : Answers) : Prop :=
  ∃ page, Reaches answerStops answers (.ok page) ∧ rows page ≠ []

def Listing.Counting (l : Listing) : Prop := 0 < l.listed ↔ l.counted ≠ []

theorem Listing.Counting.addFrame {l : Listing} (counting : l.Counting) (frame : MemoryListFrame) :
    (l.addFrame frame).Counting := by
  have added : 0 < saturatingAdd l.listed frame.items.length ↔
      0 < l.listed ∨ frame.items ≠ [] := by
    rw [← List.length_pos_iff]
    unfold saturatingAdd
    omega
  unfold Counting at counting ⊢
  unfold Listing.addFrame
  dsimp only
  rw [added, counting, ne_eq, ne_eq, ne_eq, List.append_eq_nil_iff, not_and_or]

theorem Listing.Counting.addFrames {l : Listing} (counting : l.Counting)
    (frames : List MemoryListFrame) : (frames.foldl Listing.addFrame l).Counting := by
  induction frames generalizing l with
  | nil => exact counting
  | cons frame frames ih => exact ih (counting.addFrame frame)

theorem verifyWalk_counting {answers : Answers} {cursor : List UInt8} {l final : Listing}
    (counting : l.Counting) (done : verifyWalk answers cursor l = some final) :
    final.Counting := by
  induction answers generalizing cursor l with
  | nil => simp [verifyWalk] at done
  | cons answer answers ih =>
    have asked : Listing.Counting { l with sent := l.sent ++ [⟨pageLimit, cursor, false⟩] } :=
      counting
    cases answer with
    | error message =>
      obtain rfl := Option.some_inj.mp done
      exact asked
    | ok frames =>
      simp only [verifyWalk] at done
      split at done
      next =>
        obtain rfl := Option.some_inj.mp done
        exact asked.addFrames frames
      next => exact ih (asked.addFrames frames) done

theorem listsRow_iff {answers seen : Answers} (read : readPages answerStops answers = some seen) :
    ListsRow answers ↔ seen.flatMap answerRows ≠ [] := by
  rw [ne_eq, List.flatMap_eq_nil_iff]
  push Not
  constructor
  · rintro ⟨page, reached, some⟩
    exact ⟨.ok page, (mem_readPages_iff read).mpr reached, some⟩
  · rintro ⟨answer, member, some⟩
    cases answer with
    | error message => exact absurd rfl some
    | ok page => exact ⟨page, (mem_readPages_iff read).mp member, some⟩

theorem returns_iff (convKey : String) (stored : Nat) {answers : Answers}
    (ends : ∃ answer ∈ answers, answerStops answer = true) :
    returns (verifyMemoryList convKey stored answers) = true ↔ ListsRow answers := by
  obtain ⟨seen, read⟩ := exists_readPages ends
  have counted := verifyWalk_answers answers [] .empty
  rw [read, Option.map_some] at counted
  obtain ⟨final, done, same⟩ := Option.map_eq_some_iff.mp counted
  have counting : 0 < final.listed ↔ final.counted ≠ [] :=
    verifyWalk_counting (l := .empty) (by simp [Listing.Counting, Listing.empty]) done
  have listed : ListsRow answers ↔ 0 < final.listed := by
    rw [listsRow_iff read, counting, same]
    rfl
  rw [listed, verifyMemoryList, done, Option.map_some]
  by_cases some : 0 < final.listed
  next => simp [returns, some]
  next => simp [returns, some]

end MemoryList

namespace Runner

open MemoryList Report

namespace Run

variable (run : Run)

-- The read-back of a conversation gets as far as its connection.
def reconnects (pre : Prepared) : Bool :=
  match run.phase0.tokens[pre.spaceId]? with
  | none => false
  | some token => (run.world.reconnect pre.convKey pre.spaceId token).isOk

namespace Schedule

variable {run} (s : run.Schedule)

def verifications (listings : String → Answers) : List (Option Verification) :=
  if run.config.verifyMemoryList then
    ((preparedOf s.ingested).filter run.reconnects).map fun pre =>
      verifyMemoryList pre.convKey pre.cw.stored (listings pre.convKey)
  else []

-- The futures of phase 2 share the run's task, so a panic in one of them unwinds the run.
noncomputable def verifiedReport (U : RustStr.UnicodeData) (listings : String → Answers) :
    Option RunReport :=
  if (s.verifications listings).all returns then some (s.report U) else none

theorem verification_returns_iff (U : RustStr.UnicodeData) (listings : String → Answers)
    (ends : ∀ convKey, ∃ answer ∈ listings convKey, answerStops answer = true) :
    (∀ convKey stored, returns (verifyMemoryList convKey stored (listings convKey)) = true ↔
      ListsRow (listings convKey)) ∧
    (s.verifiedReport U listings = some (s.report U) ↔
      (run.config.verifyMemoryList = true →
        ∀ pre ∈ preparedOf s.ingested, run.reconnects pre = true →
          ListsRow (listings pre.convKey))) := by
  have call (convKey : String) (stored : Nat) := returns_iff convKey stored (ends convKey)
  refine ⟨call, ?_⟩
  have all : (s.verifications listings).all returns = true ↔
      (run.config.verifyMemoryList = true → ∀ pre ∈ preparedOf s.ingested,
        run.reconnects pre = true → ListsRow (listings pre.convKey)) := by
    unfold verifications
    by_cases verifying : run.config.verifyMemoryList = true
    next =>
      simp only [verifying, if_true, forall_const, List.all_map, List.all_eq_true, List.mem_filter,
        and_imp, Function.comp_apply, call]
    next => simp [verifying]
  rw [verifiedReport, ← all]
  split
  next every => simp [every]
  next some => simp [some]

end Schedule

-- Two conversations of one question each, for a run that only lists them.
def listingRun : Run :=
  { plainRun .silent [sampleInstance "q1" "a", sampleInstance "q2" "b"] with
    config := { plainConfig with verifyMemoryList := true } }

def oneRow : Answers := [.ok [⟨[⟨1, "Ann lives in Paris", 0⟩], [], true⟩]]

def refusedListing (convKey : String) : Answers :=
  if convKey = "a" then [.error "overloaded"] else oneRow

theorem listed_run_reports :
    listingRun.sequential.verifiedReport .ascii (fun _ => oneRow) =
      some (listingRun.sequential.report .ascii) := by
  have ends : ∀ convKey : String, ∃ answer ∈ (fun _ => oneRow) convKey, answerStops answer = true :=
    fun _ => ⟨_, List.mem_singleton_self _, rfl⟩
  refine (Schedule.verification_returns_iff _ .ascii _ ends).2.mpr fun _ _ _ _ => ?_
  exact ⟨_, ⟨[], [], rfl, by simp⟩, by decide⟩

theorem refused_page_aborts :
    returns (verifyMemoryList "a" 1 (refusedListing "a")) = false ∧
      returns (verifyMemoryList "b" 1 (refusedListing "b")) = true ∧
      listingRun.sequential.verifiedReport .ascii refusedListing = none := by
  refine ⟨by decide +kernel, by decide +kernel, ?_⟩
  rw [Schedule.verifiedReport, if_neg]
  decide +kernel

end Run

end Runner

end BrainEval
