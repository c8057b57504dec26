import Mathlib
import BrainEval.Lib.AckLog
import BrainEval.Lib.Numbered
import BrainEval.SpaceManifest
import BrainEval.Blackbox.Scenario
import BrainEval.Blackbox.MemoryList

set_option autoImplicit false

namespace BrainEval.Chaos

open Early RustStr MemoryList Scenario

-- What a boot of the server answers.
structure Boot where
  started : Except String Unit
  minted : Except String Unit
  connected : Except String Unit
  listing : Answers

/-- A boot whose server is killed while a writer sends. The writer sends no text twice, so that an
answer is told by its request. -/
structure Cycle extends Boot where
  writerConnected : Except String Unit
  encode : EncodeRequest → Except String WireMemoryId
  joined : Except String Unit

structure World where
  spaceId : WireUuid
  cycle : Nat → Cycle
  last : Boot

def name : String := "kill_during_write"

def cycles : Nat := 2

def maxBatch : Nat := 200

def World.marker (w : World) : String := "chaos-" ++ SpaceManifest.hex16 w.spaceId

def cue (marker : String) (i : Nat) : String := marker ++ "-" ++ toString i

def encodeReq (text : String) : EncodeRequest := ⟨text, none⟩

def request (marker : String) (i : Nat) : EncodeRequest :=
  encodeReq (cue marker i ++ ": chaos durable fact")

structure Writer where
  sent : List EncodeRequest
  acked : List (WireMemoryId × String)

-- The loop of `write_until_dead`, with room for so many acknowledgements more.
def writeLoop (marker : String) (encode : EncodeRequest → Except String WireMemoryId) :
    Nat → Nat → Writer → Writer
  | 0, _, w => w
  | room + 1, i, w =>
    let req := request marker i
    let w : Writer := { w with sent := w.sent ++ [req] }
    match encode req with
    | .ok id =>
      writeLoop marker encode room (i + 1) { w with acked := w.acked ++ [(id, cue marker i)] }
    | .error _ => w

def writeUntilDead (marker : String) (c : Cycle) (startIndex : Nat) : Writer :=
  match c.writerConnected with
  | .error _ => ⟨[], []⟩
  | .ok _ => writeLoop marker c.encode maxBatch startIndex ⟨[], []⟩

def countSurvivors (marker : String) (boot : Boot) (acked : List (WireMemoryId × String)) :
    Option (Except String Nat) :=
  match boot.connected with
  | .error e => some (.error e)
  | .ok _ => MemoryList.countSurvivors marker acked boot.listing

structure State where
  acked : List (WireMemoryId × String)
  nextIndex : Nat

def recoveryCheck (w : World) (s : State) (cycle : Nat) : Scenario Unit :=
  if s.acked = [] then pure ()
  else do
    let survived ← labelledRun ("cycle " ++ toString cycle ++ ": post-restart verify: ")
      (countSurvivors w.marker (w.cycle cycle).toBoot s.acked)
    require (survived = s.acked.length)
      ("data loss after restart (entering cycle " ++ toString cycle ++ "): " ++
        toString survived ++ "/" ++ toString s.acked.length ++ " ACKed writes survived")

def runCycle (w : World) (s : State) (cycle : Nat) : Scenario State := do
  let c := w.cycle cycle
  labelled ("cycle " ++ toString cycle ++ ": boot: ") c.started
  labelled ("cycle " ++ toString cycle ++ ": mint: ") c.minted
  recoveryCheck w s cycle
  let batch := (writeUntilDead w.marker c s.nextIndex).acked
  labelled ("cycle " ++ toString cycle ++ ": writer task join: ") c.joined
  require (batch ≠ []) ("cycle " ++ toString cycle ++ ": no writes were ACKed before the kill")
  return ⟨s.acked ++ batch, s.nextIndex + (batch.length + 16)⟩

def verdict (survived acked : Nat) : ScenarioOutcome :=
  if survived = acked then
    .pass name ("invariant #1: " ++ toString acked ++ " ACKed writes across " ++
      toString cycles ++ " SIGKILL/restart cycles all survived (WAL-before-ack; recovery " ++
      "idempotent across repeated crashes)")
  else
    .fail name ("data loss after final restart: " ++ toString survived ++ "/" ++
      toString acked ++ " ACKed writes survived")

def run (w : World) : Scenario ScenarioOutcome := do
  let s ← (List.range cycles).foldlM (runCycle w) ⟨[], 0⟩
  labelled "final boot: " w.last.started
  labelled "final mint: " w.last.minted
  let survived ← labelledRun "final verify: " (countSurvivors w.marker w.last s.acked)
  return verdict survived s.acked.length

def killDuringWrite (volume : Option String) (w : World) : Option ScenarioOutcome :=
  match volume with
  | none => some (.fail name
      "kill_during_write requires opts.data_volume (a persistent volume)")
  | some _ => outcome name (run w)

section Batches

variable (w : World)

-- The index that a cycle's writer starts from, where every cycle before it came to its end.
def startIndex : Nat → Nat
  | 0 => 0
  | k + 1 =>
    startIndex k + ((writeUntilDead w.marker (w.cycle k) (startIndex k)).acked.length + 16)

def batch (k : Nat) : Writer := writeUntilDead w.marker (w.cycle k) (startIndex w k)

def ackedBefore (k : Nat) : List (WireMemoryId × String) :=
  (List.range k).flatMap fun j => (batch w j).acked

def stateAt (k : Nat) : State := ⟨ackedBefore w k, startIndex w k⟩

theorem stateAt_succ (k : Nat) :
    stateAt w (k + 1) = ⟨(stateAt w k).acked ++ (batch w k).acked,
      (stateAt w k).nextIndex + ((batch w k).acked.length + 16)⟩ := by
  simp [stateAt, ackedBefore, List.range_succ, startIndex, batch]

def bootAt (b : Nat) : Boot := if b < cycles then (w.cycle b).toBoot else w.last

end Batches

def Present (marker : String) (boot : Boot) (acked : List (WireMemoryId × String)) : Prop :=
  boot.connected = .ok () ∧
    ∃ ids, durableActiveMemoryIds marker boot.listing = some (.ok ids) ∧
      ∀ write ∈ acked, write.1 ∈ ids

theorem countSurvivors_all_iff {marker : String} {boot : Boot}
    {acked : List (WireMemoryId × String)} :
    countSurvivors marker boot acked = some (.ok acked.length) ↔ Present marker boot acked := by
  rw [countSurvivors, Present]
  cases connected : boot.connected with
  | error e => simp
  | ok reached =>
    rw [MemoryList.countSurvivors]
    rcases durableActiveMemoryIds marker boot.listing with _ | _ | ids
    · simp
    · simp [Except.map]
    · simp [Except.map, List.countP_eq_length]

theorem present_iff_visited {marker : String} {boot : Boot}
    {acked : List (WireMemoryId × String)} :
    Present marker boot acked ↔ boot.connected = .ok () ∧
      ∃ e, durableWalk marker boot.listing [] .empty = some (.ok e) ∧
        ∀ write ∈ acked, ∃ row ∈ e.visited, row.memoryId = write.1 ∧ row.state = 0 ∧
          contains row.text marker = true := by
  refine and_congr_right fun _ => ⟨?_, ?_⟩
  · rintro ⟨ids, listed, each⟩
    obtain ⟨e, walked, rfl⟩ := durableIds_iff.mp listed
    exact ⟨e, walked, fun write member => (mem_present_iff walked).mp (each write member)⟩
  · rintro ⟨e, walked, each⟩
    exact ⟨_, durableIds_iff.mpr ⟨e, walked, rfl⟩, fun write member =>
      (mem_present_iff walked).mpr (each write member)⟩

theorem yields_recoveryCheck_iff {w : World} {s : State} {k : Nat} {u : Unit} :
    Yields (recoveryCheck w s k) u ↔
      (s.acked ≠ [] → Present w.marker (w.cycle k).toBoot s.acked) := by
  unfold recoveryCheck
  by_cases fresh : s.acked = []
  next => simp [fresh, yields_pure_iff]
  next =>
    rw [if_neg fresh, yields_bind_iff]
    simp only [yields_labelledRun_iff, yields_require_iff, ne_eq, fresh, not_false_eq_true,
      forall_const, ← countSurvivors_all_iff, exists_eq_right]

/-- A cycle comes to its end where its boot comes up, every earlier write is still there, and its
own writer gets something acknowledged. -/
structure Survives (w : World) (k : Nat) (s : State) : Prop where
  started : (w.cycle k).started = .ok ()
  minted : (w.cycle k).minted = .ok ()
  present : s.acked ≠ [] → Present w.marker (w.cycle k).toBoot s.acked
  joined : (w.cycle k).joined = .ok ()
  written : (writeUntilDead w.marker (w.cycle k) s.nextIndex).acked ≠ []

theorem yields_runCycle_iff {w : World} {s t : State} {k : Nat} :
    Yields (runCycle w s k) t ↔ Survives w k s ∧
      t = ⟨s.acked ++ (writeUntilDead w.marker (w.cycle k) s.nextIndex).acked,
        s.nextIndex + ((writeUntilDead w.marker (w.cycle k) s.nextIndex).acked.length + 16)⟩ := by
  simp only [runCycle, yields_bind_iff, yields_labelled_iff, yields_recoveryCheck_iff,
    yields_require_iff, yields_pure_iff]
  constructor
  · rintro ⟨⟨⟩, started, ⟨⟩, minted, -, present, ⟨⟩, joined, -, written, rfl⟩
    exact ⟨⟨started, minted, present, joined, written⟩, rfl⟩
  · rintro ⟨survives, rfl⟩
    exact ⟨(), survives.started, (), survives.minted, (), survives.present, (), survives.joined, (),
      survives.written, rfl⟩

theorem yields_cycles_iff {w : World} {n : Nat} {t : State} :
    Yields ((List.range n).foldlM (runCycle w) ⟨[], 0⟩) t ↔
      t = stateAt w n ∧ ∀ k < n, Survives w k (stateAt w k) := by
  rw [yields_foldlM_range_iff]
  constructor
  · rintro ⟨states, first, rfl, each⟩
    have reached (k : Nat) : k ≤ n → states k = stateAt w k := by
      induction k with
      | zero => exact fun _ => first
      | succ k ih =>
        intro inside
        have before := ih (by omega)
        rw [(yields_runCycle_iff.mp (each k inside)).2, before, stateAt_succ]
        rfl
    refine ⟨reached n le_rfl, fun k inside => ?_⟩
    rw [← reached k inside.le]
    exact (yields_runCycle_iff.mp (each k inside)).1
  · rintro ⟨rfl, survives⟩
    refine ⟨stateAt w, rfl, rfl, fun k inside => yields_runCycle_iff.mpr ⟨survives k inside, ?_⟩⟩
    exact stateAt_succ w k

theorem verdict_passed_iff {survived acked : Nat} :
    (verdict survived acked).passed = true ↔ survived = acked := by
  unfold verdict
  split
  next all => simp [ScenarioOutcome.pass, all]
  next lost => simp [ScenarioOutcome.fail, lost]

theorem yields_run_passed_iff {w : World} :
    (∃ o, Yields (run w) o ∧ o.passed = true) ↔
      (∀ k < cycles, Survives w k (stateAt w k)) ∧ w.last.started = .ok () ∧
        w.last.minted = .ok () ∧ Present w.marker w.last (ackedBefore w cycles) := by
  simp only [run, yields_bind_iff, yields_cycles_iff, yields_labelled_iff, yields_labelledRun_iff,
    yields_pure_iff]
  constructor
  · rintro ⟨-, ⟨-, ⟨rfl, survives⟩, ⟨⟩, started, ⟨⟩, minted, survived, counted, rfl⟩, passed⟩
    rw [verdict_passed_iff.mp passed] at counted
    exact ⟨survives, started, minted, countSurvivors_all_iff.mp counted⟩
  · rintro ⟨survives, started, minted, present⟩
    exact ⟨_, ⟨_, ⟨rfl, survives⟩, (), started, (), minted, _,
      countSurvivors_all_iff.mpr present, rfl⟩, verdict_passed_iff.mpr rfl⟩

theorem passes_iff_survives {volume : Option String} {w : World} :
    Passes (killDuringWrite volume w) ↔ volume.isSome = true ∧
      (∀ k < cycles, Survives w k (stateAt w k)) ∧ w.last.started = .ok () ∧
        w.last.minted = .ok () ∧ Present w.marker w.last (ackedBefore w cycles) := by
  cases volume with
  | none => simp [killDuringWrite, Passes, ScenarioOutcome.fail]
  | some path => simp [killDuringWrite, passes_outcome_iff, yields_run_passed_iff]

section Texts

variable {marker : String} {encode : EncodeRequest → Except String WireMemoryId} {start : Nat}

def answer (write : WireMemoryId × String) : Except String WireMemoryId × String :=
  (.ok write.1, write.2)

variable (marker encode start) in
/-- A writer that has sent its texts in order from an index, and of these the first were
acknowledged: all but the last at most. -/
structure Writer.Sends (w : Writer) : Prop where
  sent : w.sent = Numbered.batch (request marker) start w.sent.length
  acked : w.acked.map answer =
    Numbered.batch (fun i => (encode (request marker i), cue marker i)) start w.acked.length
  least : w.acked.length ≤ w.sent.length
  most : w.sent.length ≤ w.acked.length + 1

theorem Writer.sends_empty : Writer.Sends marker encode start ⟨[], []⟩ :=
  ⟨rfl, rfl, le_rfl, Nat.zero_le _⟩

theorem writeLoop_sends (room : Nat) {w : Writer} (sends : w.Sends marker encode start)
    (going : w.sent.length = w.acked.length) :
    (writeLoop marker encode room (start + w.sent.length) w).Sends marker encode start := by
  induction room generalizing w with
  | zero => exact sends
  | succ room ih =>
    let req := request marker (start + w.sent.length)
    have ordered : w.sent ++ [req] =
        Numbered.batch (request marker) start (w.sent ++ [req]).length := by
      rw [List.length_append, List.length_singleton, Numbered.batch_succ, ← sends.sent]
    rw [writeLoop]
    cases given : encode req with
    | error e => exact ⟨ordered, sends.acked, by simp [going], by simp [going]⟩
    | ok id =>
      have here : encode (request marker (start + w.sent.length)) = .ok id := given
      have answered : (w.acked ++ [(id, cue marker (start + w.sent.length))]).map answer =
          Numbered.batch (fun i => (encode (request marker i), cue marker i)) start
            (w.acked.length + 1) := by
        rw [Numbered.batch_succ, List.map_append, sends.acked, ← going, here]
        rfl
      have next := ih (w := ⟨w.sent ++ [req],
        w.acked ++ [(id, cue marker (start + w.sent.length))]⟩)
        ⟨ordered, by simpa using answered, by simp [going], by simp [going]⟩ (by simp [going])
      simpa [Nat.add_assoc] using next

theorem writeUntilDead_sends (c : Cycle) :
    (writeUntilDead marker c start).Sends marker c.encode start := by
  unfold writeUntilDead
  cases c.writerConnected with
  | error e => exact Writer.sends_empty
  | ok reached =>
    have empty : Writer.Sends marker c.encode start ⟨[], []⟩ := Writer.sends_empty
    have sends := writeLoop_sends maxBatch empty rfl
    rwa [List.length_nil, Nat.add_zero] at sends

theorem cue_injective : Function.Injective (cue marker) := by
  intro i j same
  have digits : toString i = toString j := (String.append_right_inj _).mp same
  exact Nat.repr_inj.mp digits

theorem request_text_injective : Function.Injective fun i => (request marker i).text := by
  intro i j same
  exact cue_injective ((String.append_left_inj _).mp same)

variable (w : World)

theorem startIndex_succ (k : Nat) :
    startIndex w (k + 1) = startIndex w k + ((batch w k).acked.length + 16) := rfl

theorem batch_sends (k : Nat) :
    (batch w k).Sends w.marker (w.cycle k).encode (startIndex w k) := writeUntilDead_sends _

theorem acked_cues (k : Nat) : (batch w k).acked.map Prod.snd =
    Numbered.batch (cue w.marker) (startIndex w k) (batch w k).acked.length := by
  have answered := congrArg (List.map Prod.snd) (batch_sends w k).acked
  rw [List.map_map, Numbered.map_batch] at answered
  exact answered

theorem sent_texts (k : Nat) : (batch w k).sent.map (·.text) =
    Numbered.batch (fun i => (request w.marker i).text) (startIndex w k)
      (batch w k).sent.length := by
  rw [← Numbered.map_batch, ← (batch_sends w k).sent]

-- The gap between two cycles holds the text that was in flight at the kill.
theorem sent_apart (k : Nat) :
    startIndex w k + (batch w k).sent.length ≤ startIndex w (k + 1) := by
  have most := (batch_sends w k).most
  rw [startIndex_succ]
  omega

theorem acked_sent {k : Nat} {write : WireMemoryId × String} (member : write ∈ (batch w k).acked) :
    ∃ req ∈ (batch w k).sent, (w.cycle k).encode req = .ok write.1 ∧
      req.text = write.2 ++ ": chaos durable fact" := by
  have sends := batch_sends w k
  have answered := List.mem_map_of_mem (f := answer) member
  rw [sends.acked, Numbered.mem_batch] at answered
  obtain ⟨i, from_first, inside, same⟩ := answered
  obtain ⟨given, named⟩ := Prod.mk.inj same
  refine ⟨request w.marker i, ?_, given, by rw [← named]; rfl⟩
  rw [sends.sent, Numbered.mem_batch]
  exact ⟨i, from_first, inside.trans_le (Nat.add_le_add_left sends.least _), rfl⟩

end Texts

theorem request_contains (marker : String) (i : Nat) :
    contains (request marker i).text marker = true := by
  rw [contains_iff]
  exact ⟨[], ("-" ++ toString i ++ ": chaos durable fact").toList, by
    simp [request, encodeReq, cue]⟩

theorem sent_contains {w : World} {k : Nat} {req : EncodeRequest}
    (member : req ∈ (batch w k).sent) : contains req.text w.marker = true := by
  rw [(batch_sends w k).sent, Numbered.mem_batch] at member
  obtain ⟨i, -, -, rfl⟩ := member
  exact request_contains _ _

section Verdict

variable {volume : Option String} {w : World}

structure Runs (w : World) : Prop where
  up : ∀ b ≤ cycles, (bootAt w b).started = .ok () ∧ (bootAt w b).minted = .ok ()
  writes : ∀ k < cycles, (w.cycle k).joined = .ok () ∧ (batch w k).acked ≠ []

theorem mem_ackedBefore {b : Nat} {write : WireMemoryId × String} :
    write ∈ ackedBefore w b ↔ ∃ k < b, write ∈ (batch w k).acked := by
  simp [ackedBefore]

theorem ackedBefore_ne_nil (runs : Runs w) {b : Nat} (later : 0 < b) (within : b ≤ cycles) :
    ackedBefore w b ≠ [] := by
  obtain ⟨write, member⟩ := List.exists_mem_of_ne_nil _ (runs.writes 0 (later.trans_le within)).2
  exact List.ne_nil_of_mem (mem_ackedBefore.mpr ⟨0, later, member⟩)

theorem bootAt_of_lt {b : Nat} (within : b < cycles) : bootAt w b = (w.cycle b).toBoot :=
  if_pos within

theorem bootAt_last : bootAt w cycles = w.last := if_neg (Nat.lt_irrefl _)

theorem runs_of_survives (survives : ∀ k < cycles, Survives w k (stateAt w k))
    (started : w.last.started = .ok ()) (minted : w.last.minted = .ok ()) : Runs w := by
  refine ⟨fun b within => ?_, fun k within => ?_⟩
  rotate_left
  · exact ⟨(survives k within).joined, (survives k within).written⟩
  rcases within.lt_or_eq with before | rfl
  · rw [bootAt_of_lt before]
    exact ⟨(survives b before).started, (survives b before).minted⟩
  · rw [bootAt_last]
    exact ⟨started, minted⟩

theorem passes_iff_present : Passes (killDuringWrite volume w) ↔
    volume.isSome = true ∧ Runs w ∧
      ∀ b, 0 < b → b ≤ cycles → Present w.marker (bootAt w b) (ackedBefore w b) := by
  rw [passes_iff_survives]
  constructor
  · rintro ⟨given, survives, started, minted, last⟩
    have runs := runs_of_survives survives started minted
    refine ⟨given, runs, fun b later within => ?_⟩
    rcases within.lt_or_eq with before | rfl
    · rw [bootAt_of_lt before]
      exact (survives b before).present (ackedBefore_ne_nil runs later within)
    · rw [bootAt_last]
      exact last
  · rintro ⟨given, runs, present⟩
    have last := runs.up cycles le_rfl
    rw [bootAt_last] at last
    refine ⟨given, fun k within => ?_, last.1, last.2, ?_⟩
    · have up := runs.up k within.le
      rw [bootAt_of_lt within] at up
      refine ⟨up.1, up.2, fun earlier => ?_, (runs.writes k within).1, (runs.writes k within).2⟩
      have later : 0 < k := Nat.pos_of_ne_zero fun first => earlier (by rw [first]; rfl)
      rw [← bootAt_of_lt within]
      exact present k later within.le
    · have listed := present cycles (by decide) le_rfl
      rwa [bootAt_last] at listed

theorem killDuringWrite_passes_iff : Passes (killDuringWrite volume w) ↔
    volume.isSome = true ∧ Runs w ∧ ∀ b, 0 < b → b ≤ cycles →
      (bootAt w b).connected = .ok () ∧
        ∃ e, durableWalk w.marker (bootAt w b).listing [] .empty = some (.ok e) ∧
          ∀ k < b, ∀ write ∈ (batch w k).acked, ∃ row ∈ e.visited,
            row.memoryId = write.1 ∧ row.state = 0 ∧ contains row.text w.marker = true := by
  rw [passes_iff_present]
  simp only [present_iff_visited, mem_ackedBefore]
  refine and_congr_right fun _ => and_congr_right fun _ => forall₃_congr fun b _ _ => ?_
  refine and_congr_right fun _ => exists_congr fun e => and_congr_right fun _ => ?_
  exact ⟨fun each k before write member => each write ⟨k, before, member⟩,
    fun each write ⟨k, before, member⟩ => each k before write member⟩

/-- What the server keeps over the whole run is a log that answers a write only once it is on disk,
and each restart lists what the log holds. -/
structure Logged (w : World) (opened closed : Nat → AckLog.State (WireMemoryId × String)) :
    Prop where
  first : AckLog.Sound (opened 0)
  serves : ∀ k < cycles, AckLog.Steps (opened k) (closed k)
  -- the kill and the replay
  recovers : ∀ k < cycles, AckLog.Steps (closed k) (opened (k + 1))
  answers : ∀ k < cycles, ∀ req ∈ (batch w k).sent, ∀ id,
    (w.cycle k).encode req = .ok id → (id, req.text) ∈ (closed k).acked
  lists : ∀ b, 0 < b → b ≤ cycles → ∃ e,
    durableWalk w.marker (bootAt w b).listing [] .empty = some (.ok e) ∧
      ∀ record ∈ (opened b).synced, ⟨record.1, record.2, 0⟩ ∈ e.visited

variable {opened closed : Nat → AckLog.State (WireMemoryId × String)}

theorem Logged.steps (logged : Logged w opened closed) {j k : Nat} (before : j ≤ k)
    (within : k ≤ cycles) : AckLog.Steps (opened j) (opened k) := by
  induction k, before using Nat.le_induction with
  | base => exact .refl
  | succ k before ih =>
    exact ((ih (by omega)).trans (logged.serves k (by omega))).trans (logged.recovers k (by omega))

theorem Logged.sound (logged : Logged w opened closed) {k : Nat} (within : k ≤ cycles) :
    AckLog.Sound (opened k) :=
  (logged.steps (Nat.zero_le k) within).sound logged.first

theorem Logged.kept (logged : Logged w opened closed) {k b : Nat} (before : k < b)
    (within : b ≤ cycles) : (closed k).acked ⊆ (opened b).synced := by
  have served := logged.serves k (by omega)
  have later := (logged.recovers k (by omega)).trans
    (logged.steps (Nat.succ_le_of_lt before) within)
  exact AckLog.Steps.kept (served.sound (logged.sound (by omega))) later

theorem Logged.present (logged : Logged w opened closed) {b : Nat} (later : 0 < b)
    (within : b ≤ cycles) (connected : (bootAt w b).connected = .ok ()) :
    Present w.marker (bootAt w b) (ackedBefore w b) := by
  obtain ⟨e, walked, listed⟩ := logged.lists b later within
  refine present_iff_visited.mpr ⟨connected, e, walked, fun write member => ?_⟩
  obtain ⟨k, before, acked⟩ := mem_ackedBefore.mp member
  obtain ⟨req, sent, given, -⟩ := acked_sent w acked
  have record := logged.kept before within (logged.answers k (by omega) req sent write.1 given)
  exact ⟨_, listed _ record, rfl, rfl, sent_contains sent⟩

section Witness

def logRecord (k : Nat) : WireMemoryId × String :=
  (k, (request ("chaos-" ++ SpaceManifest.hex16 (Vector.replicate 16 0)) (17 * k)).text)

def logBoot (b : Nat) : Boot where
  started := .ok ()
  minted := .ok ()
  connected := .ok ()
  listing := [.ok [⟨(List.range b).map fun k => ⟨(logRecord k).1, (logRecord k).2, 0⟩, [], true⟩]]

-- A server that takes one write a cycle and is killed while it takes the second.
def logWorld : World where
  spaceId := Vector.replicate 16 0
  cycle k :=
    { logBoot k with
      writerConnected := .ok ()
      encode := fun req =>
        if req.text = (logRecord k).2 then .ok (logRecord k).1 else .error "connection reset"
      joined := .ok () }
  last := logBoot cycles

def logState (k : Nat) : AckLog.State (WireMemoryId × String) where
  synced := {record | ∃ j < k, record = logRecord j}
  pending := ∅
  acked := {record | ∃ j < k, record = logRecord j}

theorem logRecords_succ (k : Nat) : {record | ∃ j < k + 1, record = logRecord j} =
    insert (logRecord k) {record | ∃ j < k, record = logRecord j} := by
  ext record
  simp only [Set.mem_ofPred_eq, Set.mem_insert_iff, Nat.lt_succ_iff_lt_or_eq, or_and_right,
    exists_or, exists_eq_left, or_comm]

def logWriter (k : Nat) : Writer :=
  ⟨[request logWorld.marker (17 * k), request logWorld.marker (17 * k + 1)],
    [(k, cue logWorld.marker (17 * k))]⟩

theorem log_writeLoop (room k : Nat) :
    writeLoop logWorld.marker (logWorld.cycle k).encode (room + 2) (17 * k) ⟨[], []⟩ =
      logWriter k := by
  have taken : (request logWorld.marker (17 * k)).text = (logRecord k).2 := rfl
  have refused : (request logWorld.marker (17 * k + 1)).text ≠ (logRecord k).2 := by
    rw [← taken]
    exact fun same => absurd (request_text_injective same) (by omega)
  have encode : (logWorld.cycle k).encode = fun req =>
      if req.text = (logRecord k).2 then .ok (logRecord k).1 else .error "connection reset" := rfl
  simp only [encode, writeLoop, taken, if_true, if_neg refused]
  rfl

theorem log_writer (k : Nat) :
    writeUntilDead logWorld.marker (logWorld.cycle k) (17 * k) = logWriter k :=
  log_writeLoop 198 k

theorem log_startIndex (k : Nat) : startIndex logWorld k = 17 * k := by
  induction k with
  | zero => rfl
  | succ k ih => simp [startIndex, ih, log_writer, logWriter, Nat.mul_succ]

theorem log_batch (k : Nat) : batch logWorld k = logWriter k := by
  rw [batch, log_startIndex, log_writer]

theorem bootAt_logWorld {b : Nat} (within : b ≤ cycles) : bootAt logWorld b = logBoot b := by
  rcases within.lt_or_eq with before | rfl
  · exact bootAt_of_lt before
  · exact bootAt_last

theorem logWorld_logged : Logged logWorld logState fun k =>
    ⟨insert (logRecord k) (logState k).synced, insert (logRecord k) ∅,
      insert (logRecord k) (logState k).acked⟩ where
  first := subset_rfl
  serves k _ := AckLog.steps_answered _ _
  recovers k _ := by
    have killed := AckLog.Step.crash ⟨insert (logRecord k) (logState k).synced,
      insert (logRecord k) ∅, insert (logRecord k) (logState k).acked⟩ (Set.empty_subset _)
    rw [Set.union_empty] at killed
    have next : logState (k + 1) =
        ⟨insert (logRecord k) (logState k).synced, ∅, insert (logRecord k) (logState k).acked⟩ := by
      simp only [logState, logRecords_succ]
    rw [next]
    exact .single killed
  answers k _ req sent id given := by
    have taken : (if req.text = (logRecord k).2 then Except.ok (logRecord k).1
      else .error "connection reset") = .ok id := given
    split at taken
    next same => exact .inl (by rw [same, ← Except.ok.inj taken])
    next => cases taken
  lists b later within := by
    rw [bootAt_logWorld within]
    obtain ⟨e, walked, visited⟩ := exists_walk_of_final_page logWorld.marker
      ((List.range b).map fun k => ⟨(logRecord k).1, (logRecord k).2, 0⟩) []
    refine ⟨e, walked, ?_⟩
    rintro record ⟨j, before, rfl⟩
    rw [visited]
    exact List.mem_map_of_mem (List.mem_range.mpr before)

end Witness

end Verdict

theorem chaos_texts_distinct (w : World) (n : Nat) :
    (((List.range n).flatMap fun k => (batch w k).sent).map (·.text)).Nodup ∧
      ((ackedBefore w n).map Prod.snd).Nodup ∧
      ∀ k, ∀ write ∈ (batch w k).acked, ∃ req ∈ (batch w k).sent,
        (w.cycle k).encode req = .ok write.1 ∧ req.text = write.2 ++ ": chaos durable fact" := by
  refine ⟨?_, ?_, fun k write member => acked_sent w member⟩
  · simp only [List.map_flatMap, sent_texts]
    exact Numbered.nodup_batches request_text_injective (sent_apart w) n
  · simp only [ackedBefore, List.map_flatMap, acked_cues]
    refine Numbered.nodup_batches cue_injective (fun k => ?_) n
    exact (Nat.add_le_add_left (batch_sends w k).least _).trans (sent_apart w k)

end BrainEval.Chaos
