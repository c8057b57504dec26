import Mathlib
import BrainEval.Blackbox.Percentile
import BrainEval.Blackbox.Soak
import BrainEval.SpaceManifest

set_option autoImplicit false

namespace BrainEval.Soak

open Scale

-- Times are readings of the run's clock.
structure SoakConfig where
  duration : Nat
  sampleEvery : Nat
  batch : Nat
  topK : Nat
  recallFloor : ℚ
  hasMetricsEndpoint : Bool
  maxRssGrowth : ℚ
  maxLatencyDrift : ℚ

/-- What one pass of the loop meets. An operation that succeeds gives its milliseconds; what stands
after `now` is met only where a sample is due. -/
structure Turn where
  elapsed : Nat
  encode : Nat → String → Except String ℚ
  recallNote : Nat → ProbeRecall → Except String ℚ
  now : Nat
  probeEncode : Nat → String → Except String Unit
  probeRecall : Nat → ProbeRecall → Except String RecallAnswer
  scraped : Option Nat
  elapsedS : Nat
  sampledAt : Nat

structure State where
  nextSample : Nat
  samples : List SoakSample
  encodes : Nat
  recalls : Nat
  errors : Nat
  seq : Nat
  windowMs : List ℚ

def itemCue (salt : String) (seq : Nat) : String := "soak " ++ salt ++ " item " ++ toString seq

def itemText (salt : String) (seq : Nat) : String :=
  itemCue salt seq ++ ": steady-state workload note"

def State.encoded (s : State) : Except String ℚ → State
  | .ok ms => { s with encodes := s.encodes + 1, windowMs := s.windowMs ++ [ms] }
  | .error _ => { s with errors := s.errors + 1 }

def State.recalled (s : State) : Except String ℚ → State
  | .ok ms => { s with recalls := s.recalls + 1, windowMs := s.windowMs ++ [ms] }
  | .error _ => { s with errors := s.errors + 1 }

section Loop

variable (cfg : SoakConfig) (salt : String)

def work (t : Turn) (s : State) (j : Nat) : State :=
  let text := itemText salt s.seq
  let s := { s with seq := s.seq + 1 }
  let s := s.encoded (t.encode j text)
  s.recalled (t.recallNote j ⟨itemCue salt (s.seq - 1), cfg.topK, false⟩)

-- No result where the percentile panics.
def sample (t : Turn) (s : State) : Option State :=
  let recallAt1 := driftProbe t.probeEncode t.probeRecall salt cfg.topK
  (percentile s.windowMs (99 / 100)).map fun (p99Ms, _) =>
    { s with
      windowMs := []
      samples := s.samples ++ [
        { elapsedS := t.elapsedS
          cumulativeEncodes := s.encodes
          cumulativeRecalls := s.recalls
          cumulativeErrors := s.errors
          recallAt1 := recallAt1
          p99Ms := p99Ms
          rssBytes := if cfg.hasMetricsEndpoint then t.scraped else none }]
      nextSample := t.sampledAt + cfg.sampleEvery }

def pass (t : Turn) (s : State) : Option State :=
  let s := (List.range cfg.batch).foldl (work cfg salt t) s
  if s.nextSample ≤ t.now then sample cfg salt t s else some s

-- The loop over the passes that the run meets; `none` where they do not reach its end.
def soakLoop : List Turn → State → Option State
  | [], _ => none
  | t :: turns, s =>
    if t.elapsed < cfg.duration then (pass cfg salt t s).bind (soakLoop turns) else some s

def runSoak (connected : Except String WireUuid) (start : Nat) (turns : List Turn) :
    Option (Except String SoakReport) :=
  match connected with
  | .error e => some (.error e)
  | .ok spaceId =>
    (soakLoop cfg (SpaceManifest.hex16 spaceId) turns ⟨start + cfg.sampleEvery, [], 0, 0, 0, 0, []⟩).map fun s =>
      .ok
        { samples := s.samples
          totalEncodes := s.encodes
          totalRecalls := s.recalls
          totalErrors := s.errors
          recallFloor := cfg.recallFloor
          maxRssGrowth := cfg.maxRssGrowth
          maxLatencyDrift := cfg.maxLatencyDrift }

end Loop

structure Op where
  isEncode : Bool
  result : Except String ℚ

def encodesIn (ops : List Op) : Nat := ops.countP fun op => op.isEncode && op.result.isOk

def recallsIn (ops : List Op) : Nat := ops.countP fun op => !op.isEncode && op.result.isOk

def errorsIn (ops : List Op) : Nat := ops.countP fun op => !op.result.isOk

def latencies (ops : List Op) : List ℚ := ops.filterMap (·.result.toOption)

section Accounts

variable (cfg : SoakConfig) (salt : String)

-- The operations of one pass, where its texts are numbered from an index.
def opsOf (t : Turn) (first : Nat) : List Op :=
  (List.range cfg.batch).flatMap fun j =>
    [⟨true, t.encode j (itemText salt (first + j))⟩,
      ⟨false, t.recallNote j ⟨itemCue salt (first + j), cfg.topK, false⟩⟩]

def opsFrom : List Turn → Nat → List Op
  | [], _ => []
  | t :: turns, first => opsOf cfg salt t first ++ opsFrom turns (first + cfg.batch)

def SoakSample.counted (s : SoakSample) : (Nat × Nat × Nat) × Option ℚ :=
  ((s.cumulativeEncodes, s.cumulativeRecalls, s.cumulativeErrors), some s.p99Ms)

/-- What there is to say after a window, where each window ends with a sample: the counts are of all
operations so far, the percentile is of the window's own. -/
def countedAt (windows : List (List Op)) (k : Nat) : (Nat × Nat × Nat) × Option ℚ :=
  let ops := (windows.take (k + 1)).flatten
  ((encodesIn ops, recallsIn ops, errorsIn ops),
    (percentile (latencies (windows.getD k [])) (99 / 100)).map Prod.fst)

structure Accounts (windows : List (List Op)) (rest : List Op) (s : State) : Prop where
  encodes : s.encodes = encodesIn (windows.flatten ++ rest)
  recalls : s.recalls = recallsIn (windows.flatten ++ rest)
  errors : s.errors = errorsIn (windows.flatten ++ rest)
  window : s.windowMs = latencies rest
  samples : s.samples.map SoakSample.counted = (List.range windows.length).map (countedAt windows)

variable {windows : List (List Op)} {rest : List Op} {s : State}

theorem Accounts.encoded (accounts : Accounts windows rest s) (result : Except String ℚ) :
    Accounts windows (rest ++ [⟨true, result⟩]) (s.encoded result) := by
  obtain ⟨encodes, recalls, errors, window, samples⟩ := accounts
  cases result <;>
    exact ⟨by simp [State.encoded, encodes, encodesIn, Except.isOk, Except.toBool, Nat.add_assoc],
      by simp [State.encoded, recalls, recallsIn, Except.isOk, Except.toBool],
      by simp [State.encoded, errors, errorsIn, Except.isOk, Except.toBool, Nat.add_assoc],
      by simp [State.encoded, window, latencies, Except.toOption], samples⟩

theorem Accounts.recalled (accounts : Accounts windows rest s) (result : Except String ℚ) :
    Accounts windows (rest ++ [⟨false, result⟩]) (s.recalled result) := by
  obtain ⟨encodes, recalls, errors, window, samples⟩ := accounts
  cases result <;>
    exact ⟨by simp [State.recalled, encodes, encodesIn, Except.isOk, Except.toBool],
      by simp [State.recalled, recalls, recallsIn, Except.isOk, Except.toBool, Nat.add_assoc],
      by simp [State.recalled, errors, errorsIn, Except.isOk, Except.toBool, Nat.add_assoc],
      by simp [State.recalled, window, latencies, Except.toOption], samples⟩

@[simp] theorem seq_encoded (s : State) (result : Except String ℚ) :
    (s.encoded result).seq = s.seq := by cases result <;> rfl

@[simp] theorem seq_recalled (s : State) (result : Except String ℚ) :
    (s.recalled result).seq = s.seq := by cases result <;> rfl

-- One round after another of a batch, whose first text has the number `first`.
theorem Accounts.rounds (t : Turn) (first n : Nat) (accounts : Accounts windows rest s)
    (numbered : s.seq = first) :
    Accounts windows
        (rest ++ (List.range n).flatMap fun j =>
          [⟨true, t.encode j (itemText salt (first + j))⟩,
            ⟨false, t.recallNote j ⟨itemCue salt (first + j), cfg.topK, false⟩⟩])
        ((List.range n).foldl (work cfg salt t) s) ∧
      ((List.range n).foldl (work cfg salt t) s).seq = first + n := by
  induction n with
  | zero => simpa using ⟨accounts, numbered⟩
  | succ n ih =>
    obtain ⟨before, seq⟩ := ih
    rw [List.range_succ, List.foldl_append, List.flatMap_append, List.foldl_cons, List.foldl_nil]
    generalize (List.range n).foldl (work cfg salt t) s = mid at before seq
    have told : work cfg salt t mid n =
        (({ mid with seq := mid.seq + 1 } : State).encoded
          (t.encode n (itemText salt (first + n)))).recalled
            (t.recallNote n ⟨itemCue salt (first + n), cfg.topK, false⟩) := by
      simp [work, seq]
    have next : Accounts windows _ ({ mid with seq := mid.seq + 1 } : State) :=
      ⟨before.encodes, before.recalls, before.errors, before.window, before.samples⟩
    rw [told]
    refine ⟨?_, by simp [seq, Nat.add_assoc]⟩
    have both := (next.encoded (t.encode n (itemText salt (first + n)))).recalled
      (t.recallNote n ⟨itemCue salt (first + n), cfg.topK, false⟩)
    simpa [List.append_assoc] using both

variable {cfg salt}

theorem countedAt_of_lt {k : Nat} (inside : k < windows.length) (w : List Op) :
    countedAt (windows ++ [w]) k = countedAt windows k := by
  rw [countedAt, countedAt, List.take_append_of_le_length (Nat.succ_le_of_lt inside)]
  simp [List.getElem?_append_left inside]

theorem countedAt_last (w : List Op) : countedAt (windows ++ [w]) windows.length =
    ((encodesIn (windows.flatten ++ w), recallsIn (windows.flatten ++ w),
        errorsIn (windows.flatten ++ w)),
      (percentile (latencies w) (99 / 100)).map Prod.fst) := by
  rw [countedAt, List.take_of_length_le (by simp)]
  simp

theorem Accounts.sampled {t : Turn} {s' : State} (accounts : Accounts windows rest s)
    (taken : sample cfg salt t s = some s') :
    Accounts (windows ++ [rest]) [] s' ∧ s'.seq = s.seq := by
  obtain ⟨⟨p99Ms, sorted⟩, found, rfl⟩ := Option.map_eq_some_iff.mp taken
  have whole : (windows ++ [rest]).flatten ++ [] = windows.flatten ++ rest := by simp
  refine ⟨⟨?_, ?_, ?_, rfl, ?_⟩, rfl⟩
  · rw [whole]
    exact accounts.encodes
  · rw [whole]
    exact accounts.recalls
  · rw [whole]
    exact accounts.errors
  · rw [List.length_append, List.length_singleton, List.range_succ, List.map_append,
      List.map_append, accounts.samples]
    congr 1
    · refine List.map_congr_left fun k inside => ?_
      rw [countedAt_of_lt (List.mem_range.mp inside)]
    · rw [List.map_singleton, List.map_singleton, countedAt_last, ← accounts.encodes,
        ← accounts.recalls, ← accounts.errors, ← accounts.window, found]
      rfl

theorem Accounts.passed {t : Turn} {s' : State} (accounts : Accounts windows rest s)
    (done : pass cfg salt t s = some s') :
    ∃ windows' rest', windows'.flatten ++ rest' = windows.flatten ++ rest ++ opsOf cfg salt t s.seq ∧
      Accounts windows' rest' s' ∧ s'.seq = s.seq + cfg.batch := by
  obtain ⟨worked, seq⟩ := accounts.rounds cfg salt t s.seq cfg.batch rfl
  rw [pass] at done
  split at done
  next =>
    obtain ⟨sampled, same⟩ := worked.sampled done
    exact ⟨windows ++ [rest ++ opsOf cfg salt t s.seq], [], by simp, sampled, by rw [same, seq]⟩
  next =>
    obtain rfl := Option.some.inj done
    exact ⟨windows, rest ++ opsOf cfg salt t s.seq, by simp, worked, seq⟩

-- The passes that the run makes: those that begin before its time is up.
def passes (cfg : SoakConfig) (turns : List Turn) : List Turn :=
  turns.takeWhile fun t => t.elapsed < cfg.duration

theorem passes_cons_of_going {t : Turn} (going : t.elapsed < cfg.duration) (turns : List Turn) :
    passes cfg (t :: turns) = t :: passes cfg turns :=
  List.takeWhile_cons_of_pos (decide_eq_true going)

theorem passes_cons_of_up {t : Turn} (up : ¬ t.elapsed < cfg.duration) (turns : List Turn) :
    passes cfg (t :: turns) = [] :=
  List.takeWhile_cons_of_neg (by simpa using up)

theorem Accounts.looped {turns : List Turn} {s' : State} (accounts : Accounts windows rest s)
    (done : soakLoop cfg salt turns s = some s') :
    ∃ windows' rest', windows'.flatten ++ rest' =
        windows.flatten ++ rest ++ opsFrom cfg salt (passes cfg turns) s.seq ∧
      Accounts windows' rest' s' := by
  induction turns generalizing s windows rest with
  | nil => simp [soakLoop] at done
  | cons t turns ih =>
    rw [soakLoop] at done
    split at done
    next going =>
      obtain ⟨mid, one, others⟩ := Option.bind_eq_some_iff.mp done
      obtain ⟨windows₁, rest₁, whole, told, seq⟩ := accounts.passed one
      obtain ⟨windows₂, rest₂, all, last⟩ := ih told others
      refine ⟨windows₂, rest₂, ?_, last⟩
      rw [all, whole, seq, passes_cons_of_going going, opsFrom,
        List.append_assoc _ (opsOf cfg salt t s.seq)]
    next up =>
      obtain rfl := Option.some.inj done
      exact ⟨windows, rest, by rw [passes_cons_of_up up, opsFrom, List.append_nil], accounts⟩

theorem exists_pass (t : Turn) (s : State) : ∃ s', pass cfg salt t s = some s' := by
  rw [← Option.isSome_iff_exists, pass]
  split
  next =>
    rw [sample, Option.isSome_map]
    exact isSome_nearestRankPercentile _ _
  next => rfl

theorem isSome_soakLoop_iff {turns : List Turn} {s : State} :
    (soakLoop cfg salt turns s).isSome = true ↔ ∃ t ∈ turns, cfg.duration ≤ t.elapsed := by
  induction turns generalizing s with
  | nil => simp [soakLoop]
  | cons t turns ih =>
    rw [soakLoop, List.exists_mem_cons_iff, ← not_lt]
    by_cases going : t.elapsed < cfg.duration
    next =>
      obtain ⟨s', done⟩ : ∃ s', pass cfg salt t s = some s' := exists_pass t s
      rw [if_pos going, done, Option.bind_some, ih]
      simp [going]
    next => simp [going]

theorem length_opsOf (t : Turn) (first : Nat) :
    (opsOf cfg salt t first).length = 2 * cfg.batch := by
  simp [opsOf, List.length_flatMap, Nat.mul_comm]

theorem length_opsFrom (turns : List Turn) (first : Nat) :
    (opsFrom cfg salt turns first).length = 2 * cfg.batch * turns.length := by
  induction turns generalizing first with
  | nil => rfl
  | cons t turns ih => simp [opsFrom, length_opsOf, ih, Nat.mul_succ, Nat.add_comm]

theorem Accounts.start (nextSample : Nat) : Accounts [] [] ⟨nextSample, [], 0, 0, 0, 0, []⟩ :=
  ⟨rfl, rfl, rfl, rfl, rfl⟩

theorem counts_add (ops : List Op) :
    encodesIn ops + recallsIn ops + errorsIn ops = ops.length := by
  induction ops with
  | nil => rfl
  | cons op ops ih =>
    rcases op with ⟨_ | _, _ | _⟩ <;>
      simp [encodesIn, recallsIn, errorsIn, Except.isOk, Except.toBool] at ih ⊢ <;> omega

end Accounts

section Run

variable {cfg : SoakConfig} {spaceId : WireUuid} {start : Nat} {turns : List Turn}
  {report : SoakReport}

def workload (cfg : SoakConfig) (spaceId : WireUuid) (turns : List Turn) : List Op :=
  opsFrom cfg (SpaceManifest.hex16 spaceId) (passes cfg turns) 0

theorem accounts_of_run (ended : runSoak cfg (.ok spaceId) start turns = some (.ok report)) :
    ∃ windows rest, windows.flatten ++ rest = workload cfg spaceId turns ∧
      report.totalEncodes = encodesIn (workload cfg spaceId turns) ∧
      report.totalRecalls = recallsIn (workload cfg spaceId turns) ∧
      report.totalErrors = errorsIn (workload cfg spaceId turns) ∧
      report.samples.map SoakSample.counted =
        (List.range windows.length).map (countedAt windows) := by
  obtain ⟨s, looped, told⟩ := Option.map_eq_some_iff.mp ended
  obtain rfl := Except.ok.inj told
  obtain ⟨windows, rest, whole, accounts⟩ := (Accounts.start _).looped looped
  rw [List.flatten_nil, List.nil_append, List.nil_append] at whole
  have encodes := accounts.encodes
  have recalls := accounts.recalls
  have errors := accounts.errors
  rw [whole] at encodes recalls errors
  exact ⟨windows, rest, whole, encodes, recalls, errors, accounts.samples⟩

/-- A run ends once its time is up. Its report cuts the operations that it made, in order, into one
window for each sample and a rest: the sample's counts are those of all operations up to it, its
percentile is that of the operations of its own window alone, and the totals account for every
operation of every pass once. -/
theorem run_soak_accounts (cfg : SoakConfig) (spaceId : WireUuid) (start : Nat)
    (turns : List Turn) :
    ((∃ report, runSoak cfg (.ok spaceId) start turns = some (.ok report)) ↔
      ∃ t ∈ turns, cfg.duration ≤ t.elapsed) ∧
    ∀ report, runSoak cfg (.ok spaceId) start turns = some (.ok report) →
      report.totalEncodes + report.totalRecalls + report.totalErrors =
          2 * cfg.batch * (passes cfg turns).length ∧
        ∃ windows rest, windows.flatten ++ rest = workload cfg spaceId turns ∧
          report.totalEncodes = encodesIn (workload cfg spaceId turns) ∧
          report.totalRecalls = recallsIn (workload cfg spaceId turns) ∧
          report.totalErrors = errorsIn (workload cfg spaceId turns) ∧
          report.samples.map SoakSample.counted =
            (List.range windows.length).map (countedAt windows) := by
  constructor
  · rw [← isSome_soakLoop_iff, Option.isSome_iff_exists, runSoak]
    constructor
    · rintro ⟨report, ended⟩
      obtain ⟨s, looped, -⟩ := Option.map_eq_some_iff.mp ended
      exact ⟨s, looped⟩
    · rintro ⟨s, looped⟩
      exact ⟨_, Option.map_eq_some_iff.mpr ⟨s, looped, rfl⟩⟩
  · intro report ended
    obtain ⟨windows, rest, whole, encodes, recalls, errors, samples⟩ := accounts_of_run ended
    refine ⟨?_, windows, rest, whole, encodes, recalls, errors, samples⟩
    rw [encodes, recalls, errors, counts_add, workload, length_opsFrom]

end Run

end BrainEval.Soak
