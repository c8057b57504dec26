import Mathlib
import BrainEval.Lib.Replace
import BrainEval.Blackbox.Scenario
import BrainEval.Datasets.Locomo
import BrainEval.SpaceManifest
import BrainEval.Client.Harness

set_option autoImplicit false

namespace BrainEval.Rebuild

open Early Scenario RustStr Locomo

structure AdminResponse where
  status : Nat
  body : String

-- `Value::get` with a field name.
def field (v : Value) (name : String) : Option Value :=
  match v with
  | .object fields => fields.lookup name
  | _ => none

-- `Value::as_u64`. The literal of an integer has digits only.
def asU64 : Value → Option Nat
  | .number literal =>
    (fromStrRadix 10 (2 ^ 64 - 1) literal.toList).filter fun _ => literal.toList.all Char.isDigit
  | _ => none

def asStr : Value → Option String
  | .string s => some s
  | _ => none

def name : String := "index_rebuild"

def indexTargets : List String :=
  ["memory_hnsw", "entity_hnsw", "hype_hnsw", "statement_question_hnsw"]

def snippet (s : String) : String := String.ofList (s.toList.take 200)

/-- What the scenario meets: the parser and the debug format of a text, the server, and the answers
to the posts. No path is posted twice, so that an answer is told by its path. -/
structure World where
  parse : String → Except String Value
  debug : String → String
  hasSecret : Bool
  connected : Except String WireUuid
  encode : String → Except String Unit
  recallBefore : Except String (List MemoryResult)
  post : String → Except String AdminResponse
  recallAfter : Except String (List MemoryResult)
  closed : Except String Unit

variable (w : World)

def checkReport (body : String) (expectIndex : Option String) : Except String Unit :=
  match w.parse body with
  | .error e => .error ("not JSON: " ++ e ++ "; body=" ++ snippet body)
  | .ok v =>
    if ((field v "entries").bind asU64).isNone then
      .error ("missing numeric \"entries\"; body=" ++ snippet body)
    else if ((field v "elapsed_ms").bind asU64).isNone then
      .error ("missing numeric \"elapsed_ms\"; body=" ++ snippet body)
    else
      match expectIndex with
      | none => .ok ()
      | some idx =>
        let got := (field v "index").bind asStr
        if got = some idx then .ok ()
        else .error ("index field " ++ debugOption w.debug got ++ " != requested " ++ w.debug idx)

def shardPath (path : String) (shard : Nat) : String :=
  path ++ (if contains path "?" then "&" else "?") ++ "shard=" ++ toString shard

-- Nothing where the shard is out of range.
def rebuildShard (path : String) (shard : Nat) : Except String (Option AdminResponse) :=
  (w.post (shardPath path shard)).map fun resp => if resp.status = 404 then none else some resp

def close : Run String Unit := labelled "harness: " w.closed

-- One post of the walk, or of the loop over the targets, that found its shard.
def accepted (resp : AdminResponse) (expectIndex : Option String) (posted reported : String) :
    Run String Unit := do
  requireOpen (close w) (resp.status = 201)
    ("POST " ++ posted ++ " returned " ++ toString resp.status ++ " — " ++ snippet resp.body)
  match checkReport w resp.body expectIndex with
  | .ok _ => return ()
  | .error e => requireOpen (close w) False (reported ++ " report unsane: " ++ e)

-- The walk over the shards, until one is out of range; no result where it goes on past `fuel`.
def shardWalk : Nat → Nat → Run String Nat
  | 0, _ => ExceptT.mk none
  | fuel + 1, shardCount => do
    match ← labelled "admin: " (rebuildShard w "/v1/rebuild-ann" shardCount) with
    | none => return shardCount
    | some resp =>
      accepted w resp none ("/v1/rebuild-ann?shard=" ++ toString shardCount)
        ("rebuild-ann shard " ++ toString shardCount)
      shardWalk fuel (shardCount + 1)

def rebuildTarget (item : String × Nat) : Run String Unit := do
  let (target, shard) := item
  let path := "/v1/rebuild?index=" ++ target
  match ← labelled "admin: " (rebuildShard w path shard) with
  | none =>
    requireOpen (close w) False (path ++ "&shard=" ++ toString shard ++ " 404 — shard vanished")
  | some resp =>
    accepted w resp (some target) (path ++ "&shard=" ++ toString shard)
      (path ++ "&shard=" ++ toString shard)

def targetShards (shardCount : Nat) : List (String × Nat) :=
  indexTargets.flatMap fun target => (List.range shardCount).map fun shard => (target, shard)

def seeds (marker : String) : List String :=
  [marker ++ ": Marie Curie discovered polonium in Paris.",
    marker ++ ": the launch review is scheduled for next Tuesday.",
    marker ++ ": Acme Robotics acquired a lidar startup last year."]

def run (fuel : Nat) : Scenario ScenarioOutcome := do
  require (w.hasSecret = true) ("no admin secret configured (set BRAIN_EVAL_ADMIN_SECRET) — " ++
    "cannot POST /v1/rebuild")
  let spaceId ← labelled "harness: " w.connected
  let marker := "rebuild-marker-" ++ SpaceManifest.hex16 spaceId
  (seeds marker).forM fun s => labelled "sdk: " (w.encode s)
  let before ← labelled "harness: " w.recallBefore
  requireOpen (close w) (before ≠ [])
    "marker not recallable before rebuild — cannot attribute a post-rebuild miss"
  let shardCount ← shardWalk w fuel 0
  requireOpen (close w) (shardCount ≠ 0)
    "no shards accepted /v1/rebuild-ann?shard=0 (404) — server exposes no shard 0"
  let rebuilt ← countM (rebuildTarget w) (targetShards shardCount)
  let after ← labelled "harness: " w.recallAfter
  close w
  require (after ≠ []) "marker no longer recallable after rebuild — rebuild was not faithful"
  return .pass name ("§19/06 rebuild: rebuilt-ann on " ++ toString shardCount ++ " shard(s) + " ++
    toString rebuilt ++ " index-rebuild(s) across " ++ toString indexTargets.length ++
    " targets, all 201 with sane reports; recall still answers after rebuild")

def indexRebuild (fuel : Nat) : Option ScenarioOutcome := outcome name (run w fuel)

def SaneReport (body : String) (expectIndex : Option String) : Prop :=
  ∃ v, w.parse body = .ok v ∧
    ((field v "entries").bind asU64).isSome = true ∧
    ((field v "elapsed_ms").bind asU64).isSome = true ∧
    ∀ idx, expectIndex = some idx → field v "index" = some (.string idx)

/-- The server rebuilds the index of the path on the shard, and says so. -/
def Rebuilt (path : String) (shard : Nat) (expectIndex : Option String) : Prop :=
  ∃ resp, w.post (shardPath path shard) = .ok resp ∧ resp.status = 201 ∧
    SaneReport w resp.body expectIndex

def OutOfRange (path : String) (shard : Nat) : Prop :=
  ∃ resp, w.post (shardPath path shard) = .ok resp ∧ resp.status = 404

variable {w}

theorem asStr_eq_some_iff {v : Value} {s : String} : asStr v = some s ↔ v = .string s := by
  cases v <;> simp [asStr]

theorem checkReport_ok_iff {body : String} {expectIndex : Option String} :
    checkReport w body expectIndex = .ok () ↔ SaneReport w body expectIndex := by
  rw [checkReport, SaneReport]
  cases w.parse body with
  | error e => simp
  | ok v =>
    simp only [Except.ok.injEq, exists_eq_left']
    generalize (field v "entries").bind asU64 = entries
    generalize (field v "elapsed_ms").bind asU64 = elapsed
    cases entries with
    | none => simp
    | some entries =>
      cases elapsed with
      | none => simp
      | some elapsed =>
        cases expectIndex with
        | none => simp
        | some idx => simp [Option.bind_eq_some_iff, asStr_eq_some_iff]

theorem yields_accepted_iff {resp : AdminResponse} {expectIndex : Option String}
    {posted reported : String} :
    Yields (accepted w resp expectIndex posted reported) () ↔
      resp.status = 201 ∧ SaneReport w resp.body expectIndex := by
  rw [accepted, yields_bind_iff, ← checkReport_ok_iff]
  simp only [yields_requireOpen_iff]
  cases checkReport w resp.body expectIndex <;> simp [yields_requireOpen_iff, yields_pure_iff]

theorem rebuildShard_none_iff {path : String} {shard : Nat} :
    rebuildShard w path shard = .ok none ↔ OutOfRange w path shard := by
  rw [rebuildShard, OutOfRange]
  cases w.post (shardPath path shard) <;> simp [Except.map]

theorem rebuildShard_some_iff {path : String} {shard : Nat} {resp : AdminResponse} :
    rebuildShard w path shard = .ok (some resp) ↔
      w.post (shardPath path shard) = .ok resp ∧ resp.status ≠ 404 := by
  rw [rebuildShard]
  cases w.post (shardPath path shard) with
  | error e => simp [Except.map]
  | ok resp' =>
    simp only [Except.map, Except.ok.injEq, Option.ite_none_left_eq_some, Option.some.injEq]
    constructor
    · rintro ⟨found, rfl⟩
      exact ⟨rfl, found⟩
    · rintro ⟨rfl, found⟩
      exact ⟨found, rfl⟩

-- What a found shard answers decides.
theorem rebuilt_iff {path : String} {shard : Nat} {expectIndex : Option String} :
    Rebuilt w path shard expectIndex ↔ ∃ resp, rebuildShard w path shard = .ok (some resp) ∧
      resp.status = 201 ∧ SaneReport w resp.body expectIndex := by
  simp only [Rebuilt, rebuildShard_some_iff, and_assoc]
  refine exists_congr fun resp => and_congr_right fun _ => ?_
  constructor
  · rintro ⟨made, sane⟩
    exact ⟨by omega, made, sane⟩
  · rintro ⟨-, made, sane⟩
    exact ⟨made, sane⟩

theorem yields_rebuildTarget_iff {target : String} {shard : Nat} :
    Yields (rebuildTarget w (target, shard)) () ↔
      Rebuilt w ("/v1/rebuild?index=" ++ target) shard (some target) := by
  rw [rebuilt_iff]
  simp only [rebuildTarget, yields_bind_iff, yields_labelled_iff]
  constructor
  · rintro ⟨_ | resp, answered, taken⟩
    · exact (yields_requireOpen_iff.mp taken).elim
    · exact ⟨resp, answered, yields_accepted_iff.mp taken⟩
  · rintro ⟨resp, answered, taken⟩
    exact ⟨some resp, answered, yields_accepted_iff.mpr taken⟩

-- The walk stops at the first shard that is out of range.
theorem yields_shardWalk_iff {fuel first n : Nat} :
    Yields (shardWalk w fuel first) n ↔ first ≤ n ∧ n < first + fuel ∧
      (∀ shard, first ≤ shard → shard < n → Rebuilt w "/v1/rebuild-ann" shard none) ∧
        OutOfRange w "/v1/rebuild-ann" n := by
  induction fuel generalizing first with
  | zero =>
    have never : ¬ Yields (shardWalk w 0 first) n := by simp [shardWalk, Yields]
    constructor
    · exact fun yields => (never yields).elim
    · rintro ⟨from_first, inside, -⟩
      omega
  | succ fuel ih =>
    simp only [shardWalk, yields_bind_iff, yields_labelled_iff]
    constructor
    · rintro ⟨_ | resp, answered, taken⟩
      · obtain rfl := yields_pure_iff.mp taken
        exact ⟨le_rfl, by omega, fun shard from_first inside => by omega,
          rebuildShard_none_iff.mp answered⟩
      · obtain ⟨⟨⟩, here, later⟩ := yields_bind_iff.mp taken
        obtain ⟨from_next, inside, each, last⟩ := ih.mp later
        refine ⟨by omega, by omega, fun shard from_first before => ?_, last⟩
        rcases from_first.eq_or_lt with rfl | after
        · exact rebuilt_iff.mpr ⟨resp, answered, yields_accepted_iff.mp here⟩
        · exact each shard after before
    · rintro ⟨from_first, inside, each, last⟩
      rcases from_first.eq_or_lt with rfl | after
      · exact ⟨none, rebuildShard_none_iff.mpr last, yields_pure_iff.mpr rfl⟩
      · obtain ⟨resp, answered, here⟩ := rebuilt_iff.mp (each first le_rfl after)
        refine ⟨some resp, answered, yields_bind_iff.mpr ⟨(), yields_accepted_iff.mpr here, ?_⟩⟩
        exact ih.mpr ⟨after, by omega, fun shard from_next => each shard (by omega), last⟩

theorem yields_targets_iff {n : Nat} :
    (∀ item ∈ targetShards n, Yields (rebuildTarget w item) ()) ↔
      ∀ target ∈ indexTargets, ∀ shard < n,
        Rebuilt w ("/v1/rebuild?index=" ++ target) shard (some target) := by
  constructor
  · intro each target listed shard inside
    exact yields_rebuildTarget_iff.mp (each (target, shard) (List.mem_flatMap.mpr
      ⟨target, listed, List.mem_map_of_mem (List.mem_range.mpr inside)⟩))
  · intro each item member
    obtain ⟨target, listed, member⟩ := List.mem_flatMap.mp member
    obtain ⟨shard, inside, rfl⟩ := List.mem_map.mp member
    exact yields_rebuildTarget_iff.mpr (each target listed shard (List.mem_range.mp inside))

theorem shardPath_alias (shard : Nat) :
    (shardPath "/v1/rebuild-ann" shard).toList =
      "/v1/rebuild-ann?shard=".toList ++ (toString shard).toList := by
  have plain : contains "/v1/rebuild-ann" "?" = false := by decide
  simp [shardPath, plain]

theorem shardPath_target {target : String} (listed : target ∈ indexTargets) (shard : Nat) :
    (shardPath ("/v1/rebuild?index=" ++ target) shard).toList =
      "/v1/rebuild?index=".toList ++ target.toList ++ '&' :: "shard=".toList ++
        (toString shard).toList := by
  have query : ∀ t ∈ indexTargets, contains ("/v1/rebuild?index=" ++ t) "?" = true := by decide
  simp [shardPath, query target listed]

theorem toString_inj {i j : Nat} (same : (toString i).toList = (toString j).toList) : i = j :=
  Nat.repr_inj.mp (String.toList_injective same)

theorem shardPath_target_inj {target target' : String} (listed : target ∈ indexTargets)
    (listed' : target' ∈ indexTargets) {shard shard' : Nat}
    (same : shardPath ("/v1/rebuild?index=" ++ target) shard =
      shardPath ("/v1/rebuild?index=" ++ target') shard') : target = target' ∧ shard = shard' := by
  have free : ∀ t ∈ indexTargets, '&' ∉ t.toList := by decide
  have texts := congrArg String.toList same
  rw [shardPath_target listed, shardPath_target listed', List.append_assoc, List.append_assoc,
    List.append_assoc, List.append_assoc] at texts
  obtain ⟨targets, rest⟩ := Replace.append_cons_inj_of_not_mem (free target listed)
    (free target' listed') (List.append_cancel_left texts)
  exact ⟨String.toList_injective targets, toString_inj (List.append_cancel_left rest)⟩

theorem shardPath_alias_inj {shard shard' : Nat}
    (same : shardPath "/v1/rebuild-ann" shard = shardPath "/v1/rebuild-ann" shard') :
    shard = shard' := by
  have texts := congrArg String.toList same
  rw [shardPath_alias, shardPath_alias] at texts
  exact toString_inj (List.append_cancel_left texts)

theorem shardPath_apart {target : String} (listed : target ∈ indexTargets) (shard shard' : Nat) :
    shardPath "/v1/rebuild-ann" shard ≠ shardPath ("/v1/rebuild?index=" ++ target) shard' := by
  intro same
  have texts := congrArg (fun s => s.toList[11]?) same
  simp only [shardPath_alias, shardPath_target listed, List.append_assoc] at texts
  exact absurd texts (by simp)

theorem nodup_targetShards (n : Nat) : (targetShards n).Nodup := by
  have targets : indexTargets.Nodup := by decide
  rw [targetShards, List.nodup_flatMap]
  refine ⟨fun target _ => List.nodup_range.map fun _ _ same => (Prod.mk.inj same).2,
    targets.imp fun apart => ?_⟩
  intro item left right
  obtain ⟨_, -, rfl⟩ := List.mem_map.mp left
  obtain ⟨_, -, same⟩ := List.mem_map.mp right
  exact apart (Prod.mk.inj same).1.symm

theorem posts_nodup (n : Nat) :
    ((List.range (n + 1)).map (shardPath "/v1/rebuild-ann") ++ (targetShards n).map fun item =>
      shardPath ("/v1/rebuild?index=" ++ item.1) item.2).Nodup := by
  have listed {item : String × Nat} (member : item ∈ targetShards n) : item.1 ∈ indexTargets := by
    obtain ⟨target, listed, member⟩ := List.mem_flatMap.mp member
    obtain ⟨_, -, rfl⟩ := List.mem_map.mp member
    exact listed
  refine List.Nodup.append (List.nodup_range.map fun _ _ => shardPath_alias_inj) ?_ ?_
  · refine (nodup_targetShards n).map_on fun item member item' member' same => ?_
    obtain ⟨targets, shards⟩ := shardPath_target_inj (listed member) (listed member') same
    exact Prod.ext targets shards
  · intro path left right
    obtain ⟨shard, -, rfl⟩ := List.mem_map.mp left
    obtain ⟨item, member, same⟩ := List.mem_map.mp right
    exact shardPath_apart (listed member) shard item.2 same.symm

theorem index_rebuild_passes_iff (w : World) (fuel : Nat) :
    Passes (indexRebuild w fuel) ↔ w.hasSecret = true ∧
      ∃ spaceId, w.connected = .ok spaceId ∧
      (∀ s ∈ seeds ("rebuild-marker-" ++ SpaceManifest.hex16 spaceId), w.encode s = .ok ()) ∧
      (∃ hits, w.recallBefore = .ok hits ∧ hits ≠ []) ∧
      (∃ n, 0 < n ∧ n < fuel ∧ OutOfRange w "/v1/rebuild-ann" n ∧
        (∀ shard < n, Rebuilt w "/v1/rebuild-ann" shard none) ∧
        ∀ target ∈ indexTargets, ∀ shard < n,
          Rebuilt w ("/v1/rebuild?index=" ++ target) shard (some target)) ∧
      (∃ hits, w.recallAfter = .ok hits ∧ hits ≠ []) ∧ w.closed = .ok () := by
  rw [indexRebuild, passes_outcome_iff]
  simp only [run, yields_bind_iff, yields_labelled_iff, yields_require_iff, yields_requireOpen_iff,
    yields_forM_iff, yields_countM_iff, yields_shardWalk_iff, yields_pure_iff, close]
  constructor
  · rintro ⟨-, ⟨-, secret, spaceId, connected, -, seeded, before, recalled, -, hits, n,
      ⟨-, inside, walked, last⟩, -, some_shard, -, ⟨targets, -⟩, after, again, ⟨⟩, closed, -,
      still, rfl⟩, -⟩
    refine ⟨secret, spaceId, connected, seeded, ⟨before, recalled, hits⟩, ⟨n, by omega, by omega,
      last, fun shard => walked shard (Nat.zero_le _), yields_targets_iff.mp targets⟩,
      ⟨after, again, still⟩, closed⟩
  · rintro ⟨secret, spaceId, connected, seeded, ⟨before, recalled, hits⟩, ⟨n, some_shard, inside,
      last, walked, targets⟩, ⟨after, again, still⟩, closed⟩
    refine ⟨_, ⟨(), secret, spaceId, connected, (), seeded, before, recalled, (), hits, n,
      ⟨Nat.zero_le _, by omega, fun shard _ => walked shard, last⟩, (), by omega, _,
      ⟨yields_targets_iff.mpr targets, rfl⟩, after, again, (), closed, (), still, rfl⟩, rfl⟩

end BrainEval.Rebuild
