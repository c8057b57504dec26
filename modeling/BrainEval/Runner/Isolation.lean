import Mathlib
import BrainEval.Runner.Manifest

set_option autoImplicit false

namespace BrainEval.Runner

open Harness
open Std (TreeMap)

/-- The mint that proves the admin plane answers before any conversation is planned; its token is
dropped. -/
structure Preflight where
  spaceId : WireUuid
  minted : Except String String

structure MintCall where
  spaceId : WireUuid
  result : Except String String

def MintCall.minted (call : MintCall) : Option WireUuid :=
  match call.result with
  | .ok _ => some call.spaceId
  | .error _ => none

-- What one `connect_with_token` presents.
structure Connection where
  convKey : String
  spaceId : WireUuid
  token : String

def preflightError (e : String) : String :=
  "preflight: cannot mint data-plane keys via the admin plane — " ++ e ++
    ". The docker-boot harness sets the admin secret automatically; for an " ++
    "external server set BRAIN_EVAL_ADMIN_SECRET (and BRAIN_EVAL_ADMIN_PORT " ++
    "if the admin listener is not on 9092)."

def mintOrCachedCalls (mint : WireUuid → Except String String) (tokens : TreeMap WireUuid String)
    (spaceId : WireUuid) : List MintCall :=
  match tokens[spaceId]? with
  | some _ => []
  | none => [⟨spaceId, mint spaceId⟩]

-- A miss asks for its own space alone; a hit asks for nothing.
theorem mintOrCached_congr {mint mint' : WireUuid → Except String String}
    {tokens : TreeMap WireUuid String} {spaceId : WireUuid}
    (agree : ∀ call ∈ mintOrCachedCalls mint tokens spaceId, mint' call.spaceId = call.result) :
    mintOrCached mint' tokens spaceId = mintOrCached mint tokens spaceId := by
  unfold mintOrCachedCalls at agree
  unfold mintOrCached
  cases held : tokens[spaceId]? with
  | some token => rfl
  | none =>
    have same : mint' spaceId = mint spaceId := agree ⟨spaceId, mint spaceId⟩ (by simp [held])
    simp only [same]

def Planned.connections (pl : Planned) : List Connection :=
  match pl.space with
  | none => []
  | some (spaceId, token) => [⟨pl.convKey, spaceId, token⟩]

def Prepared.connections (tokens : TreeMap WireUuid String) (pre : Prepared) : List Connection :=
  match tokens[pre.spaceId]? with
  | none => []
  | some token => [⟨pre.convKey, pre.spaceId, token⟩]

theorem Planned.mem_connections {pl : Planned} {c : Connection} :
    c ∈ pl.connections ↔ pl.convKey = c.convKey ∧ pl.space = some (c.spaceId, c.token) := by
  unfold connections
  rcases pl.space with _ | ⟨spaceId, token⟩
  · simp
  · rcases c with ⟨convKey, spaceId', token'⟩
    simp [eq_comm]

theorem Prepared.mem_connections {tokens : TreeMap WireUuid String} {pre : Prepared}
    {c : Connection} :
    c ∈ pre.connections tokens ↔
      pre.convKey = c.convKey ∧ pre.spaceId = c.spaceId ∧
        tokens[pre.spaceId]? = some c.token := by
  unfold connections
  rcases tokens[pre.spaceId]? with _ | token
  · simp
  · rcases c with ⟨convKey, spaceId', token'⟩
    simp [eq_comm]

namespace Run

variable (run : Run)

def withMint (mint : String → WireUuid → Except String String) : Run :=
  { run with world := { run.world with mint := mint } }

def withConnect (connect reconnect : String → WireUuid → String → Except String Unit) : Run :=
  { run with world := { run.world with connect := connect, reconnect := reconnect } }

def planCalls (s : Phase0) (group : String × List Nat) : List MintCall :=
  match (run.resolveSpace group.1).1 with
  | none => []
  | some spaceId => mintOrCachedCalls (run.world.mint group.1) s.tokens spaceId

-- The mints of the serial planning loop, in order.
def planMints : Phase0 → List (String × List Nat) → List MintCall
  | _, [] => []
  | s, group :: groups => run.planCalls s group ++ planMints (run.planConversation s group) groups

def start (p : Preflight) : Except String Phase0 :=
  match p.minted with
  | .error e => .error (preflightError e)
  | .ok _ => .ok run.phase0

def mints (p : Preflight) : List MintCall :=
  ⟨p.spaceId, p.minted⟩ ::
    match run.start p with
    | .error _ => []
    | .ok _ => run.planMints run.beforePlans run.groups.toList

def ingestConnections (p : Preflight) : List Connection :=
  match run.start p with
  | .error _ => []
  | .ok plan => plan.planned.flatMap (·.connections)

def Schedule.readBackConnections {run : Run} (s : run.Schedule) (p : Preflight) :
    List Connection :=
  match run.start p with
  | .error _ => []
  | .ok plan => (preparedOf s.ingested).flatMap (·.connections plan.tokens)

section Logs

-- The logs leave nothing out: a world that agrees on them runs the same.

theorem planConversation_congr {s : Phase0} {group : String × List Nat}
    {mint : String → WireUuid → Except String String}
    (agree : ∀ call ∈ run.planCalls s group, mint group.1 call.spaceId = call.result) :
    (run.withMint mint).planConversation s group = run.planConversation s group := by
  have same : ∀ id, (run.resolveSpace group.1).1 = some id →
      mintOrCached (mint group.1) s.tokens id =
        mintOrCached (run.world.mint group.1) s.tokens id := by
    intro id found
    apply mintOrCached_congr
    simpa [planCalls, found] using agree
  rcases group with ⟨convKey, idxs⟩
  have resolved : (run.withMint mint).resolveSpace convKey = run.resolveSpace convKey := rfl
  have reads : (run.withMint mint).isReadOnly = run.isReadOnly := rfl
  have mints : (run.withMint mint).world.mint = mint := rfl
  simp only [planConversation, resolved, reads, mints]
  cases found : (run.resolveSpace convKey).1 with
  | none => simp only [Option.bind_none]
  | some id => simp only [Option.bind_some, same id found]

theorem ingestFuture_congr {pl : Planned}
    {connect reconnect : String → WireUuid → String → Except String Unit}
    (agree : ∀ c ∈ pl.connections,
      connect c.convKey c.spaceId c.token = run.world.connect c.convKey c.spaceId c.token) :
    (run.withConnect connect reconnect).ingestFuture pl = run.ingestFuture pl := by
  unfold Planned.connections at agree
  unfold ingestFuture
  rcases space : pl.space with _ | ⟨spaceId, token⟩
  · rfl
  · have same : connect pl.convKey spaceId token = run.world.connect pl.convKey spaceId token :=
      agree ⟨pl.convKey, spaceId, token⟩ (by simp [space])
    simp only [withConnect, same]
    rfl

theorem groupFuture_congr {tokens : TreeMap WireUuid String} {pre : Prepared}
    {connect reconnect : String → WireUuid → String → Except String Unit}
    (agree : ∀ c ∈ pre.connections tokens,
      reconnect c.convKey c.spaceId c.token = run.world.reconnect c.convKey c.spaceId c.token) :
    (run.withConnect connect reconnect).groupFuture tokens pre = run.groupFuture tokens pre := by
  unfold Prepared.connections at agree
  unfold groupFuture
  rcases held : tokens[pre.spaceId]? with _ | token
  · rfl
  · have same : reconnect pre.convKey pre.spaceId token =
        run.world.reconnect pre.convKey pre.spaceId token :=
      agree ⟨pre.convKey, pre.spaceId, token⟩ (by simp [held])
    simp only [withConnect, same]
    rfl

end Logs

theorem mem_minted {calls : List MintCall} {id : WireUuid} :
    id ∈ calls.filterMap MintCall.minted ↔ ∃ token, ⟨id, .ok token⟩ ∈ calls := by
  rw [List.mem_filterMap]
  constructor
  · rintro ⟨⟨spaceId, result⟩, member, minted⟩
    cases result with
    | error e => simp [MintCall.minted] at minted
    | ok token =>
      obtain rfl : spaceId = id := by simpa [MintCall.minted] using minted
      exact ⟨token, member⟩
  · rintro ⟨token, member⟩
    exact ⟨_, member, rfl⟩

theorem plan_tokens (s : Phase0) (group : String × List Nat) (id : WireUuid) (token : String) :
    (run.planConversation s group).tokens[id]? = some token ↔
      s.tokens[id]? = some token ∨ ⟨id, .ok token⟩ ∈ run.planCalls s group := by
  rcases group with ⟨convKey, idxs⟩
  simp only [planConversation, planCalls, mintOrCachedCalls, mintOrCached]
  cases (run.resolveSpace convKey).1 with
  | none => simp
  | some spaceId =>
    cases held : s.tokens[spaceId]? with
    | some cached => simp [held]
    | none =>
      cases minted : run.world.mint convKey spaceId with
      | error e => simp [held, minted]
      | ok fresh =>
        by_cases same : spaceId = id
        next =>
          subst same
          simp only [held, minted, Option.bind_some, TreeMap.getElem?_insert_self]
          simp [eq_comm]
        next =>
          simp [held, minted, TreeMap.getElem?_insert, same, Ne.symm same]

-- A space whose token is cached is not asked for again.
theorem planCalls_missing {s : Phase0} {group : String × List Nat} {call : MintCall}
    (asked : call ∈ run.planCalls s group) : s.tokens[call.spaceId]? = none := by
  unfold planCalls mintOrCachedCalls at asked
  split at asked
  · simp at asked
  · next spaceId _ =>
    cases held : s.tokens[spaceId]? with
    | some token => simp [held] at asked
    | none =>
      simp only [held, List.mem_singleton] at asked
      rw [asked]
      exact held

theorem planCalls_resolved {s : Phase0} {group : String × List Nat} {call : MintCall}
    (asked : call ∈ run.planCalls s group) :
    (run.resolveSpace group.1).1 = some call.spaceId ∧
      run.world.mint group.1 call.spaceId = call.result := by
  unfold planCalls mintOrCachedCalls at asked
  split at asked
  · simp at asked
  · next spaceId found =>
    split at asked
    · simp at asked
    · rw [List.mem_singleton] at asked
      rw [asked]
      exact ⟨found, rfl⟩

theorem planCalls_nodup (s : Phase0) (group : String × List Nat) :
    ((run.planCalls s group).filterMap MintCall.minted).Nodup := by
  unfold planCalls mintOrCachedCalls
  cases (run.resolveSpace group.1).1 with
  | none => simp
  | some spaceId =>
    cases held : s.tokens[spaceId]? with
    | some token => simp [held]
    | none =>
      cases minted : run.world.mint group.1 spaceId <;>
        simp [held, minted, List.filterMap_cons, MintCall.minted]

-- The cache holds what the log minted, over any number of conversations.
theorem foldl_tokens (groups : List (String × List Nat)) (s : Phase0) (id : WireUuid)
    (token : String) :
    (groups.foldl run.planConversation s).tokens[id]? = some token ↔
      s.tokens[id]? = some token ∨ ⟨id, .ok token⟩ ∈ run.planMints s groups := by
  induction groups generalizing s with
  | nil => simp [planMints]
  | cons group groups ih =>
    rw [List.foldl_cons, ih, plan_tokens, planMints, List.mem_append, or_assoc]

theorem planMints_nodup (groups : List (String × List Nat)) (s : Phase0) :
    ((run.planMints s groups).filterMap MintCall.minted).Nodup ∧
      ∀ id ∈ (run.planMints s groups).filterMap MintCall.minted, s.tokens[id]? = none := by
  induction groups generalizing s with
  | nil => simp [planMints]
  | cons group groups ih =>
    obtain ⟨distinct, missing⟩ := ih (run.planConversation s group)
    rw [planMints, List.filterMap_append]
    have later : ∀ id ∈ (run.planMints (run.planConversation s group) groups).filterMap
        MintCall.minted, s.tokens[id]? = none ∧
          id ∉ (run.planCalls s group).filterMap MintCall.minted := by
      intro id member
      have gone := missing id member
      constructor
      · cases held : s.tokens[id]? with
        | none => rfl
        | some token =>
          have kept := (run.plan_tokens s group id token).mpr (Or.inl held)
          simp [gone] at kept
      · intro here
        obtain ⟨token, asked⟩ := mem_minted.mp here
        have held := (run.plan_tokens s group id token).mpr (Or.inr asked)
        simp [gone] at held
    constructor
    · rw [List.nodup_append']
      exact ⟨run.planCalls_nodup s group, distinct, fun id here after => (later id after).2 here⟩
    · intro id member
      rcases List.mem_append.mp member with here | after
      · obtain ⟨token, asked⟩ := mem_minted.mp here
        exact run.planCalls_missing asked
      · exact (later id after).1

theorem planMints_resolved {groups : List (String × List Nat)} {s : Phase0} {call : MintCall}
    (asked : call ∈ run.planMints s groups) :
    ∃ k ∈ groups.map Prod.fst, (run.resolveSpace k).1 = some call.spaceId ∧
      run.world.mint k call.spaceId = call.result := by
  induction groups generalizing s with
  | nil => simp [planMints] at asked
  | cons group groups ih =>
    rw [planMints, List.mem_append] at asked
    rcases asked with here | later
    · exact ⟨group.1, by simp, run.planCalls_resolved here⟩
    · obtain ⟨k, member, found⟩ := ih later
      exact ⟨k, List.mem_cons_of_mem _ member, found⟩

/-- `new_id` never repeats: not within a run, and never an id an earlier run has recorded. -/
structure Fresh (p : Preflight) : Prop where
  distinct : run.isReadOnly = false → Set.InjOn run.world.newId {k | k ∈ run.groups}
  unrecorded : ∀ k ∈ run.groups, (run.resolveSpace k).1 ≠ some p.spaceId

/-- A token is good for the space it was minted for and for no other. -/
def Scoped (world : World) (validFor : String → WireUuid → Prop) : Prop :=
  ∀ convKey spaceId token, world.mint convKey spaceId = .ok token →
    ∀ space, validFor token space ↔ space = spaceId

/-- The connection is to its conversation's planned space, on a token minted for that space. -/
structure Proper (p : Preflight) (validFor : String → WireUuid → Prop) (c : Connection) :
    Prop where
  planned : ∃ pl ∈ run.phase0.planned, pl.convKey = c.convKey ∧
    pl.space = some (c.spaceId, c.token)
  resolved : (run.resolveSpace c.convKey).1 = some c.spaceId
  minted : ⟨c.spaceId, .ok c.token⟩ ∈ run.mints p
  valid : ∀ space, validFor c.token space ↔ space = c.spaceId

structure Isolated (p : Preflight) (validFor : String → WireUuid → Prop) (s : run.Schedule) :
    Prop where
  ingest : ∀ c ∈ run.ingestConnections p, run.Proper p validFor c
  readBack : ∀ c ∈ s.readBackConnections p, run.Proper p validFor c
  mintedOnce : ((run.mints p).filterMap MintCall.minted).Nodup
  -- phase 2 runs the same whatever a mint would answer, and finds every token
  mintFree : ∀ mint pre,
    (run.withMint mint).groupFuture run.phase0.tokens pre = run.groupFuture run.phase0.tokens pre
  cached : ∀ pre ∈ preparedOf s.ingested, run.phase0.tokens[pre.spaceId]? ≠ none
  apart : run.isReadOnly = false → ∀ c ∈ run.ingestConnections p, ∀ c' ∈ run.ingestConnections p,
    c.convKey ≠ c'.convKey → c.spaceId ≠ c'.spaceId

variable {run} {p : Preflight} {validFor : String → WireUuid → Prop}

theorem mints_nodup (fresh : run.Fresh p) :
    ((run.mints p).filterMap MintCall.minted).Nodup := by
  unfold mints start
  cases minted : p.minted with
  | error e => simp [List.filterMap_cons, MintCall.minted]
  | ok token =>
    have distinct := (run.planMints_nodup run.groups.toList run.beforePlans).1
    have unused : p.spaceId ∉
        (run.planMints run.beforePlans run.groups.toList).filterMap MintCall.minted := by
      intro member
      obtain ⟨token, asked⟩ := mem_minted.mp member
      obtain ⟨k, planned, found, -⟩ := run.planMints_resolved asked
      rw [TreeMap.map_fst_toList_eq_keys, TreeMap.mem_keys] at planned
      exact fresh.unrecorded k planned found
    exact List.nodup_cons.mpr ⟨unused, distinct⟩

theorem planned_key_mem {pl : Planned} (member : pl ∈ run.phase0.planned) :
    pl.convKey ∈ run.groups := by
  rw [← TreeMap.mem_keys, ← planned_keys]
  exact List.mem_map_of_mem member

theorem proper_of_planned (narrow : Scoped run.world validFor) {token : String}
    (proved : p.minted = .ok token) {pl : Planned} (member : pl ∈ run.phase0.planned)
    {c : Connection} (opened : c ∈ pl.connections) : run.Proper p validFor c := by
  obtain ⟨same, space⟩ := Planned.mem_connections.mp opened
  have held := run.phase0_cached pl member c.spaceId c.token space
  have asked : ⟨c.spaceId, .ok c.token⟩ ∈ run.planMints run.beforePlans run.groups.toList := by
    rcases (run.foldl_tokens run.groups.toList run.beforePlans _ _).mp held with before | here
    · simp [beforePlans] at before
    · exact here
  obtain ⟨k, -, -, minted⟩ := run.planMints_resolved asked
  constructor
  · exact ⟨pl, member, same, space⟩
  · rw [← same]
    exact run.resolved_of_planned member space
  · unfold mints start
    rw [proved]
    exact List.mem_cons_of_mem _ asked
  · exact narrow k c.spaceId c.token minted

theorem mem_ingestConnections {c : Connection} :
    c ∈ run.ingestConnections p ↔
      (∃ token, p.minted = .ok token) ∧ ∃ pl ∈ run.phase0.planned, c ∈ pl.connections := by
  unfold ingestConnections start
  cases p.minted <;> simp

-- What phase 2 presents is what phase 1 presented for the same conversation.
theorem readBack_connections {s : run.Schedule} {pre : Prepared}
    (member : pre ∈ preparedOf s.ingested) :
    ∃ pl ∈ run.phase0.planned, pre.connections run.phase0.tokens = pl.connections ∧
      run.phase0.tokens[pre.spaceId]? ≠ none := by
  obtain ⟨pl, planned, settled⟩ := (run.mem_preparedOf s.ingested_perm).mp member
  obtain ⟨id, token, space, -, rfl⟩ := run.settled_inl settled
  have held := run.phase0_cached pl planned id token space
  refine ⟨pl, planned, ?_, by simp [held]⟩
  simp only [Prepared.connections, Planned.connections, held, space]

theorem isolated (fresh : run.Fresh p) (narrow : Scoped run.world validFor) (s : run.Schedule) :
    run.Isolated p validFor s where
  ingest := by
    intro c opened
    obtain ⟨⟨token, proved⟩, pl, member, opened⟩ := mem_ingestConnections.mp opened
    exact proper_of_planned narrow proved member opened
  readBack := by
    intro c opened
    unfold Schedule.readBackConnections start at opened
    cases proved : p.minted with
    | error e => simp [proved] at opened
    | ok token =>
      simp only [proved, List.mem_flatMap] at opened
      obtain ⟨pre, prepared, opened⟩ := opened
      obtain ⟨pl, member, same, -⟩ := readBack_connections prepared
      rw [same] at opened
      exact proper_of_planned narrow proved member opened
  mintedOnce := mints_nodup fresh
  mintFree _ _ := rfl
  cached := by
    intro pre prepared
    obtain ⟨_, _, _, held⟩ := readBack_connections prepared
    exact held
  apart := by
    intro ingesting c opened c' opened' other shared
    obtain ⟨⟨token, proved⟩, pl, member, opened⟩ := mem_ingestConnections.mp opened
    obtain ⟨-, pl', member', opened'⟩ := mem_ingestConnections.mp opened'
    have found := (proper_of_planned narrow proved member opened).resolved
    have found' := (proper_of_planned narrow proved member' opened').resolved
    have writes : run.config.readOnlySpaces = none := by simpa [isReadOnly] using ingesting
    simp only [resolveSpace, writes, Option.some.injEq] at found found'
    apply other
    apply fresh.distinct ingesting
    · rw [← (Planned.mem_connections.mp opened).1]
      exact planned_key_mem member
    · rw [← (Planned.mem_connections.mp opened').1]
      exact planned_key_mem member'
    · rw [found, found', shared]

-- Each token is its space's id in hex; the second conversation's connection fails.
def hexTokens : Run :=
  plainRun
    { World.silent with
      mint := fun _ spaceId => .ok (SpaceManifest.hex16 spaceId)
      connect := fun k _ _ => if k = "b" then .error "refused" else .ok () }
    [sampleInstance "q1" "a", sampleInstance "q2" "b", sampleInstance "q3" "a"]

theorem isolated_hexTokens :
    hexTokens.Isolated ⟨Vector.replicate 16 0, .ok "preflight"⟩
      (fun token space => token = SpaceManifest.hex16 space) hexTokens.sequential := by
  have keys : ∀ k ∈ hexTokens.groups, k = "a" ∨ k = "b" := by
    intro k member
    rw [← TreeMap.mem_keys, groups, Grouping.mem_keys] at member
    simp only [hexTokens, plainRun, plainConfig, instances, selectInstances] at member
    have listed : k = "a" ∨ k = "b" ∨ k = "a" := by
      simpa [sampleInstance, convKey, eq_comm] using member
    tauto
  apply isolated
  · constructor
    · intro _ k member k' member' same
      rcases keys k member with rfl | rfl <;> rcases keys k' member' with rfl | rfl
      · rfl
      · revert same
        decide +kernel
      · revert same
        decide +kernel
      · rfl
    · intro k member
      rcases keys k member with rfl | rfl
      · decide +kernel
      · decide +kernel
  · intro k spaceId token minted space
    obtain rfl : SpaceManifest.hex16 spaceId = token := by simpa [hexTokens, plainRun] using minted
    constructor
    · intro same
      have back := congrArg SpaceManifest.unhex16 same
      rw [SpaceManifest.unhex16_hex16, SpaceManifest.unhex16_hex16] at back
      exact (Option.some.inj back).symm
    · rintro rfl
      rfl

end Run

end BrainEval.Runner
