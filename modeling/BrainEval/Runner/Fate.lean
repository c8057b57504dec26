import Mathlib
import BrainEval.Runner.Pipeline

set_option autoImplicit false

namespace BrainEval.Runner

open SortBy Grouping Harness Report
open Std (TreeMap)

/-- How far a conversation gets: no connection in phase 1, none in phase 2, or read back. -/
inductive Fate where
  | unavailable (reason : String)
  | lost (spaceId : WireUuid) (reason : String)
  | opened (spaceId : WireUuid)

def Fate.isOpened : Fate → Bool
  | .opened _ => true
  | _ => false

theorem Fate.isOpened_iff {fate : Fate} : fate.isOpened = true ↔ ∃ id, fate = .opened id := by
  cases fate <;> simp [isOpened]

def Phase0.Cached (s : Phase0) : Prop :=
  ∀ pl ∈ s.planned, ∀ (id : WireUuid) (token : String),
    pl.space = some (id, token) → s.tokens[id]? = some token

theorem mintOrCached_ok {mint : WireUuid → Except String String}
    {tokens tokens' : TreeMap WireUuid String} {id : WireUuid} {token : String}
    (minted : mintOrCached mint tokens id = .ok (token, tokens')) :
    tokens'[id]? = some token ∧
      ∀ (id' : WireUuid) (token' : String), tokens[id']? = some token' →
        tokens'[id']? = some token' := by
  unfold mintOrCached at minted
  split at minted
  · next cached =>
    simp only [Except.ok.injEq, Prod.mk.injEq] at minted
    obtain ⟨rfl, rfl⟩ := minted
    exact ⟨cached, fun _ _ held => held⟩
  · next missing =>
    split at minted
    · simp only [Except.ok.injEq, Prod.mk.injEq] at minted
      obtain ⟨rfl, rfl⟩ := minted
      refine ⟨by simp, fun id' token' held => ?_⟩
      have other : id ≠ id' := by
        rintro rfl
        simp [missing] at held
      simp [TreeMap.getElem?_insert, other, held]
    · simp at minted

namespace Run

variable (run : Run)

def key (idx : Nat) : String := convKey (run.inst idx)

def membersOf (k : String) : List Nat :=
  (List.range run.instances.length).filter (run.key · = k)

theorem zipIdx_instances :
    run.instances.zipIdx = (List.range run.instances.length).map fun i => (run.inst i, i) := by
  apply List.ext_getElem
  · simp
  · intro i within _
    have within : i < run.instances.length := by simpa using within
    simp [inst, within]

theorem members_groups (k : String) :
    members (fun entry : EvalInstance × Nat => convKey entry.1) Prod.snd run.instances.zipIdx k =
      run.membersOf k := by
  rw [members, zipIdx_instances, List.filter_map, List.map_map]
  exact List.map_id _

theorem mem_groups {k : String} {idxs : List Nat} (member : (k, idxs) ∈ run.groups.toList) :
    idxs = run.membersOf k ∧ idxs ≠ [] := by
  rw [groups, Grouping.mem_toList, members_groups] at member
  exact member

theorem groups_perm :
    (run.groups.toList.flatMap Prod.snd).Perm (List.range run.instances.length) := by
  have split := flatMap_toList_perm (fun entry : EvalInstance × Nat => convKey entry.1) Prod.snd
    run.instances.zipIdx
  rw [zipIdx_instances, List.map_map] at split
  simpa [groups, zipIdx_instances, Function.comp_def] using split

theorem planConversation_planned (s : Phase0) (group : String × List Nat) :
    ∃ space reason, (run.planConversation s group).planned =
      s.planned ++ [⟨group.1, group.2, space, reason⟩] := by
  unfold planConversation
  dsimp only
  split
  · exact ⟨_, _, rfl⟩
  · exact ⟨_, _, rfl⟩

theorem planConversation_cached {s : Phase0} (cached : s.Cached) (group : String × List Nat) :
    (run.planConversation s group).Cached := by
  unfold planConversation
  dsimp only
  split
  · next id token tokens minted =>
    obtain ⟨id', _, minted⟩ := Option.bind_eq_some_iff.mp minted
    split at minted
    · next token' tokens' ok =>
      simp only [Option.some.injEq, Prod.mk.injEq] at minted
      obtain ⟨rfl, rfl, rfl⟩ := minted
      obtain ⟨fresh, kept⟩ := mintOrCached_ok ok
      intro pl member id token same
      rcases List.mem_append.mp member with earlier | last
      · exact kept id token (cached pl earlier id token same)
      · rw [List.mem_singleton] at last
        subst last
        simp only [Option.some.injEq, Prod.mk.injEq] at same
        obtain ⟨rfl, rfl⟩ := same
        exact fresh
    · simp at minted
  · intro pl member id token same
    rcases List.mem_append.mp member with earlier | last
    · exact cached pl earlier id token same
    · rw [List.mem_singleton] at last
      subst last
      simp at same

-- The fold keeps the groups in order, and its cache only grows.
theorem phase0_fold (groups : List (String × List Nat)) (s : Phase0) (cached : s.Cached) :
    (groups.foldl run.planConversation s).Cached ∧
      (groups.foldl run.planConversation s).planned.map (fun pl => (pl.convKey, pl.idxs)) =
        s.planned.map (fun pl => (pl.convKey, pl.idxs)) ++ groups := by
  induction groups generalizing s with
  | nil => exact ⟨cached, by simp⟩
  | cons group groups ih =>
    obtain ⟨kept, planned⟩ := ih _ (run.planConversation_cached cached group)
    refine ⟨kept, ?_⟩
    obtain ⟨space, reason, one⟩ := run.planConversation_planned s group
    rw [List.foldl_cons, planned, one]
    simp

theorem phase0_cached : run.phase0.Cached :=
  (run.phase0_fold run.groups.toList run.beforePlans fun _ member => nomatch member).1

theorem planned_groups :
    run.phase0.planned.map (fun pl => (pl.convKey, pl.idxs)) = run.groups.toList :=
  (run.phase0_fold run.groups.toList run.beforePlans fun _ member => nomatch member).2

theorem planned_keys : run.phase0.planned.map (·.convKey) = run.groups.keys := by
  rw [← TreeMap.map_fst_toList_eq_keys, ← planned_groups, List.map_map]
  rfl

theorem planned_keys_strict : run.phase0.planned.Pairwise fun a b => a.convKey < b.convKey := by
  have ordered := TreeMap.ordered_keys (t := run.groups)
  rw [← planned_keys, List.pairwise_map] at ordered
  exact ordered.imp fun less => compare_lt_iff_lt.mp less

theorem mem_planned {pl : Planned} (member : pl ∈ run.phase0.planned) :
    pl.idxs = run.membersOf pl.convKey ∧ pl.idxs ≠ [] := by
  apply run.mem_groups
  rw [← planned_groups]
  exact List.mem_map.mpr ⟨pl, member, rfl⟩

theorem planned_idxs_perm :
    (run.phase0.planned.flatMap (·.idxs)).Perm (List.range run.instances.length) := by
  have perm := run.groups_perm
  rw [← planned_groups, List.flatMap_map] at perm
  exact perm

def fate (pl : Planned) : Fate :=
  match pl.space with
  | none => .unavailable pl.reason
  | some (id, token) =>
    match run.world.connect pl.convKey id token with
    | .error e => .unavailable (connectError e)
    | .ok _ =>
      match run.world.reconnect pl.convKey id token with
      | .error e => .lost id (reconnectError e)
      | .ok _ => .opened id

theorem ingestFuture_settle (pl : Planned) :
    (run.ingestFuture pl).settle =
      match run.fate pl with
      | .unavailable reason => .inr reason
      | .lost id _ | .opened id => .inl ⟨pl.convKey, pl.idxs, id, run.convWrite pl⟩ := by
  unfold ingestFuture fate
  rcases pl.space with _ | ⟨id, token⟩
  · rfl
  · dsimp only
    cases run.world.connect pl.convKey id token with
    | error e => rfl
    | ok _ => cases run.world.reconnect pl.convKey id token <;> rfl

@[simp] theorem ingestFuture_convKey (pl : Planned) :
    (run.ingestFuture pl).convKey = pl.convKey := by
  unfold ingestFuture
  split
  · rfl
  · split <;> rfl

@[simp] theorem ingestFuture_idxs (pl : Planned) : (run.ingestFuture pl).idxs = pl.idxs := by
  unfold ingestFuture
  split
  · rfl
  · split <;> rfl

def phase1Of (pl : Planned) : List Merged :=
  match run.fate pl with
  | .unavailable reason => pl.idxs.map (run.failed · reason true)
  | _ => []

def groupOf (pl : Planned) : Option GroupOutcome :=
  match run.fate pl with
  | .unavailable _ => none
  | .lost _ reason => some ⟨none, pl.idxs.map (run.failed · reason false)⟩
  | .opened id => some
    { conversationWrite :=
        if run.isReadOnly then none else some (run.ledger pl.convKey id (run.convWrite pl))
      questions :=
        if run.config.verifyMemoryList then [] else pl.idxs.map (run.asked · (run.convWrite pl)) }

-- What goes on to phase 2 has its space, and phase 1 got a connection to it.
theorem settled_inl {pl : Planned} {pre : Prepared}
    (settled : (run.ingestFuture pl).settle = .inl pre) :
    ∃ id token, pl.space = some (id, token) ∧
      (∃ c, run.world.connect pl.convKey id token = .ok c) ∧
      pre = ⟨pl.convKey, pl.idxs, id, run.convWrite pl⟩ := by
  unfold ingestFuture at settled
  rcases space : pl.space with _ | ⟨id, token⟩
  · simp [space, IngestOutcome.settle] at settled
  · simp only [space] at settled
    cases connected : run.world.connect pl.convKey id token with
    | error e => simp [connected, IngestOutcome.settle] at settled
    | ok c =>
      simp only [connected, IngestOutcome.settle, Sum.inl.injEq] at settled
      exact ⟨id, token, rfl, ⟨c, connected⟩, settled.symm⟩

-- A conversation that goes on to phase 2 finds its token cached, so the reconnect decides.
theorem prepared_cases {pl : Planned} (member : pl ∈ run.phase0.planned) {pre : Prepared}
    (settled : (run.ingestFuture pl).settle = .inl pre) :
    ∃ id token, pre = ⟨pl.convKey, pl.idxs, id, run.convWrite pl⟩ ∧
      run.phase0.tokens[id]? = some token ∧
      run.fate pl =
        match run.world.reconnect pl.convKey id token with
        | .error e => .lost id (reconnectError e)
        | .ok _ => .opened id := by
  obtain ⟨id, token, space, ⟨c, connected⟩, same⟩ := run.settled_inl settled
  refine ⟨id, token, same, run.phase0_cached pl member id token space, ?_⟩
  simp only [fate, space, connected]

theorem groupFuture_eq {pl : Planned} (member : pl ∈ run.phase0.planned) {pre : Prepared}
    (settled : (run.ingestFuture pl).settle = .inl pre) :
    run.groupOf pl = some (run.groupFuture run.phase0.tokens pre) := by
  obtain ⟨id, token, rfl, held, fate⟩ := run.prepared_cases member settled
  unfold groupOf groupFuture
  simp only [fate, held]
  cases run.world.reconnect pl.convKey id token <;> rfl

-- The phase-1 merge order is the plan's, whatever order the ingests finished in.
theorem sort_ingested {ingested : List IngestOutcome}
    (perm : ingested.Perm (run.phase0.planned.map run.ingestFuture)) :
    sortByKey (·.convKey) ingested = run.phase0.planned.map run.ingestFuture := by
  have strict := run.planned_keys_strict
  apply sortByKey_unique perm
  · rw [List.pairwise_map]
    exact strict.imp fun less => by simpa [ByKey] using le_of_lt less
  · have distinct : ((run.phase0.planned.map run.ingestFuture).map (·.convKey)).Nodup := by
      rw [List.map_map, List.Nodup, List.pairwise_map]
      exact strict.imp fun less => by simpa using ne_of_lt less
    intro a left b right same
    exact List.inj_on_of_nodup_map distinct left right same

theorem phase1Failures_eq {ingested : List IngestOutcome}
    (perm : ingested.Perm (run.phase0.planned.map run.ingestFuture)) :
    run.phase1Failures ingested = run.phase0.planned.flatMap run.phase1Of := by
  rw [phase1Failures, run.sort_ingested perm, List.flatMap_map]
  apply List.flatMap_congr
  intro pl _
  rw [ingestFuture_settle, phase1Of]
  cases run.fate pl <;> simp

theorem preparedOf_eq {ingested : List IngestOutcome}
    (perm : ingested.Perm (run.phase0.planned.map run.ingestFuture)) :
    preparedOf ingested =
      run.phase0.planned.filterMap fun pl => (run.ingestFuture pl).settle.getLeft? := by
  rw [preparedOf, run.sort_ingested perm, List.filterMap_map]
  rfl

theorem mem_preparedOf {ingested : List IngestOutcome}
    (perm : ingested.Perm (run.phase0.planned.map run.ingestFuture)) {pre : Prepared} :
    pre ∈ preparedOf ingested ↔
      ∃ pl ∈ run.phase0.planned, (run.ingestFuture pl).settle = .inl pre := by
  rw [run.preparedOf_eq perm, List.mem_filterMap]
  simp only [Sum.getLeft?_eq_some_iff]

theorem groups_of_prepared {ingested : List IngestOutcome}
    (perm : ingested.Perm (run.phase0.planned.map run.ingestFuture)) :
    (preparedOf ingested).map (run.groupFuture run.phase0.tokens) =
      run.phase0.planned.filterMap run.groupOf := by
  rw [run.preparedOf_eq perm, List.map_filterMap]
  apply List.filterMap_congr
  intro pl member
  cases settled : (run.ingestFuture pl).settle with
  | inl pre => simp [run.groupFuture_eq member settled]
  | inr reason =>
    have skipped : run.groupOf pl = none := by
      rw [ingestFuture_settle] at settled
      unfold groupOf
      cases met : run.fate pl <;> simp [met] at settled ⊢
    simp [skipped]

def planOf (k : String) : Option Planned := run.phase0.planned.find? (·.convKey = k)

theorem planOf_eq {pl : Planned} (member : pl ∈ run.phase0.planned) :
    run.planOf pl.convKey = some pl := by
  have found : (run.planOf pl.convKey).isSome := by
    rw [planOf, List.find?_isSome]
    exact ⟨pl, member, by simp⟩
  obtain ⟨pl', met⟩ := Option.isSome_iff_exists.mp found
  have same : pl'.convKey = pl.convKey := by simpa using List.find?_some met
  have distinct : (run.phase0.planned.map (·.convKey)).Nodup := by
    rw [List.Nodup, List.pairwise_map]
    exact run.planned_keys_strict.imp ne_of_lt
  rw [met, List.inj_on_of_nodup_map distinct (List.mem_of_find?_eq_some met) member same]

section Members

variable {pl : Planned} (member : pl ∈ run.phase0.planned) {idx : Nat} (inside : idx ∈ pl.idxs)

include member inside

theorem idx_lt_of_mem : idx < run.instances.length :=
  List.mem_range.mp (run.planned_idxs_perm.mem_iff.mp (List.mem_flatMap.mpr ⟨pl, member, inside⟩))

theorem key_of_mem : run.key idx = pl.convKey := by
  rw [(run.mem_planned member).1, membersOf, List.mem_filter, decide_eq_true_eq] at inside
  exact inside.2

theorem planOf_of_mem : run.planOf (run.key idx) = some pl := by
  rw [run.key_of_mem member inside, run.planOf_eq member]

end Members

-- The question's conversation is connected to in both phases.
def readBack (idx : Nat) : Bool := (run.planOf (run.key idx)).any fun pl => (run.fate pl).isOpened

theorem readBack_of_mem {pl : Planned} (member : pl ∈ run.phase0.planned) {idx : Nat}
    (inside : idx ∈ pl.idxs) : run.readBack idx = (run.fate pl).isOpened := by
  rw [readBack, run.planOf_of_mem member inside, Option.any_some]

/-- What the report holds for a question: nothing only when its conversation was merely listed. -/
def outcome (idx : Nat) : Option Merged :=
  (run.planOf (run.key idx)).bind fun pl =>
    match run.fate pl with
    | .unavailable reason => some (run.failed idx reason true)
    | .lost _ reason => some (run.failed idx reason false)
    | .opened _ =>
      if run.config.verifyMemoryList then none else some (run.asked idx (run.convWrite pl))

-- A settled question either failed with its conversation, or was asked over its connection.
theorem outcome_cases {idx : Nat} {m : Merged} (settled : run.outcome idx = some m) :
    (run.readBack idx = false ∧ ∃ reason ingestFailed, m = run.failed idx reason ingestFailed) ∨
      (run.readBack idx = true ∧ run.config.verifyMemoryList = false ∧
        ∃ cw, m = run.asked idx cw) := by
  obtain ⟨pl, planned, settled⟩ := Option.bind_eq_some_iff.mp settled
  rw [readBack, planned, Option.any_some]
  cases met : run.fate pl with
  | unavailable reason =>
    rw [met] at settled
    exact Or.inl ⟨rfl, reason, true, (Option.some.inj settled).symm⟩
  | lost id reason =>
    rw [met] at settled
    exact Or.inl ⟨rfl, reason, false, (Option.some.inj settled).symm⟩
  | opened id =>
    rw [met] at settled
    by_cases listed : run.config.verifyMemoryList = true
    · simp [listed] at settled
    · have asked := Option.some.inj ((if_neg listed).symm.trans settled)
      exact Or.inr ⟨rfl, by simpa using listed, _, asked.symm⟩

def questionsOf (pl : Planned) : List Merged :=
  run.phase1Of pl ++ ((run.groupOf pl).elim [] (·.questions))

theorem questionsOf_eq {pl : Planned} (member : pl ∈ run.phase0.planned) :
    run.questionsOf pl = pl.idxs.filterMap run.outcome := by
  have outcomes : pl.idxs.filterMap run.outcome = pl.idxs.filterMap fun idx =>
      match run.fate pl with
      | .unavailable reason => some (run.failed idx reason true)
      | .lost _ reason => some (run.failed idx reason false)
      | .opened _ =>
        if run.config.verifyMemoryList then none
        else some (run.asked idx (run.convWrite pl)) := by
    apply List.filterMap_congr
    intro idx inside
    rw [outcome, run.planOf_of_mem member inside, Option.bind_some]
  rw [outcomes, questionsOf, phase1Of, groupOf]
  cases run.fate pl with
  | unavailable reason => simp
  | lost id reason => simp
  | opened id => by_cases listed : run.config.verifyMemoryList = true <;> simp [listed]

theorem outcome_idx {idx : Nat} {m : Merged} (settled : run.outcome idx = some m) :
    m.idx = idx := by
  rcases run.outcome_cases settled with ⟨_, _, _, rfl⟩ | ⟨_, _, _, rfl⟩
  · rfl
  · rfl

theorem questions_perm :
    (run.phase0.planned.flatMap run.questionsOf).Perm
      ((List.range run.instances.length).filterMap run.outcome) := by
  have same : run.phase0.planned.flatMap run.questionsOf =
      (run.phase0.planned.flatMap (·.idxs)).filterMap run.outcome := by
    rw [List.filterMap_flatMap]
    apply List.flatMap_congr
    intro pl member
    exact run.questionsOf_eq member
  rw [same]
  exact run.planned_idxs_perm.filterMap _

end Run

end BrainEval.Runner
