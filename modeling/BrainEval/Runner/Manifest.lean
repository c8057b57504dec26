import Mathlib
import BrainEval.HexCodec
import BrainEval.Runner.Fate
import BrainEval.Runner.IngestAccounting

set_option autoImplicit false

namespace BrainEval.Runner

open Harness
open Std (TreeMap)

/-- The manifest names the planned conversations that got a space, and only those. -/
def Names (m : SpaceManifest) (planned : List Planned) : Prop :=
  ∀ k hex, m.spaces[k]? = some hex ↔
    ∃ pl ∈ planned, pl.convKey = k ∧ ∃ id token, pl.space = some (id, token) ∧
      hex = SpaceManifest.hex16 id

theorem Names.unplaced {m : SpaceManifest} {planned : List Planned} (names : Names m planned)
    (convKey : String) (idxs : List Nat) (reason : String) :
    Names m (planned ++ [⟨convKey, idxs, none, reason⟩]) := by
  intro k hex
  rw [names k hex]
  simp

theorem Names.record {m : SpaceManifest} {planned : List Planned} (names : Names m planned)
    {convKey : String} (fresh : ∀ pl ∈ planned, pl.convKey ≠ convKey) (idxs : List Nat)
    (id : WireUuid) (token reason : String) :
    Names (m.record convKey id) (planned ++ [⟨convKey, idxs, some (id, token), reason⟩]) := by
  intro k hex
  simp only [SpaceManifest.record, TreeMap.getElem?_insert, Std.compare_eq_iff_eq]
  by_cases same : convKey = k
  · subst same
    have none : ¬ ∃ pl ∈ planned, pl.convKey = convKey ∧ ∃ id token,
        pl.space = some (id, token) ∧ hex = SpaceManifest.hex16 id := by
      rintro ⟨pl, member, same, -⟩
      exact fresh pl member same
    simp only [if_true, Option.some.injEq, List.mem_append, or_and_right, exists_or, none, false_or]
    simp [eq_comm]
  · rw [if_neg same, names k hex]
    simp [same]

namespace Run

variable (run : Run)

theorem planConversation_cases (s : Phase0) (group : String × List Nat) :
    (∃ id token reason tokens, (run.resolveSpace group.1).1 = some id ∧
        run.planConversation s group =
          { tokens := tokens
            persist := if run.isReadOnly then s.persist else s.persist.map (·.record group.1 id)
            planned := s.planned ++ [⟨group.1, group.2, some (id, token), reason⟩] }) ∨
      ∃ reason, run.planConversation s group =
        { s with planned := s.planned ++ [⟨group.1, group.2, none, reason⟩] } := by
  unfold planConversation
  dsimp only
  split
  · next id token tokens minted =>
    obtain ⟨id', resolved, minted⟩ := Option.bind_eq_some_iff.mp minted
    split at minted
    · obtain ⟨rfl, rfl, rfl⟩ : id' = id ∧ _ = token ∧ _ = tokens := by simpa using minted
      exact Or.inl ⟨id', _, _, _, resolved, rfl⟩
    · simp at minted
  · exact Or.inr ⟨_, rfl⟩

theorem foldl_persist (ingesting : run.isReadOnly = false) (groups : List (String × List Nat))
    (distinct : (groups.map Prod.fst).Nodup) {s : Phase0}
    (fresh : ∀ pl ∈ s.planned, pl.convKey ∉ groups.map Prod.fst) {m : SpaceManifest}
    (held : s.persist = some m) (names : Names m s.planned) :
    ∃ m', (groups.foldl run.planConversation s).persist = some m' ∧
      Names m' (groups.foldl run.planConversation s).planned := by
  induction groups generalizing s m with
  | nil => exact ⟨m, held, names⟩
  | cons group groups ih =>
    obtain ⟨unrepeated, distinct⟩ := List.nodup_cons.mp distinct
    have earlier : ∀ pl ∈ s.planned, pl.convKey ≠ group.1 ∧ pl.convKey ∉ groups.map Prod.fst :=
      fun pl member => by simpa using fresh pl member
    obtain ⟨space, reason, grown⟩ := run.planConversation_planned s group
    have still : ∀ pl ∈ (run.planConversation s group).planned,
        pl.convKey ∉ groups.map Prod.fst := by
      intro pl member
      rw [grown, List.mem_append, List.mem_singleton] at member
      rcases member with member | rfl
      · exact (earlier pl member).2
      · exact unrepeated
    rw [List.foldl_cons]
    rcases run.planConversation_cases s group with
      ⟨id, token, reason, tokens, -, step⟩ | ⟨reason, step⟩
    · apply ih distinct still (m := m.record group.1 id)
      · simp [step, ingesting, held]
      · rw [step]
        exact names.record (fun pl member => (earlier pl member).1) _ id token reason
    · apply ih distinct still (m := m)
      · rw [step]
        exact held
      · rw [step]
        exact names.unplaced _ _ _

-- The saved manifest names exactly the conversations whose key was minted.
theorem persist_names (ingesting : run.isReadOnly = false)
    (persisting : run.config.persistSpaces.isSome = true) :
    ∃ m, run.phase0.persist = some m ∧ Names m run.phase0.planned := by
  have distinct : (run.groups.toList.map Prod.fst).Nodup := by
    rw [TreeMap.map_fst_toList_eq_keys]
    exact Grouping.keys_nodup _
  obtain ⟨path, set⟩ := Option.isSome_iff_exists.mp persisting
  apply run.foldl_persist ingesting run.groups.toList distinct (s := run.beforePlans)
    (fun _ member => nomatch member) (m := SpaceManifest.new run.benchmarkId run.config.endpoint)
  · simp [beforePlans, set]
  · intro k hex
    simp [SpaceManifest.new, beforePlans]

-- A group is planned last, in the space its key resolves to if in any.
theorem planConversation_placed (s : Phase0) (group : String × List Nat) :
    ∃ space reason,
      (run.planConversation s group).planned = s.planned ++ [⟨group.1, group.2, space, reason⟩] ∧
      ∀ id token, space = some (id, token) → (run.resolveSpace group.1).1 = some id := by
  rcases run.planConversation_cases s group with
    ⟨id, token, reason, tokens, found, step⟩ | ⟨reason, step⟩
  · refine ⟨some (id, token), reason, by rw [step], fun id' token' same => ?_⟩
    obtain ⟨rfl, -⟩ : id = id' ∧ token = token' := by simpa using same
    exact found
  · exact ⟨none, reason, by rw [step], fun _ _ same => nomatch same⟩

theorem foldl_resolved (groups : List (String × List Nat)) {s : Phase0}
    (resolved : ∀ pl ∈ s.planned, ∀ id token, pl.space = some (id, token) →
      (run.resolveSpace pl.convKey).1 = some id) :
    ∀ pl ∈ (groups.foldl run.planConversation s).planned, ∀ id token,
      pl.space = some (id, token) → (run.resolveSpace pl.convKey).1 = some id := by
  induction groups generalizing s with
  | nil => exact resolved
  | cons group groups ih =>
    rw [List.foldl_cons]
    apply ih
    obtain ⟨space, reason, grown, placed⟩ := run.planConversation_placed s group
    intro pl member id token same
    rw [grown, List.mem_append, List.mem_singleton] at member
    rcases member with member | rfl
    · exact resolved pl member id token same
    · exact placed id token same

theorem resolved_of_planned {pl : Planned} (member : pl ∈ run.phase0.planned) {id : WireUuid}
    {token : String} (placed : pl.space = some (id, token)) :
    (run.resolveSpace pl.convKey).1 = some id :=
  run.foldl_resolved run.groups.toList (s := run.beforePlans) (fun _ inside => nomatch inside)
    pl member id token placed

def haystack (pl : Planned) : EvalInstance := run.inst (pl.idxs.headD 0)

-- What the run itself says of the conversation: connected, and no session failed.
structure Ingested (pl : Planned) : Prop where
  established : (run.ingestFuture pl).failure = none
  complete : (run.ingestFuture pl).cw.ingestFailed = false

/-- The space took in every turn of the conversation. -/
structure Holds (pl : Planned) (spaceId : WireUuid) : Prop where
  placed : ∃ token, pl.space = some (spaceId, token)
  sent : sentRequests (ingestSessions (run.world.encode pl.convKey) (run.world.ingestMs pl.convKey)
    (run.haystack pl)).1 = requestsOf (run.haystack pl)
  accepted : ∀ reply ∈ replies (run.world.encode pl.convKey) [] (requestsOf (run.haystack pl)),
    reply.accepted = true

/-- A saved manifest, and what a read-only run over it makes of a question: recorded as failed,
or read from a space holding its whole conversation. -/
structure ManifestIsSound : Prop where
  entries : ∀ m, run.phase0.persist = some m → ∀ k, m.spaces[k]?.isSome = true →
    ∃ pl ∈ run.phase0.planned, pl.convKey = k ∧ run.Ingested pl
  later : ∀ m, run.phase0.persist = some m → ∀ reader : Run,
    reader.config.readOnlySpaces = some m → ∀ idx < reader.instances.length,
      (∃ reason ingestFailed, reader.outcome idx = some (reader.failed idx reason ingestFailed)) ∨
        ∃ pl ∈ run.phase0.planned, pl.convKey = reader.key idx ∧
          ∃ id, (reader.planOf (reader.key idx)).map reader.fate = some (.opened id) ∧
            run.Holds pl id

/-- Past a minted key nothing fails: the conversation connects, and every ENCODE of it, sent in
order, is acknowledged. -/
def MintedAreServed : Prop :=
  ∀ pl ∈ run.phase0.planned, ∀ id token, pl.space = some (id, token) →
    run.world.connect pl.convKey id token = .ok () ∧
      ∀ reply ∈ replies (run.world.encode pl.convKey) [] (requestsOf (run.haystack pl)),
        reply.accepted = true

theorem ingested_iff (ingesting : run.isReadOnly = false) {pl : Planned} {id : WireUuid}
    {token : String} (placed : pl.space = some (id, token)) :
    run.Ingested pl ↔ run.world.connect pl.convKey id token = .ok () ∧
      ∀ reply ∈ replies (run.world.encode pl.convKey) [] (requestsOf (run.haystack pl)),
        reply.accepted = true := by
  have failed := ingestSessions_failed_iff (run.world.encode pl.convKey)
    (run.world.ingestMs pl.convKey) (run.haystack pl)
  rw [← failed]
  cases connected : run.world.connect pl.convKey id token with
  | error e =>
    refine iff_of_false (fun ingested => ?_) (by simp)
    have established := ingested.established
    simp [ingestFuture, placed, connected] at established
  | ok u =>
    have future : run.ingestFuture pl = ⟨pl.convKey, pl.idxs, some id, run.convWrite pl, none⟩ := by
      simp [ingestFuture, placed, connected]
    have written : (run.convWrite pl).ingestFailed =
        (ingestSessions (run.world.encode pl.convKey) (run.world.ingestMs pl.convKey)
          (run.haystack pl)).2.failed := by
      simp [convWrite, ingesting, ConvWrite.fromIngest, haystack]
    constructor
    · intro ingested
      have complete := ingested.complete
      rw [future] at complete
      exact ⟨rfl, written ▸ complete⟩
    · rintro ⟨-, complete⟩
      refine ⟨by rw [future], ?_⟩
      rw [future]
      exact written.trans complete

theorem planned_unique {pl pl' : Planned} (member : pl ∈ run.phase0.planned)
    (member' : pl' ∈ run.phase0.planned) (same : pl.convKey = pl'.convKey) : pl = pl' := by
  have found := run.planOf_eq member
  rw [same, run.planOf_eq member'] at found
  exact (Option.some.inj found).symm

theorem exists_plan {idx : Nat} (within : idx < run.instances.length) :
    ∃ pl ∈ run.phase0.planned, idx ∈ pl.idxs := by
  have listed := run.planned_idxs_perm.mem_iff.mpr (List.mem_range.mpr within)
  simpa using listed

theorem fate_opened {pl : Planned} {id : WireUuid} (opened : run.fate pl = .opened id) :
    ∃ token, pl.space = some (id, token) := by
  unfold fate at opened
  split at opened
  · simp at opened
  · next id' token placed =>
    refine ⟨token, ?_⟩
    split at opened
    · simp at opened
    · split at opened
      · simp at opened
      · obtain rfl : id' = id := by simpa using opened
        exact placed

theorem spaceFor_of_opened {m : SpaceManifest} (reading : run.config.readOnlySpaces = some m)
    {pl : Planned} (member : pl ∈ run.phase0.planned) {id : WireUuid}
    (opened : run.fate pl = .opened id) : m.spaceFor pl.convKey = some id := by
  obtain ⟨token, placed⟩ := run.fate_opened opened
  have resolved := run.resolved_of_planned member placed
  rw [resolveSpace, reading] at resolved
  dsimp only at resolved
  split at resolved
  · next space found => exact found.trans resolved
  · simp at resolved

theorem Names.holder {m : SpaceManifest} (names : Names m run.phase0.planned) {k : String}
    {id : WireUuid} (found : m.spaceFor k = some id) :
    ∃ pl ∈ run.phase0.planned, pl.convKey = k ∧ ∃ token, pl.space = some (id, token) := by
  obtain ⟨hex, bound, read⟩ := Option.bind_eq_some_iff.mp found
  obtain ⟨pl, member, same, id', token, placed, rfl⟩ := (names k hex).mp bound
  rw [SpaceManifest.unhex16_hex16, Option.some.injEq] at read
  exact ⟨pl, member, same, token, read ▸ placed⟩

theorem manifest_is_sound_iff (ingesting : run.isReadOnly = false)
    (persisting : run.config.persistSpaces.isSome = true) :
    run.ManifestIsSound ↔ run.MintedAreServed := by
  obtain ⟨m, held, names⟩ := run.persist_names ingesting persisting
  constructor
  · intro sound pl member id token placed
    have bound := (names pl.convKey _).mpr ⟨pl, member, rfl, id, token, placed, rfl⟩
    obtain ⟨pl', member', same, ingested⟩ := sound.entries m held pl.convKey (by simp [bound])
    obtain rfl := run.planned_unique member' member same
    exact (run.ingested_iff ingesting placed).mp ingested
  · intro served
    refine ⟨fun m' held' k entry => ?_, fun m' held' reader reading idx within => ?_⟩
    · obtain rfl := Option.some.inj (held.symm.trans held')
      obtain ⟨hex, bound⟩ := Option.isSome_iff_exists.mp entry
      obtain ⟨pl, member, same, id, token, placed, -⟩ := (names k hex).mp bound
      exact ⟨pl, member, same,
        (run.ingested_iff ingesting placed).mpr (served pl member id token placed)⟩
    · obtain rfl := Option.some.inj (held.symm.trans held')
      obtain ⟨plan, listed, inside⟩ := reader.exists_plan within
      have planned := reader.planOf_of_mem listed inside
      have key := reader.key_of_mem listed inside
      cases met : reader.fate plan with
      | unavailable reason =>
        exact Or.inl ⟨reason, true, by simp [outcome, planned, met]⟩
      | lost id reason =>
        exact Or.inl ⟨reason, false, by simp [outcome, planned, met]⟩
      | opened id =>
        obtain ⟨pl, member, same, token, placed⟩ :=
          Names.holder run names (reader.spaceFor_of_opened reading listed met)
        obtain ⟨-, accepted⟩ := served pl member id token placed
        refine Or.inr ⟨pl, member, same.trans key.symm, id, by simp [planned, met], ?_⟩
        exact ⟨⟨token, placed⟩, sentRequests_of_accepted _ _ accepted, accepted⟩

def persistingRun (world : World) : Run :=
  { plainRun world [sampleInstance "q0" "a"] with
    config := { plainConfig with persistSpaces := some "spaces.json" } }

theorem silent_manifest_is_sound : (persistingRun .silent).ManifestIsSound :=
  (manifest_is_sound_iff _ rfl rfl).mpr fun pl _ id token _ => by
    refine ⟨rfl, fun reply member => ?_⟩
    obtain ⟨resp, ok⟩ := accepted_of_always _ (fun sent => ⟨_, rfl⟩) [] _ reply member
    exact Reply.accepted_of_ok ok

def overloaded : World := { World.silent with encode := fun _ _ => .error "overloaded" }

def savedManifest : SpaceManifest :=
  (persistingRun overloaded).phase0.persist.getD (SpaceManifest.new "sample" "")

def reader : Run :=
  { plainRun .silent [sampleInstance "q0" "a"] with
    config := { plainConfig with readOnlySpaces := some savedManifest } }

-- Not one turn was stored; the manifest names the space, and a later run asks it with nothing
-- marked as failed.
theorem empty_space_is_named :
    (savedManifest.spaceFor "a").isSome = true ∧ reader.readBack 0 = true ∧
      reader.sequential.questionResults.map (·.ingestionFailed) = [false] ∧
      ¬ (persistingRun overloaded).ManifestIsSound := by
  refine ⟨by decide +kernel, by decide +kernel, by decide +kernel, fun sound => ?_⟩
  have lost : ((persistingRun overloaded).phase0.planned.all fun pl =>
      ((persistingRun overloaded).ingestFuture pl).cw.ingestFailed) = true := by
    decide +kernel
  have named : ((persistingRun overloaded).phase0.persist.any fun m =>
      m.spaces["a"]?.isSome) = true := by
    decide +kernel
  obtain ⟨m, held, entry⟩ := (Option.any_eq_true _ _).mp named
  obtain ⟨pl, member, -, ingested⟩ := sound.entries m held "a" entry
  have complete := ingested.complete
  rw [List.all_eq_true.mp lost pl member] at complete
  simp at complete

end Run

end BrainEval.Runner
