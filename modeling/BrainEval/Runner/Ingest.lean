import Mathlib
import BrainEval.Lib.SortBy
import BrainEval.Runner.Config

set_option autoImplicit false

namespace BrainEval.Runner

open RustStr SortBy Harness Report Std

structure IngestAggregate where
  latencyMs : Nat
  attempted : Nat
  deduplicated : Nat
  failed : Bool
  storedIds : List WireMemoryId
  storedTexts : List String

def IngestAggregate.zero : IngestAggregate := ⟨0, 0, 0, false, [], []⟩

def IngestAggregate.add (a : IngestAggregate) (out : Harness.IngestOutcome) : IngestAggregate where
  latencyMs := saturatingAdd a.latencyMs out.latencyMs
  attempted := saturatingAdd a.attempted out.attempted
  deduplicated := saturatingAdd a.deduplicated out.deduplicated
  failed := a.failed
  storedIds := a.storedIds ++ out.storedIds
  storedTexts := a.storedTexts ++ out.storedTexts

/-- An ENCODE on the wire, under the label of the session it belongs to. -/
structure Sent where
  sessionId : String
  request : EncodeRequest
  deriving DecidableEq

section Sessions

variable (encode : List EncodeRequest → Except String EncodeResponse) (ms : Nat → Nat)

def ingestSession (state : List Sent × IngestAggregate) (entry : Session × Nat) :
    List Sent × IngestAggregate :=
  let (session, i) := entry
  let (sent, result) := ingest encode (ms i) (state.1.map (·.request)) session.turns
  (state.1 ++ sent.map fun request => ⟨session.sessionId, request⟩,
    match result with
    | .ok out => state.2.add out
    | .error _ => { state.2 with failed := true })

def ingestSessions (inst : EvalInstance) : List Sent × IngestAggregate :=
  inst.sessions.zipIdx.foldl (ingestSession encode ms) ([], .zero)

structure SentFor (session : Session) (part : List Sent) : Prop where
  requests : part.map (·.request) <+: Harness.requests session.turns
  label : ∀ sent ∈ part, sent.sessionId = session.sessionId

theorem ingestSession_sent (state : List Sent × IngestAggregate) (entry : Session × Nat) :
    ∃ part, (ingestSession encode ms state entry).1 = state.1 ++ part ∧ SentFor entry.1 part := by
  obtain ⟨session, i⟩ := entry
  let sent := (ingest encode (ms i) (state.1.map (·.request)) session.turns).1
  refine ⟨sent.map fun request => ⟨session.sessionId, request⟩, rfl, ?_, ?_⟩
  · rw [List.map_map]
    exact (List.map_id sent).symm ▸ ingest_sent encode (ms i) _ session.turns
  · intro sent member
    obtain ⟨request, -, rfl⟩ := List.mem_map.mp member
    rfl

theorem foldl_ingestSession_sent (entries : List (Session × Nat))
    (state : List Sent × IngestAggregate) :
    ∃ parts, (entries.foldl (ingestSession encode ms) state).1 = state.1 ++ parts.flatten ∧
      List.Forall₂ SentFor (entries.map Prod.fst) parts := by
  induction entries generalizing state with
  | nil => exact ⟨[], by simp, .nil⟩
  | cons entry entries ih =>
    obtain ⟨part, first, here⟩ := ingestSession_sent encode ms state entry
    obtain ⟨parts, rest, each⟩ := ih (ingestSession encode ms state entry)
    refine ⟨part :: parts, ?_, .cons here each⟩
    rw [List.foldl_cons, rest, first, List.flatten_cons, List.append_assoc]

-- The log of a conversation is one block a session, in the order of its sessions.
theorem ingestSessions_sent (inst : EvalInstance) :
    ∃ parts, (ingestSessions encode ms inst).1 = parts.flatten ∧
      List.Forall₂ SentFor inst.sessions parts := by
  have blocks := foldl_ingestSession_sent encode ms inst.sessions.zipIdx ([], .zero)
  rwa [List.zipIdx_map_fst] at blocks

end Sessions

/-- Per-conversation write state threaded from ingest to the ledger. -/
structure ConvWrite where
  latencyMs : Nat
  attempted : Nat
  stored : Nat
  deduplicated : Nat
  ingestFailed : Bool
  storedIds : List WireMemoryId
  storedTexts : List String

def ConvWrite.skipped : ConvWrite := ⟨0, 0, 0, 0, false, [], []⟩

def ConvWrite.fromIngest (ingest : IngestAggregate) : ConvWrite where
  latencyMs := ingest.latencyMs
  attempted := ingest.attempted
  stored := ingest.storedIds.length
  deduplicated := ingest.deduplicated
  ingestFailed := ingest.failed
  storedIds := ingest.storedIds
  storedTexts := ingest.storedTexts

def mintOrCached (mint : WireUuid → Except String String) (tokens : TreeMap WireUuid String)
    (spaceId : WireUuid) : Except HarnessError (String × TreeMap WireUuid String) :=
  match tokens[spaceId]? with
  | some token => .ok (token, tokens)
  | none =>
    match mint spaceId with
    | .ok token => .ok (token, tokens.insert spaceId token)
    | .error e => .error (.mint e)

structure Planned where
  convKey : String
  idxs : List Nat
  space : Option (WireUuid × String)
  reason : String

/-- What phase 0 threads from one conversation to the next. -/
structure Phase0 where
  tokens : TreeMap WireUuid String
  persist : Option SpaceManifest
  planned : List Planned

structure IngestOutcome where
  convKey : String
  idxs : List Nat
  spaceId : Option WireUuid
  cw : ConvWrite
  failure : Option String

structure Prepared where
  convKey : String
  idxs : List Nat
  spaceId : WireUuid
  cw : ConvWrite

def connectError (e : String) : String := "connect failed: " ++ (HarnessError.sdk e).display

namespace Run

variable (run : Run)

def resolveSpace (convKey : String) : Option WireUuid × String :=
  match run.config.readOnlySpaces with
  | some manifest =>
    match manifest.spaceFor convKey with
    | some space => (some space, "")
    | none => (none, "read-only: no persisted space for conversation")
  | none => (some (run.world.newId convKey), "")

def planConversation (s : Phase0) (group : String × List Nat) : Phase0 :=
  let (convKey, idxs) := group
  let (spaceId, why) := run.resolveSpace convKey
  let minted := spaceId.bind fun id =>
    match mintOrCached (run.world.mint convKey) s.tokens id with
    | .ok (token, tokens) => some (id, token, tokens)
    | .error _ => none
  match minted with
  | some (id, token, tokens) =>
    { tokens := tokens
      persist := if run.isReadOnly then s.persist else s.persist.map (·.record convKey id)
      planned := s.planned ++ [⟨convKey, idxs, some (id, token), why⟩] }
  | none =>
    let reason := if why = "" then "data-plane key mint failed" else why
    { s with planned := s.planned ++ [⟨convKey, idxs, none, reason⟩] }

def beforePlans : Phase0 where
  tokens := ∅
  persist := run.config.persistSpaces.map fun _ =>
    SpaceManifest.new run.benchmarkId run.config.endpoint
  planned := []

def phase0 : Phase0 := run.groups.toList.foldl run.planConversation run.beforePlans

-- A read-only reconnect performs no write; else the first instance's sessions are written.
def convWrite (pl : Planned) : ConvWrite :=
  if run.isReadOnly then .skipped
  else .fromIngest (ingestSessions (run.world.encode pl.convKey) (run.world.ingestMs pl.convKey)
    (run.inst (pl.idxs.headD 0))).2

def ingestFuture (pl : Planned) : IngestOutcome :=
  match pl.space with
  | none => ⟨pl.convKey, pl.idxs, none, .skipped, some pl.reason⟩
  | some (spaceId, token) =>
    match run.world.connect pl.convKey spaceId token with
    | .error e => ⟨pl.convKey, pl.idxs, none, .skipped, some (connectError e)⟩
    | .ok _ => ⟨pl.convKey, pl.idxs, some spaceId, run.convWrite pl, none⟩

end Run

-- The two arms of the phase-1 merge: on to phase 2, or failed for a reason.
def IngestOutcome.settle (o : IngestOutcome) : Prepared ⊕ String :=
  match o.spaceId, o.failure with
  | some spaceId, none => .inl ⟨o.convKey, o.idxs, spaceId, o.cw⟩
  | _, failure => .inr (failure.getD "conversation unavailable")

end BrainEval.Runner
