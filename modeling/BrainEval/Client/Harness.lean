import Mathlib
import BrainEval.Core.Instance
import BrainEval.Lib.Str

set_option autoImplicit false

namespace BrainEval

open RustStr

abbrev WireUuid := Vector UInt8 16

abbrev WireMemoryId := Nat

structure EncodeRequest where
  text : String
  occurredAt : Option Nat
  deriving DecidableEq, Repr

structure EncodeResponse where
  memoryId : WireMemoryId
  wasDeduplicated : Bool

structure GraphEntity where
  name : String
  typeQname : String

structure GraphStatement where
  subjectName : String
  predicate : String
  objectLabel : String
  confidence : ℚ

structure GraphRelation where
  fromName : String
  predicate : String
  toName : String

structure GraphEnrichment where
  entities : List GraphEntity
  statements : List GraphStatement
  relations : List GraphRelation

inductive RetrieverNameWire where
  | semantic
  | lexical
  | graph

structure MemoryResult where
  memoryId : WireMemoryId
  text : String
  similarityScore : ℚ
  fusedScore : ℚ
  rerankScore : Option ℚ
  confidence : ℚ
  contributingRetrievers : List RetrieverNameWire
  graph : Option GraphEnrichment

inductive AnswerKindWire where
  | single
  | many
  | none
  deriving DecidableEq, Repr

inductive RecallScopeWire where
  | space
  | namespaceWide
  deriving DecidableEq, Repr

structure RecallRequest where
  cue : String
  maxResults : Nat
  includeText : Bool
  includeGraph : Bool
  scope : RecallScopeWire

structure RecallAnswer where
  answerKind : AnswerKindWire
  memories : List MemoryResult

inductive HarnessError where
  | sdk (message : String)
  | mint (message : String)

def HarnessError.display : HarnessError → String
  | .sdk message => "brain-db-sdk error: " ++ message
  | .mint message => "key mint failed: " ++ message

namespace Harness

-- `u64::saturating_add`.
def saturatingAdd (a b : Nat) : Nat := min (a + b) (2 ^ 64 - 1)

structure IngestOutcome where
  storedIds : List WireMemoryId
  storedTexts : List String
  attempted : Nat
  deduplicated : Nat
  latencyMs : Nat

structure RecallOutcome where
  answerKind : AnswerKindWire
  memories : List MemoryResult
  latencyMs : Nat

-- The turns `ingest` does not skip.
def isWritten (turn : TurnRecord) : Bool := turn.role = "user" && trim turn.content ≠ ""

def encodeRequest (turn : TurnRecord) : EncodeRequest := ⟨turn.content, turn.occurredAtUnixNanos⟩

def IngestOutcome.encoded (out : IngestOutcome) (turn : TurnRecord) (resp : EncodeResponse) :
    IngestOutcome :=
  if resp.wasDeduplicated then
    { out with attempted := out.attempted + 1, deduplicated := out.deduplicated + 1 }
  else
    { out with
      attempted := out.attempted + 1
      storedIds := out.storedIds ++ [resp.memoryId]
      storedTexts := out.storedTexts ++ [turn.content] }

/-- What one call sends, and its outcome; `encode` answers the last request of everything
the space was ever sent. -/
def ingestFrom (encode : List EncodeRequest → Except String EncodeResponse) :
    List TurnRecord → List EncodeRequest → List EncodeRequest → IngestOutcome →
      List EncodeRequest × Except HarnessError IngestOutcome
  | [], _, sent, out => (sent, .ok out)
  | turn :: turns, earlier, sent, out =>
    if isWritten turn then
      let sent := sent ++ [encodeRequest turn]
      match encode (earlier ++ sent) with
      | .ok resp => ingestFrom encode turns earlier sent (out.encoded turn resp)
      -- `?` leaves the loop and drops the counts of the whole call
      | .error e => (sent, .error (.sdk e))
    else ingestFrom encode turns earlier sent out

def ingest (encode : List EncodeRequest → Except String EncodeResponse) (latencyMs : Nat)
    (earlier : List EncodeRequest) (turns : List TurnRecord) :
    List EncodeRequest × Except HarnessError IngestOutcome :=
  ingestFrom encode turns earlier [] ⟨[], [], 0, 0, latencyMs⟩

def recallScoped (client : RecallRequest → Except String RecallAnswer) (latencyMs : Nat)
    (cue : String) (maxResults : Nat) (scope : RecallScopeWire) :
    Except HarnessError RecallOutcome :=
  match client ⟨cue, maxResults, true, false, scope⟩ with
  | .ok answer => .ok ⟨answer.answerKind, answer.memories, latencyMs⟩
  | .error e => .error (.sdk e)

def requests (turns : List TurnRecord) : List EncodeRequest :=
  (turns.filter isWritten).map encodeRequest

section Ingest

variable (encode : List EncodeRequest → Except String EncodeResponse)

theorem ingestFrom_sent (turns : List TurnRecord) (earlier sent : List EncodeRequest)
    (out : IngestOutcome) :
    ∃ mine, (ingestFrom encode turns earlier sent out).1 = sent ++ mine ∧
      mine <+: requests turns := by
  induction turns generalizing sent out with
  | nil => exact ⟨[], by simp [ingestFrom], List.nil_prefix⟩
  | cons turn turns ih =>
    unfold ingestFrom
    by_cases written : isWritten turn = true
    · rw [if_pos written]
      have first : requests (turn :: turns) = encodeRequest turn :: requests turns := by
        simp [requests, written]
      dsimp only
      split
      · next resp _ =>
        obtain ⟨mine, same, start⟩ := ih (sent ++ [encodeRequest turn]) (out.encoded turn resp)
        refine ⟨encodeRequest turn :: mine, ?_, ?_⟩
        · simp [same]
        · rw [first]
          exact List.cons_prefix_cons.mpr ⟨rfl, start⟩
      · refine ⟨[encodeRequest turn], rfl, ?_⟩
        rw [first]
        exact List.cons_prefix_cons.mpr ⟨rfl, List.nil_prefix⟩
    · rw [if_neg written]
      obtain ⟨mine, same, start⟩ := ih sent out
      refine ⟨mine, same, ?_⟩
      simpa [requests, written] using start

theorem ingest_sent (latencyMs : Nat) (earlier : List EncodeRequest) (turns : List TurnRecord) :
    (ingest encode latencyMs earlier turns).1 <+: requests turns := by
  obtain ⟨mine, same, start⟩ := ingestFrom_sent encode turns earlier [] ⟨[], [], 0, 0, latencyMs⟩
  rw [ingest, same]
  simpa using start

structure IngestOutcome.Balanced (out : IngestOutcome) : Prop where
  attempted : out.attempted = out.storedIds.length + out.deduplicated
  texts : out.storedTexts.length = out.storedIds.length

theorem IngestOutcome.Balanced.encoded {out : IngestOutcome} (balanced : out.Balanced)
    (turn : TurnRecord) (resp : EncodeResponse) : (out.encoded turn resp).Balanced := by
  obtain ⟨attempted, texts⟩ := balanced
  unfold IngestOutcome.encoded
  split
  · exact ⟨by simp [attempted, Nat.add_assoc], texts⟩
  · exact ⟨by simp [attempted, Nat.add_right_comm], by simp [texts]⟩

theorem ingestFrom_ok (turns : List TurnRecord) (earlier sent : List EncodeRequest)
    (out final : IngestOutcome) (balanced : out.Balanced)
    (done : (ingestFrom encode turns earlier sent out).2 = .ok final) :
    final.Balanced ∧ final.attempted = out.attempted + turns.countP isWritten ∧
      final.latencyMs = out.latencyMs := by
  induction turns generalizing sent out with
  | nil =>
    obtain rfl : out = final := by simpa [ingestFrom] using done
    exact ⟨balanced, by simp, rfl⟩
  | cons turn turns ih =>
    unfold ingestFrom at done
    by_cases written : isWritten turn = true
    · rw [if_pos written] at done
      dsimp only at done
      split at done
      · next resp _ =>
        obtain ⟨kept, count, latency⟩ := ih _ _ (balanced.encoded turn resp) done
        have one : (out.encoded turn resp).attempted = out.attempted + 1 ∧
            (out.encoded turn resp).latencyMs = out.latencyMs := by
          unfold IngestOutcome.encoded
          split <;> exact ⟨rfl, rfl⟩
        refine ⟨kept, ?_, latency.trans one.2⟩
        rw [count, one.1, List.countP_cons_of_pos written]
        omega
      · simp at done
    · rw [if_neg written] at done
      rw [List.countP_cons_of_neg written]
      exact ih _ _ balanced done

theorem ingest_ok {latencyMs : Nat} {earlier : List EncodeRequest} {turns : List TurnRecord}
    {out : IngestOutcome} (done : (ingest encode latencyMs earlier turns).2 = .ok out) :
    out.Balanced ∧ out.attempted = turns.countP isWritten ∧ out.latencyMs = latencyMs := by
  have result := ingestFrom_ok encode turns earlier [] _ out ⟨rfl, rfl⟩ done
  simpa using result

end Ingest

end Harness

end BrainEval
