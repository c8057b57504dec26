import Mathlib
import BrainEval.Runner.IngestAccounting

set_option autoImplicit false

namespace BrainEval.Staged

open RustStr Harness Runner

-- What the probe reads of an ENCODE response.
structure EncodeAck extends EncodeResponse where
  lsn : Nat

def turnTexts (sessions : List Session) : List String :=
  ((sessions.flatMap (·.turns)).filter fun t => t.role = "user" && trim t.content ≠ "").map
    (·.content)

def isDurable (resp : EncodeAck) : Bool :=
  0 < resp.lsn && resp.memoryId ≠ 0 && !resp.wasDeduplicated

section Write

variable (encode : List EncodeRequest → Except String EncodeAck)

def encodeTexts : List String → List EncodeRequest → Nat → List EncodeRequest × Except String Nat
  | [], sent, durable => (sent, .ok durable)
  | text :: texts, sent, durable =>
    -- the builder is given the text alone
    let sent := sent ++ [⟨text, none⟩]
    match encode sent with
    | .ok resp => encodeTexts texts sent (if isDurable resp then durable + 1 else durable)
    | .error e => (sent, .error e)

-- The write part of `run_staged`: what goes out for a conversation, and how many writes are
-- durable.
def writeConversation (sessions : List Session) : List EncodeRequest × Except String Nat :=
  encodeTexts encode (turnTexts sessions) [] 0

theorem encodeTexts_sent {texts : List String} {sent : List EncodeRequest} {durable count : Nat}
    (done : (encodeTexts encode texts sent durable).2 = .ok count) :
    (encodeTexts encode texts sent durable).1 = sent ++ texts.map fun text => ⟨text, none⟩ := by
  induction texts generalizing sent durable with
  | nil => simp [encodeTexts]
  | cons text texts ih =>
    rw [encodeTexts] at done ⊢
    cases answered : encode (sent ++ [⟨text, none⟩]) with
    | ok resp =>
      simp only [answered] at done ⊢
      rw [ih done, List.map_cons, List.append_assoc, List.singleton_append]
    | error e => simp [answered] at done

end Write

def writtenTurns (sessions : List Session) : List TurnRecord :=
  sessions.flatMap fun session => session.turns.filter isWritten

theorem turnTexts_eq (sessions : List Session) :
    turnTexts sessions = (writtenTurns sessions).map (·.content) := by
  rw [turnTexts, writtenTurns, List.filter_flatMap]
  rfl

theorem requestsOf_eq (inst : EvalInstance) :
    requestsOf inst = (writtenTurns inst.sessions).map encodeRequest := by
  rw [requestsOf, writtenTurns, List.map_flatMap]
  rfl

theorem sentRequests_of_clean {encode : List EncodeRequest → Except String EncodeResponse}
    {ms : Nat → Nat} {inst : EvalInstance}
    (clean : (ingestSessions encode ms inst).2.failed = false) :
    sentRequests (ingestSessions encode ms inst).1 = requestsOf inst :=
  sentRequests_of_accepted encode ms ((ingestSessions_failed_iff encode ms inst).mp clean)

theorem staged_sends_as_runner_iff (ack : List EncodeRequest → Except String EncodeAck)
    (encode : List EncodeRequest → Except String EncodeResponse) (ms : Nat → Nat)
    (inst : EvalInstance) {durable : Nat}
    (done : (writeConversation ack inst.sessions).2 = .ok durable)
    (clean : (ingestSessions encode ms inst).2.failed = false) :
    (writeConversation ack inst.sessions).1 = sentRequests (ingestSessions encode ms inst).1 ↔
      ∀ session ∈ inst.sessions, ∀ turn ∈ session.turns, isWritten turn = true →
        turn.occurredAtUnixNanos = none := by
  have staged : (writeConversation ack inst.sessions).1 =
      (writtenTurns inst.sessions).map fun turn => ⟨turn.content, none⟩ := by
    rw [writeConversation, encodeTexts_sent ack done, List.nil_append, turnTexts_eq, List.map_map]
    rfl
  rw [staged, sentRequests_of_clean clean, requestsOf_eq, List.map_inj_left]
  constructor
  · intro same session member turn spoken written
    have listed : turn ∈ writtenTurns inst.sessions :=
      List.mem_flatMap.mpr ⟨session, member, List.mem_filter.mpr ⟨spoken, written⟩⟩
    exact (congrArg EncodeRequest.occurredAt (same turn listed)).symm
  · intro untimed turn listed
    obtain ⟨session, member, inside⟩ := List.mem_flatMap.mp listed
    obtain ⟨spoken, written⟩ := List.mem_filter.mp inside
    rw [encodeRequest, untimed session member turn spoken written]

def acks (sent : List EncodeRequest) : Except String EncodeAck := .ok ⟨⟨sent.length, false⟩, 1⟩

def accepts (sent : List EncodeRequest) : Except String EncodeResponse := .ok ⟨sent.length, false⟩

theorem untimed_sessions_sent_alike :
    (writeConversation acks twoSessions.sessions).1 =
      sentRequests (ingestSessions accepts (fun _ => 0) twoSessions).1 := by
  have done : (writeConversation acks twoSessions.sessions).2 = .ok 3 := by decide +kernel
  have clean : (ingestSessions accepts (fun _ => 0) twoSessions).2.failed = false := by
    decide +kernel
  exact (staged_sends_as_runner_iff acks accepts _ twoSessions done clean).mpr (by decide)

def dated : EvalInstance :=
  { twoSessions with
    sessions := [⟨"session_1",
      [⟨"user", "[8 May, 2023] Ann: I moved yesterday.", some 1683504000000000000⟩]⟩] }

theorem event_time_not_sent :
    (writeConversation acks dated.sessions).2 = .ok 1 ∧
      (ingestSessions accepts (fun _ => 0) dated).2.failed = false ∧
      (writeConversation acks dated.sessions).1 ≠
        sentRequests (ingestSessions accepts (fun _ => 0) dated).1 :=
  ⟨by decide +kernel, by decide +kernel, by decide +kernel⟩

end BrainEval.Staged
