import Mathlib
import BrainEval.Runner.Ingest

set_option autoImplicit false

namespace BrainEval.Harness

abbrev Reply := EncodeRequest × Except String EncodeResponse

section Replies

variable (encode : List EncodeRequest → Except String EncodeResponse)

-- Each request with the reply it gets when sent after all the others.
def replies : List EncodeRequest → List EncodeRequest → List Reply
  | _, [] => []
  | earlier, request :: requests =>
    (request, encode (earlier ++ [request])) :: replies (earlier ++ [request]) requests

theorem replies_append (earlier first rest : List EncodeRequest) :
    replies encode earlier (first ++ rest) =
      replies encode earlier first ++ replies encode (earlier ++ first) rest := by
  induction first generalizing earlier with
  | nil => simp [replies]
  | cons request first ih => simp [replies, ih]

@[simp] theorem replies_length (earlier requests : List EncodeRequest) :
    (replies encode earlier requests).length = requests.length := by
  induction requests generalizing earlier with
  | nil => rfl
  | cons request requests ih => simp [replies, ih]

theorem accepted_of_always (always : ∀ sent, ∃ resp, encode sent = .ok resp)
    (earlier requests : List EncodeRequest) :
    ∀ reply ∈ replies encode earlier requests, ∃ resp, reply.2 = .ok resp := by
  induction requests generalizing earlier with
  | nil => exact fun _ member => nomatch member
  | cons request requests ih => exact List.forall_mem_cons.mpr ⟨always _, ih _⟩

end Replies

def Reply.accepted (reply : Reply) : Bool :=
  match reply.2 with
  | .ok _ => true
  | .error _ => false

theorem Reply.accepted_of_ok {reply : Reply} {resp : EncodeResponse} (ok : reply.2 = .ok resp) :
    reply.accepted = true := by
  simp [Reply.accepted, ok]

def Reply.merged (reply : Reply) : Bool :=
  match reply.2 with
  | .ok resp => resp.wasDeduplicated
  | .error _ => false

def Reply.fresh (reply : Reply) : Option (WireMemoryId × String) :=
  match reply.2 with
  | .ok resp => if resp.wasDeduplicated then none else some (resp.memoryId, reply.1.text)
  | .error _ => none

def freshOf (log : List Reply) : List (WireMemoryId × String) := log.filterMap Reply.fresh

def mergedOf (log : List Reply) : Nat := log.countP Reply.merged

def IngestOutcome.counting (out : IngestOutcome) (log : List Reply) : IngestOutcome where
  storedIds := out.storedIds ++ (freshOf log).map Prod.fst
  storedTexts := out.storedTexts ++ (freshOf log).map Prod.snd
  attempted := out.attempted + log.length
  deduplicated := out.deduplicated + mergedOf log
  latencyMs := out.latencyMs

theorem IngestOutcome.counting_cons (out : IngestOutcome) (turn : TurnRecord)
    (resp : EncodeResponse) (log : List Reply) :
    (out.encoded turn resp).counting log =
      out.counting ((encodeRequest turn, .ok resp) :: log) := by
  unfold IngestOutcome.encoded
  by_cases merged : resp.wasDeduplicated = true
  · simp [merged, IngestOutcome.counting, freshOf, mergedOf, Reply.fresh, Reply.merged,
      Nat.add_assoc, Nat.add_comm 1]
  · simp [merged, IngestOutcome.counting, freshOf, mergedOf, Reply.fresh, Reply.merged,
      encodeRequest, Nat.add_assoc, Nat.add_comm 1]

section Ingest

variable (encode : List EncodeRequest → Except String EncodeResponse)

/-- A call that fails after the requests before it were accepted. -/
def FailsWithin (earlier requests : List EncodeRequest) : Prop :=
  ∃ reply ∈ replies encode earlier requests, reply.accepted = false

theorem not_failsWithin_iff {earlier requests : List EncodeRequest} :
    ¬ FailsWithin encode earlier requests ↔
      ∀ reply ∈ replies encode earlier requests, reply.accepted = true := by
  simp [FailsWithin]

theorem failsWithin_append (earlier first rest : List EncodeRequest) :
    FailsWithin encode earlier (first ++ rest) ↔
      FailsWithin encode earlier first ∨ FailsWithin encode (earlier ++ first) rest := by
  simp only [FailsWithin, replies_append, List.mem_append, or_and_right, exists_or]

section Accepted

variable {encode} {earlier : List EncodeRequest} {request : EncodeRequest} {resp : EncodeResponse}
  (met : encode (earlier ++ [request]) = .ok resp)

include met

theorem replies_cons_of_ok (rest : List EncodeRequest) :
    replies encode earlier (request :: rest) =
      (request, .ok resp) :: replies encode (earlier ++ [request]) rest := by
  rw [replies, met]

theorem failsWithin_cons_of_ok (rest : List EncodeRequest) :
    FailsWithin encode earlier (request :: rest) ↔
      FailsWithin encode (earlier ++ [request]) rest := by
  rw [FailsWithin, replies_cons_of_ok met, List.exists_mem_cons_iff]
  simp [FailsWithin, Reply.accepted]

end Accepted

theorem failsWithin_of_error {earlier : List EncodeRequest} {request : EncodeRequest} {e : String}
    (met : encode (earlier ++ [request]) = .error e) :
    FailsWithin encode earlier [request] := by
  refine ⟨(request, .error e), ?_, rfl⟩
  rw [replies, met]
  exact List.mem_cons_self

-- One pass over a session either counts every reply, or stops at the first failure uncounted.
theorem ingestFrom_cases (turns : List TurnRecord) (earlier sent : List EncodeRequest)
    (out : IngestOutcome) :
    (¬ FailsWithin encode (earlier ++ sent) (requests turns) ∧
        ingestFrom encode turns earlier sent out = (sent ++ requests turns,
          .ok (out.counting (replies encode (earlier ++ sent) (requests turns))))) ∨
      ∃ mine e, mine <+: requests turns ∧ mine ≠ [] ∧ FailsWithin encode (earlier ++ sent) mine ∧
        ingestFrom encode turns earlier sent out = (sent ++ mine, .error e) := by
  induction turns generalizing sent out with
  | nil =>
    refine Or.inl ⟨?_, ?_⟩
    · simp [FailsWithin, requests, replies]
    · simp [ingestFrom, requests, replies, IngestOutcome.counting, freshOf, mergedOf]
  | cons turn turns ih =>
    by_cases written : isWritten turn = true
    · have first : requests (turn :: turns) = encodeRequest turn :: requests turns := by
        simp [requests, written]
      rw [first]
      unfold ingestFrom
      rw [if_pos written]
      dsimp only
      rw [← List.append_assoc]
      cases met : encode (earlier ++ sent ++ [encodeRequest turn]) with
      | error e =>
        exact Or.inr ⟨[encodeRequest turn], .sdk e, by simp, by simp,
          failsWithin_of_error encode met, rfl⟩
      | ok resp =>
        dsimp only
        have fails := failsWithin_cons_of_ok met
        rcases ih (sent ++ [encodeRequest turn]) (out.encoded turn resp) with
          ⟨none, done⟩ | ⟨mine, e, start, some, failed, done⟩
        · rw [← List.append_assoc] at none done
          refine Or.inl ⟨(fails _).not.mpr none, ?_⟩
          rw [done, replies_cons_of_ok met, ← IngestOutcome.counting_cons]
          simp
        · rw [← List.append_assoc] at failed
          refine Or.inr ⟨encodeRequest turn :: mine, e, ?_, by simp, (fails _).mpr failed, ?_⟩
          · exact List.cons_prefix_cons.mpr ⟨rfl, start⟩
          · rw [done]
            simp
    · have skipped : requests (turn :: turns) = requests turns := by simp [requests, written]
      rw [skipped]
      unfold ingestFrom
      rw [if_neg written]
      exact ih sent out

theorem ingest_cases (latencyMs : Nat) (earlier : List EncodeRequest) (turns : List TurnRecord) :
    (¬ FailsWithin encode earlier (requests turns) ∧
        ingest encode latencyMs earlier turns = (requests turns,
          .ok (IngestOutcome.counting ⟨[], [], 0, 0, latencyMs⟩
            (replies encode earlier (requests turns))))) ∨
      ∃ mine e, mine <+: requests turns ∧ mine ≠ [] ∧ FailsWithin encode earlier mine ∧
        ingest encode latencyMs earlier turns = (mine, .error e) := by
  have cases := ingestFrom_cases encode turns earlier [] ⟨[], [], 0, 0, latencyMs⟩
  simpa only [List.append_nil, List.nil_append, ingest] using cases

end Ingest

end BrainEval.Harness

namespace BrainEval.Runner

open Harness

def u64Max : Nat := 2 ^ 64 - 1

theorem saturatingAdd_min (a b : Nat) : saturatingAdd (min a u64Max) b = min (a + b) u64Max := by
  unfold saturatingAdd u64Max
  omega

structure IngestAggregate.Exact (agg : IngestAggregate) (log : List Reply) : Prop where
  attempted : agg.attempted = min log.length u64Max
  deduplicated : agg.deduplicated = min (mergedOf log) u64Max
  storedIds : agg.storedIds = (freshOf log).map Prod.fst
  storedTexts : agg.storedTexts = (freshOf log).map Prod.snd
  failed : agg.failed = false

theorem IngestAggregate.Exact.add {agg : IngestAggregate} {log : List Reply} (exact : agg.Exact log)
    (latencyMs : Nat) (more : List Reply) :
    (agg.add (IngestOutcome.counting ⟨[], [], 0, 0, latencyMs⟩ more)).Exact (log ++ more) := by
  obtain ⟨attempted, deduplicated, storedIds, storedTexts, failed⟩ := exact
  refine ⟨?_, ?_, ?_, ?_, failed⟩
  · simp [IngestAggregate.add, IngestOutcome.counting, attempted, saturatingAdd_min]
  · simp [IngestAggregate.add, IngestOutcome.counting, deduplicated, saturatingAdd_min, mergedOf]
  · simp [IngestAggregate.add, IngestOutcome.counting, storedIds, freshOf]
  · simp [IngestAggregate.add, IngestOutcome.counting, storedTexts, freshOf]

def sentRequests (log : List Sent) : List EncodeRequest := log.map (·.request)

theorem sentRequests_labelled (log : List Sent) (sessionId : String) (sent : List EncodeRequest) :
    sentRequests (log ++ sent.map fun request => ⟨sessionId, request⟩) =
      sentRequests log ++ sent := by
  simp [sentRequests, Function.comp_def]

section Sessions

variable (encode : List EncodeRequest → Except String EncodeResponse) (ms : Nat → Nat)

/-- Where a conversation's ingest stands once the requests `due` are behind it. -/
inductive Accounted (due : List EncodeRequest) (state : List Sent × IngestAggregate) : Prop where
  | whole (accepted : ¬ FailsWithin encode [] due) (sent : sentRequests state.1 = due)
      (exact : state.2.Exact (replies encode [] due))
  | short (failed : FailsWithin encode [] due)
      (seen : FailsWithin encode [] (sentRequests state.1))
      (flagged : state.2.failed = true) (fewer : state.2.attempted < state.1.length)

theorem ingestSession_eq (log : List Sent) (agg : IngestAggregate) (session : Session) (i : Nat) :
    ingestSession encode ms (log, agg) (session, i) =
      (log ++ (ingest encode (ms i) (sentRequests log) session.turns).1.map fun request =>
          ⟨session.sessionId, request⟩,
        match (ingest encode (ms i) (sentRequests log) session.turns).2 with
        | .ok out => agg.add out
        | .error _ => { agg with failed := true }) := rfl

section Step

variable {encode} {due : List EncodeRequest} {log : List Sent} {agg : IngestAggregate}
  (before : Accounted encode due (log, agg)) (sessionId : String)

include before

theorem Accounted.accept {more : List EncodeRequest}
    (none : ¬ FailsWithin encode (sentRequests log) more) (latencyMs : Nat) :
    Accounted encode (due ++ more) (log ++ more.map fun request => ⟨sessionId, request⟩,
      agg.add (IngestOutcome.counting ⟨[], [], 0, 0, latencyMs⟩
        (replies encode (sentRequests log) more))) := by
  cases before with
  | whole accepted sent exact =>
    obtain rfl : sentRequests log = due := sent
    refine .whole ?_ (sentRequests_labelled log sessionId _) ?_
    · rw [failsWithin_append, List.nil_append]
      exact not_or.mpr ⟨accepted, none⟩
    · rw [replies_append, List.nil_append]
      exact exact.add latencyMs _
  | short failed seen flagged fewer =>
    refine .short ((failsWithin_append ..).mpr (Or.inl failed)) ?_ flagged ?_
    · rw [sentRequests_labelled, failsWithin_append]
      exact Or.inl seen
    · have added : saturatingAdd agg.attempted more.length ≤ agg.attempted + more.length :=
        Nat.min_le_left _ _
      simp only [IngestAggregate.add, IngestOutcome.counting, replies_length, Nat.zero_add,
        List.length_append, List.length_map] at fewer ⊢
      omega

-- A failing session adds its calls to the log and nothing to the counts; no later session
-- makes up for it.
theorem Accounted.fail {mine more : List EncodeRequest} (start : mine <+: more) (some : mine ≠ [])
    (failing : FailsWithin encode (sentRequests log) mine) :
    Accounted encode (due ++ more) (log ++ mine.map fun request => ⟨sessionId, request⟩,
      { agg with failed := true }) := by
  obtain ⟨rest, rfl⟩ := start
  have longer : 0 < mine.length := List.length_pos_iff.mpr some
  rw [← List.append_assoc]
  cases before with
  | whole accepted sent exact =>
    obtain rfl : sentRequests log = due := sent
    refine .short ?_ ?_ rfl ?_
    · simp only [failsWithin_append, List.nil_append]
      exact Or.inl (Or.inr failing)
    · rw [sentRequests_labelled, failsWithin_append, List.nil_append]
      exact Or.inr failing
    · have attempted := exact.attempted
      rw [replies_length, sentRequests, List.length_map] at attempted
      have below : agg.attempted ≤ log.length := attempted ▸ Nat.min_le_left _ _
      simp only [List.length_append, List.length_map]
      omega
  | short failed seen flagged fewer =>
    refine .short ?_ ?_ rfl ?_
    · simp only [failsWithin_append]
      exact Or.inl (Or.inl failed)
    · rw [sentRequests_labelled, failsWithin_append]
      exact Or.inl seen
    · simp only [List.length_append, List.length_map] at fewer ⊢
      omega

end Step

theorem ingestSession_accounted {due : List EncodeRequest} {state : List Sent × IngestAggregate}
    (before : Accounted encode due state) (entry : Session × Nat) :
    Accounted encode (due ++ requests entry.1.turns) (ingestSession encode ms state entry) := by
  obtain ⟨log, agg⟩ := state
  obtain ⟨session, i⟩ := entry
  rw [ingestSession_eq]
  rcases ingest_cases encode (ms i) (sentRequests log) session.turns with
    ⟨none, done⟩ | ⟨mine, e, start, some, failing, done⟩
  · rw [done]
    exact before.accept session.sessionId none (ms i)
  · rw [done]
    exact before.fail session.sessionId start some failing

theorem foldl_ingestSession_accounted (entries : List (Session × Nat)) {due : List EncodeRequest}
    {state : List Sent × IngestAggregate} (before : Accounted encode due state) :
    Accounted encode (due ++ entries.flatMap fun entry => requests entry.1.turns)
      (entries.foldl (ingestSession encode ms) state) := by
  induction entries generalizing due state with
  | nil => simpa using before
  | cons entry entries ih =>
    rw [List.foldl_cons, List.flatMap_cons, ← List.append_assoc]
    exact ih (ingestSession_accounted encode ms before entry)

def requestsOf (inst : EvalInstance) : List EncodeRequest :=
  inst.sessions.flatMap fun session => requests session.turns

theorem ingestSessions_accounted (inst : EvalInstance) :
    Accounted encode (requestsOf inst) (ingestSessions encode ms inst) := by
  have start : Accounted encode [] ([], .zero) :=
    .whole (by simp [FailsWithin, replies]) rfl ⟨rfl, rfl, rfl, rfl, rfl⟩
  have all := foldl_ingestSession_accounted encode ms inst.sessions.zipIdx start
  have due : (inst.sessions.zipIdx.flatMap fun entry => requests entry.1.turns) =
      requestsOf inst := by
    conv_rhs => rw [requestsOf, ← List.zipIdx_map_fst 0 inst.sessions, List.flatMap_map]
  rwa [List.nil_append, due] at all

theorem ingestSessions_failed_iff (inst : EvalInstance) :
    (ingestSessions encode ms inst).2.failed = false ↔
      ∀ reply ∈ replies encode [] (requestsOf inst), reply.accepted = true := by
  cases ingestSessions_accounted encode ms inst with
  | whole accepted _ exact => simpa [exact.failed] using (not_failsWithin_iff encode).mp accepted
  | short failed _ flagged _ =>
    refine iff_of_false (by simp [flagged]) fun accepted => ?_
    exact (not_failsWithin_iff encode).mpr accepted failed

theorem sentRequests_of_accepted {inst : EvalInstance}
    (accepted : ∀ reply ∈ replies encode [] (requestsOf inst), reply.accepted = true) :
    sentRequests (ingestSessions encode ms inst).1 = requestsOf inst := by
  cases ingestSessions_accounted encode ms inst with
  | whole _ sent _ => exact sent
  | short failed _ _ _ => exact absurd failed ((not_failsWithin_iff encode).mpr accepted)

end Sessions

/-- The write record of a conversation against the calls its ingest made. -/
structure ConvWrite.Accounts (cw : ConvWrite) (log : List Reply) : Prop where
  attempted : cw.attempted = log.length
  stored : cw.stored = (freshOf log).length
  deduplicated : cw.deduplicated = mergedOf log
  storedIds : cw.storedIds = (freshOf log).map Prod.fst
  storedTexts : cw.storedTexts = (freshOf log).map Prod.snd
  paired : cw.storedIds.length = cw.storedTexts.length
  ingestFailed : cw.ingestFailed = true ↔ ∃ reply ∈ log, reply.accepted = false

theorem ingest_accounting_iff (encode : List EncodeRequest → Except String EncodeResponse)
    (ms : Nat → Nat) (inst : EvalInstance) :
    (ConvWrite.fromIngest (ingestSessions encode ms inst).2).Accounts
        (replies encode [] (sentRequests (ingestSessions encode ms inst).1)) ↔
      (∀ reply ∈ replies encode [] (requestsOf inst), reply.accepted = true) ∧
        (requestsOf inst).length ≤ u64Max := by
  have sentLength : (sentRequests (ingestSessions encode ms inst).1).length =
      (ingestSessions encode ms inst).1.length := List.length_map _
  cases ingestSessions_accounted encode ms inst with
  | whole accepted sent exact =>
    have accepted := (not_failsWithin_iff encode).mp accepted
    rw [sent]
    constructor
    · intro accounts
      have attempted := accounts.attempted.symm.trans exact.attempted
      rw [replies_length] at attempted
      exact ⟨accepted, by omega⟩
    · rintro ⟨-, small⟩
      have counted : mergedOf (replies encode [] (requestsOf inst)) ≤ u64Max :=
        (List.countP_le_length).trans (by rwa [replies_length])
      refine ⟨?_, ?_, ?_, exact.storedIds, exact.storedTexts, ?_, ?_⟩
      · rw [replies_length, ← Nat.min_eq_left small, ← replies_length encode []]
        exact exact.attempted
      · simp [ConvWrite.fromIngest, exact.storedIds]
      · rw [← Nat.min_eq_left counted]
        exact exact.deduplicated
      · simp [ConvWrite.fromIngest, exact.storedIds, exact.storedTexts]
      · simpa [ConvWrite.fromIngest, exact.failed] using accepted
  | short failed seen flagged fewer =>
    constructor
    · intro accounts
      have attempted := accounts.attempted
      rw [replies_length, sentLength] at attempted
      exact absurd attempted fewer.ne
    · rintro ⟨accepted, -⟩
      exact absurd failed ((not_failsWithin_iff encode).mpr accepted)

def refusesSecond (sent : List EncodeRequest) : Except String EncodeResponse :=
  if sent.length = 2 then .error "overloaded" else .ok ⟨sent.length, false⟩

def twoSessions : EvalInstance where
  questionId := "q0"
  question := "Where does Ann live?"
  answer := "Paris"
  questionType := .singleHop
  conversationId := none
  sessions :=
    [⟨"session_1", [⟨"user", "Ann lives in Paris", none⟩, ⟨"user", "Bob lives in Rome", none⟩]⟩,
      ⟨"session_2", [⟨"user", "Cay lives in Oslo", none⟩]⟩]

-- Three calls go out and two memories are stored; the record knows of one.
theorem refused_call_uncounts_its_session :
    (ingestSessions refusesSecond (fun _ => 0) twoSessions).1.length = 3 ∧
      (freshOf (replies refusesSecond [] (sentRequests
        (ingestSessions refusesSecond (fun _ => 0) twoSessions).1))).map Prod.fst = [1, 3] ∧
      (ConvWrite.fromIngest (ingestSessions refusesSecond (fun _ => 0) twoSessions).2).attempted =
        1 ∧
      (ConvWrite.fromIngest (ingestSessions refusesSecond (fun _ => 0) twoSessions).2).storedIds =
        [3] ∧
      ¬ (ConvWrite.fromIngest (ingestSessions refusesSecond (fun _ => 0) twoSessions).2).Accounts
        (replies refusesSecond [] (sentRequests
          (ingestSessions refusesSecond (fun _ => 0) twoSessions).1)) := by
  refine ⟨by decide +kernel, by decide +kernel, by decide +kernel, by decide +kernel, ?_⟩
  intro accounts
  exact absurd accounts.attempted (by decide +kernel)

end BrainEval.Runner
