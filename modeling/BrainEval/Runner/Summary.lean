import Mathlib
import BrainEval.Lib.Journal
import BrainEval.Runner.Pipeline

set_option autoImplicit false

namespace BrainEval.Runner

open RustStr Journal Metrics

-- How `brain-eval summary` ends, with what it prints.
inductive SummaryExit where
  | usage
  | cannotRead (path error : String)
  | nothingParseable (path : String)
  | summary (path : String) (parsed : List QuestionResult) (unparseable : Nat)
      (metrics : EvalMetrics)

def SummaryExit.code : SummaryExit → Nat
  | .usage => 2
  | .cannotRead .. | .nothingParseable .. => 1
  | .summary .. => 0

noncomputable def summaryOf (U : UnicodeData) (fromStr : List Char → Option QuestionResult)
    (path : String) (text : Except String String) : SummaryExit :=
  match text with
  | .error e => .cannotRead path e
  | .ok text =>
    let found := readAll fromStr text.toList
    if found.records.isEmpty then .nothingParseable path
    else .summary path found.records found.unparseable (computeFullMetrics U found.records)

noncomputable def summaryCmd (U : UnicodeData) (fromStr : List Char → Option QuestionResult)
    (readToString : String → Except String String) (rest : List String) : SummaryExit :=
  match rest.find? fun arg => !"--".toList.isPrefixOf arg.toList with
  | none => .usage
  | some path => summaryOf U fromStr path (readToString path)

-- The first bytes of a file: no text where they end inside a character.
def readToString (file : List Char) (n : Nat) : Except String String :=
  match takeBytes file n with
  | some cut => .ok (String.ofList cut)
  | none => .error "stream did not contain valid UTF-8"

namespace Run.Schedule

variable {run : Run} (s : run.Schedule) (codec : LineCodec QuestionResult)

-- What `tracker.record` has written once every result of the run is pushed.
def sidecar : List Char := codec.text s.questionResults

-- How many bytes of it are there after a crash that leaves at most so many.
def survived (n : Nat) : Nat := min n (byteLen (s.sidecar codec))

-- The results whose lines are whole in what is there.
def streamed (n : Nat) : List QuestionResult :=
  s.questionResults.take (codec.whole s.questionResults (s.survived codec n))

theorem survived_whole {n : Nat} (whole : byteLen (s.sidecar codec) ≤ n) :
    s.survived codec n = byteLen (s.sidecar codec) := min_eq_right whole

variable {s codec} (reads : ∀ r ∈ s.questionResults, codec.Reads r)

include reads

theorem summaryOf_cut (U : UnicodeData) {path : String} {n : Nat} {cut : List Char}
    (kept : takeBytes (s.sidecar codec) (s.survived codec n) = some cut) :
    summaryOf U codec.decode path (readToString (s.sidecar codec) (s.survived codec n)) =
      if s.streamed codec n = [] then .nothingParseable path
      else .summary path (s.streamed codec n)
        (if s.survived codec n ≤ byteLen (codec.text (s.streamed codec n)) then 0 else 1)
        (computeFullMetrics U (s.streamed codec n)) := by
  obtain ⟨rest, split, size⟩ := takeBytes_eq_some_iff.mp kept
  have torn : cut <+: codec.text s.questionResults := ⟨rest, split.symm⟩
  have found := LineCodec.readAll_cut reads torn
  rw [size] at found
  simp only [readToString, kept, summaryOf, String.toList_ofList, found, List.isEmpty_iff]
  rfl

theorem streamed_whole {n : Nat} (whole : byteLen (s.sidecar codec) ≤ n) :
    s.streamed codec n = s.questionResults := by
  have all : s.questionResults.length ≤
      codec.whole s.questionResults (s.survived codec n) := by
    rw [LineCodec.le_whole_iff reads le_rfl, List.take_length, survived_whole s codec whole]
    exact Nat.le_succ _
  exact List.take_of_length_le all

-- After a crash that cuts the sidecar at any byte: every result whose line is whole, at most one
-- line that is none, and the metrics of just these results.
theorem summary_recovers (U : UnicodeData) (path : String) (n : Nat) :
    (∀ j ≤ s.questionResults.length, j ≤ (s.streamed codec n).length ↔
      byteLen (codec.text (s.questionResults.take j)) ≤ s.survived codec n + 1) ∧
    summaryOf U codec.decode path (readToString (s.sidecar codec) (s.survived codec n)) =
      (if takeBytes (s.sidecar codec) (s.survived codec n) = none then
        .cannotRead path "stream did not contain valid UTF-8"
      else if s.streamed codec n = [] then .nothingParseable path
      else .summary path (s.streamed codec n)
        (if s.survived codec n ≤ byteLen (codec.text (s.streamed codec n)) then 0 else 1)
        (computeFullMetrics U (s.streamed codec n))) ∧
    (byteLen (s.sidecar codec) ≤ n → s.questionResults ≠ [] →
      summaryOf U codec.decode path (readToString (s.sidecar codec) (s.survived codec n)) =
        .summary path s.questionResults 0 (s.report U).metrics) := by
  refine ⟨fun j within => ?_, ?_, fun whole asked => ?_⟩
  · rw [streamed, List.length_take, Nat.le_min, LineCodec.le_whole_iff reads within]
    exact and_iff_left within
  · cases kept : takeBytes (s.sidecar codec) (s.survived codec n) with
    | none => simp [readToString, kept, summaryOf]
    | some cut =>
      rw [summaryOf_cut reads U kept]
      simp
  · have size := survived_whole s codec whole
    have kept : takeBytes (s.sidecar codec) (s.survived codec n) = some (s.sidecar codec) := by
      simpa [size] using takeBytes_append (s.sidecar codec) []
    rw [summaryOf_cut reads U kept, streamed_whole reads whole, if_neg asked, size, sidecar,
      if_pos le_rfl]
    rfl

end Run.Schedule

def twoAsked : Run :=
  plainRun World.silent [sampleInstance "q0" "a", sampleInstance "q1" "a"]

def jsonObject (fields : List (String × String)) : List Char :=
  '\x7b' :: (List.intercalate [','] (fields.map fun (key, value) =>
    '"' :: key.toList ++ '"' :: ':' :: value.toList) ++ ['\x7d'])

-- What `serde_json` writes for a question of this run.
def sampleFields (questionId : String) : List (String × String) :=
  [("question_id", "\"" ++ questionId ++ "\""), ("question_type", "\"single_hop\""),
    ("question", "\"Where does Ann live?\""), ("ground_truth", "\"Paris\""),
    ("system_answer", "\"I don't know.\""), ("answer_kind", "\"none\""),
    ("verdict", "\"incorrect\""), ("score", "0.0"), ("write_latency_ms", "1"),
    ("read_latency_ms", "1"), ("tokens_write", "0"), ("tokens_read", "0"),
    ("memories_retrieved", "0"), ("retrieved_memory_contents", "[]"),
    ("judge_reasoning", "\"heuristic: token overlap 0/1 = 0.00\""), ("context_supported", "null"),
    ("context_support_reasoning", "\"\""), ("ingestion_failed", "false"),
    ("retrieval_failed", "false"), ("write_attempted", "1"), ("write_stored", "1"),
    ("write_deduplicated", "0")]

def sampleCodec : LineCodec QuestionResult where
  encode r := jsonObject (sampleFields r.questionId)
  decode line := twoAsked.sequential.questionResults.find?
    fun r => jsonObject (sampleFields r.questionId) = line

theorem sampleCodec_reads : ∀ r ∈ twoAsked.sequential.questionResults, sampleCodec.Reads r := by
  have apart : ∀ r ∈ twoAsked.sequential.questionResults,
      ∀ r' ∈ twoAsked.sequential.questionResults,
        sampleCodec.encode r' <+: sampleCodec.encode r → r' = r := by decide +kernel
  have unbroken : ∀ r ∈ twoAsked.sequential.questionResults,
      ((sampleCodec.encode r).all fun c => c ≠ '\n' ∧ c ≠ '\r') = true := by decide +kernel
  intro r member
  refine ⟨?_, fun {cut} torn short => ?_, fun {c} listed => ?_, ?_⟩
  · have known : (sampleCodec.decode (sampleCodec.encode r)).isSome = true :=
      List.find?_isSome.mpr ⟨r, member, decide_eq_true rfl⟩
    obtain ⟨r', found⟩ := Option.isSome_iff_exists.mp known
    have same : jsonObject (sampleFields r'.questionId) = sampleCodec.encode r := by
      simpa using List.find?_some found
    obtain rfl := apart r member r' (List.mem_of_find?_eq_some found) (same ▸ List.prefix_refl _)
    exact found
  · refine List.find?_eq_none.mpr fun r' listed => ?_
    rw [decide_eq_true_iff]
    rintro rfl
    exact short (by rw [apart r member r' listed torn]; rfl)
  · simpa using List.all_eq_true.mp (unbroken r member) c listed
  · exact ⟨'\x7b', _, rfl, by decide⟩

theorem torn_summary :
    summaryOf .ascii sampleCodec.decode "run.partial.jsonl"
        (readToString (twoAsked.sequential.sidecar sampleCodec)
          (twoAsked.sequential.survived sampleCodec 900)) =
      .summary "run.partial.jsonl" (twoAsked.sequential.questionResults.take 1) 1
        (computeFullMetrics .ascii (twoAsked.sequential.questionResults.take 1)) := by
  have readable : takeBytes (twoAsked.sequential.sidecar sampleCodec)
      (twoAsked.sequential.survived sampleCodec 900) ≠ none := by decide +kernel
  have first : twoAsked.sequential.streamed sampleCodec 900 =
      twoAsked.sequential.questionResults.take 1 := by decide +kernel
  have longer : ¬ twoAsked.sequential.survived sampleCodec 900 ≤
      byteLen (sampleCodec.text (twoAsked.sequential.streamed sampleCodec 900)) := by
    decide +kernel
  have asked : twoAsked.sequential.streamed sampleCodec 900 ≠ [] := by decide +kernel
  rw [(Run.Schedule.summary_recovers sampleCodec_reads .ascii _ 900).2.1, if_neg readable,
    if_neg asked, if_neg longer, first]

end BrainEval.Runner
