import Mathlib
import BrainEval.Report.Html

set_option autoImplicit false

namespace BrainEval

open Markup RustStr Metrics

def BenchmarkMeta.blank (info : BenchmarkMeta) : BenchmarkMeta :=
  { info with
    benchmarkId := "", benchmarkName := "", benchmarkUrl := "", judgeType := ""
    judgePromptVersion := "", judgePromptSha256 := "", brainVersion := "" }

def CompetitorRow.blank (row : CompetitorRow) : CompetitorRow :=
  { row with system := "", source := "", note := "" }

def QuestionResult.blank (q : QuestionResult) : QuestionResult :=
  { q with
    questionId := "", question := "", groundTruth := "", systemAnswer := ""
    retrievedMemoryContents := [], judgeReasoning := "", contextSupportReasoning := "" }

def Metrics.EvalMetrics.overall (m : EvalMetrics) : EvalMetrics := { m with perDimension := ∅ }

namespace Html

/-- Two reports that differ in their texts alone; the benchmark url is given in both or in
neither. -/
structure SameShape (r r' : BenchmarkReport) : Prop where
  runMeta : r.runMeta.blank = r'.runMeta.blank
  url : r.runMeta.benchmarkUrl.isEmpty = r'.runMeta.benchmarkUrl.isEmpty
  metrics : r.metrics.overall = r'.metrics.overall
  dimensions : r.metrics.perDimension.toList.map Prod.snd =
    r'.metrics.perDimension.toList.map Prod.snd
  competitors : r.competitors.map CompetitorRow.blank = r'.competitors.map CompetitorRow.blank
  perQuestion : r.perQuestion.map QuestionResult.blank = r'.perQuestion.map QuestionResult.blank

def entities : Entities where
  lead := '&'
  table := [('&', ['&', 'a', 'm', 'p', ';']), ('<', ['&', 'l', 't', ';']),
    ('>', ['&', 'g', 't', ';']), ('"', ['&', 'q', 'u', 'o', 't', ';']),
    ('\'', ['&', '#', '3', '9', ';'])]
  opens := by decide
  leads := by decide
  prefixFree := by decide

def decodeEntities (s : String) : String := String.ofList (entities.decode s.toList)

def isMarkup (c : Char) : Bool := c == '<' || c == '>' || c == '"'

theorem entities_table : entities.table =
    [('&', ['&', 'a', 'm', 'p', ';']), ('<', ['&', 'l', 't', ';']), ('>', ['&', 'g', 't', ';']),
      ('"', ['&', 'q', 'u', 'o', 't', ';']), ('\'', ['&', '#', '3', '9', ';'])] := rfl

theorem escChar_eq (c : Char) : escChar c = entities.encode c := by
  by_cases amp : c = '&'
  · subst amp; rfl
  by_cases lt : c = '<'
  · subst lt; rfl
  by_cases gt : c = '>'
  · subst gt; rfl
  by_cases quot : c = '"'
  · subst quot; rfl
  by_cases apos : c = '\''
  · subst apos; rfl
  have unlisted : entities.table.find? (·.1 == c) = none := by
    simp [entities_table, Ne.symm amp, Ne.symm lt, Ne.symm gt, Ne.symm quot, Ne.symm apos]
  rw [Entities.encode, unlisted]
  simp [escChar, amp, lt, gt, quot, apos]

theorem decode_esc (s : String) : decodeEntities (esc s) = s := by
  have encoded : s.toList.flatMap escChar = s.toList.flatMap entities.encode :=
    congrArg (List.flatMap · s.toList) (funext escChar_eq)
  rw [decodeEntities, esc, String.toList_ofList, encoded, Entities.decode_encode,
    String.ofList_toList]

theorem escChar_quiet (c : Char) : ∀ d ∈ escChar c, isMarkup d = false := by
  unfold escChar
  split_ifs with amp lt gt quot apos
  · simp [isMarkup]
  · simp [isMarkup]
  · simp [isMarkup]
  · simp [isMarkup]
  · simp [isMarkup]
  · simp [isMarkup, lt, gt, quot]

theorem esc_quiet (s : String) : ∀ c ∈ (esc s).toList, isMarkup c = false := by
  intro c member
  rw [esc, String.toList_ofList] at member
  obtain ⟨d, -, inside⟩ := List.mem_flatMap.mp member
  exact escChar_quiet d c inside

-- Rows whose shapes a part of their data decides.
theorem shape_flatMap {α κ : Type} (row : α → List Piece) (key : α → κ)
    (shaped : κ → List (Option String)) (rows : ∀ a, (row a).map Piece.shape = shaped (key a))
    {as bs : List α} (same : as.map key = bs.map key) :
    (as.flatMap row).map Piece.shape = (bs.flatMap row).map Piece.shape := by
  have keyed : ∀ as : List α, (as.flatMap row).map Piece.shape = (as.map key).flatMap shaped := by
    intro as
    rw [List.map_flatMap, List.flatMap_map]
    exact congrArg (List.flatMap · as) (funext rows)
  rw [keyed, keyed, same]

theorem isEmpty_of_map_eq {α κ : Type} {key : α → κ} {as bs : List α}
    (same : as.map key = bs.map key) : as.isEmpty = bs.isEmpty := by
  rw [← List.isEmpty_map (f := key), same, List.isEmpty_map]

section Shapes

variable (format : FloatFormat) {r r' : BenchmarkReport}

theorem head_shape (info info' : BenchmarkMeta) :
    (head info).map Piece.shape = (head info').map Piece.shape := rfl

theorem sourceItem_shape {info info' : BenchmarkMeta}
    (url : info.benchmarkUrl.isEmpty = info'.benchmarkUrl.isEmpty) :
    (sourceItem info).map Piece.shape = (sourceItem info').map Piece.shape := by
  rw [sourceItem, sourceItem, url]
  split_ifs <;> rfl

theorem header_shape (same : SameShape r r') (prompt prompt' : String) :
    (header r.runMeta prompt).map Piece.shape = (header r'.runMeta prompt').map Piece.shape := by
  have instances := congrArg BenchmarkMeta.instanceCount same.runMeta
  have started := congrArg BenchmarkMeta.runStartedUnixNanos same.runMeta
  simp only [BenchmarkMeta.blank] at instances started
  simp only [header, metaItem, List.flatten_cons, List.flatten_nil, List.map_append, List.map_cons,
    List.map_nil, Piece.shape, sourceItem_shape same.url, instances, started]

theorem fallbackWarning_eq (same : SameShape r r') :
    fallbackWarning r.runMeta = fallbackWarning r'.runMeta := by
  have blanked := congrArg fallbackWarning same.runMeta
  exact blanked

theorem cards_eq (same : SameShape r r') : cards format r.metrics = cards format r'.metrics := by
  have numbers := congrArg (cards format) same.metrics
  exact numbers

theorem latencyPanel_eq (same : SameShape r r') :
    latencyPanel format r.metrics = latencyPanel format r'.metrics := by
  have numbers := congrArg (latencyPanel format) same.metrics
  exact numbers

theorem retrievalPanel_eq (same : SameShape r r') :
    retrievalPanel format r.metrics = retrievalPanel format r'.metrics := by
  have numbers := congrArg (retrievalPanel format) same.metrics
  exact numbers

theorem dimensionRow_shape (tag : String) (d : DimensionMetrics) :
    (dimensionRow format tag d).map Piece.shape = (dimensionRow format "" d).map Piece.shape := by
  simp only [dimensionRow, List.map_cons, List.map_nil, Piece.shape]

theorem dimensionPanel_shape (same : SameShape r r') :
    (dimensionPanel format r.metrics).map Piece.shape =
      (dimensionPanel format r'.metrics).map Piece.shape := by
  have keyed : ∀ entry : String × DimensionMetrics,
      (dimensionRow format entry.1 entry.2).map Piece.shape =
        (dimensionRow format "" entry.2).map Piece.shape :=
    fun entry => dimensionRow_shape format entry.1 entry.2
  have rows := shape_flatMap _ Prod.snd (fun d => (dimensionRow format "" d).map Piece.shape) keyed
    same.dimensions
  simp only [dimensionPanel, isEmpty_of_map_eq same.dimensions]
  split_ifs
  · rfl
  · simp only [List.flatten_cons, List.flatten_nil, List.map_append, rows]

theorem competitorPanel_shape (same : SameShape r r') :
    (competitorPanel format r).map Piece.shape = (competitorPanel format r').map Piece.shape := by
  have rows := shape_flatMap (competitorRow format) CompetitorRow.blank
    (fun c => (competitorRow format c).map Piece.shape) (fun _ => rfl) same.competitors
  have accuracy : r.metrics.accuracy = r'.metrics.accuracy := by
    have numbers := congrArg EvalMetrics.accuracy same.metrics
    exact numbers
  simp only [competitorPanel, isEmpty_of_map_eq same.competitors, accuracy]
  split_ifs
  · rfl
  · simp only [List.flatten_cons, List.flatten_nil, List.map_append, rows]

theorem ledgerRows_eq (qs : List QuestionResult) :
    (qs.mapIdx ledgerRow).flatten = qs.zipIdx.flatMap fun (q, i) => ledgerRow i q := by
  rw [List.mapIdx_eq_zipIdx_map, ← List.flatMap_def]

theorem ledger_shape (same : SameShape r r') :
    (ledger r).map Piece.shape = (ledger r').map Piece.shape := by
  have numbered : r.perQuestion.zipIdx.map (Prod.map QuestionResult.blank id) =
      r'.perQuestion.zipIdx.map (Prod.map QuestionResult.blank id) := by
    rw [← List.zipIdx_map, ← List.zipIdx_map, same.perQuestion]
  have rows := shape_flatMap (fun (q, i) => ledgerRow i q) (Prod.map QuestionResult.blank id)
    (fun (q, i) => (ledgerRow i q).map Piece.shape) (fun _ => rfl) numbered
  have lengths : r.perQuestion.length = r'.perQuestion.length := by
    simpa using congrArg List.length same.perQuestion
  simp only [ledger, isEmpty_of_map_eq same.perQuestion, lengths, ledgerRows_eq]
  split_ifs
  · rfl
  · simp only [List.flatten_cons, List.flatten_nil, List.map_append, rows]

theorem pieces_shape (same : SameShape r r') {pieces pieces' : List Piece}
    (written : Html.pieces format r = some pieces)
    (written' : Html.pieces format r' = some pieces') :
    pieces.map Piece.shape = pieces'.map Piece.shape := by
  obtain ⟨prompt, -, rfl⟩ := Option.map_eq_some_iff.mp written
  obtain ⟨prompt', -, rfl⟩ := Option.map_eq_some_iff.mp written'
  simp only [List.flatten_cons, List.flatten_nil, List.map_append,
    head_shape r.runMeta r'.runMeta, header_shape same prompt prompt', fallbackWarning_eq same,
    cards_eq format same, latencyPanel_eq format same, retrievalPanel_eq format same,
    dimensionPanel_shape format same, competitorPanel_shape format same, ledger_shape same]

end Shapes

section Confinement

variable (format : FloatFormat)

def judgePromptText (info : BenchmarkMeta) : String :=
  let short := String.ofList (info.judgePromptSha256.toList.take 12)
  s!"{info.judgePromptVersion} ({short}…, temp {format.display info.judgeTemperature})"

def headerTexts (info : BenchmarkMeta) (prompt : String) : List String :=
  [info.benchmarkName, "benchmark id", info.benchmarkId, "source"] ++
  (if info.benchmarkUrl.isEmpty then [] else [info.benchmarkUrl, info.benchmarkUrl]) ++
  ["judge", info.judgeType, "judge prompt", prompt, "instances", "brain version",
    info.brainVersion, "run (unix ns)"]

/-- The strings of a report in the order in which its page shows them, under the page's labels: the
title, the header, the cards of numbers, a row per dimension, per competitor and per question. -/
def slotTexts (r : BenchmarkReport) : List String :=
  r.runMeta.benchmarkName :: headerTexts r.runMeta (judgePromptText format r.runMeta) ++
  texts (cards format r.metrics) ++
  r.metrics.perDimension.toList.map Prod.fst ++
  (r.competitors.flatMap fun c => [c.system, c.source, c.note]) ++
  r.perQuestion.flatMap fun q =>
    [debugName q.questionType, q.question, q.groundTruth, q.systemAnswer, q.judgeReasoning]

def markup (page : String) : List Char := page.toList.filter isMarkup

/-- A page whose slots hold the strings of the report, each in its own and escaped so that a reader
decodes it back. -/
structure Confined (r : BenchmarkReport) (pieces : List Piece) : Prop where
  written : Html.pieces format r = some pieces
  slots : texts pieces = slotTexts format r
  rendered : (render format r).map String.toList =
    some (fill (pieces.map Piece.shape) ((slotTexts format r).map esc))
  decoded : ((texts pieces).map esc).map decodeEntities = slotTexts format r

theorem judgePrompt_ascii {info : BenchmarkMeta}
    (ascii : ∀ c ∈ info.judgePromptSha256.toList, c.toNat < 128) :
    judgePrompt format info = some (judgePromptText format info) := by
  have narrow : ∀ c ∈ info.judgePromptSha256.toList, c.utf8Size = 1 := by
    intro c member
    rw [Char.utf8Size_eq_one_iff]
    exact Nat.lt_succ_iff.mp (ascii c member)
  have size : info.judgePromptSha256.utf8ByteSize = info.judgePromptSha256.toList.length := by
    rw [← utf8ByteSize_narrow narrow, String.ofList_toList]
  have cut := takeBytes_narrow narrow (Nat.min_le_left _ 12)
  simp only [judgePrompt, judgePromptText, size, cut, Option.map_some]
  rw [List.take_eq_take_min (i := 12), Nat.min_comm]

theorem texts_header (info : BenchmarkMeta) (prompt : String) :
    texts (header info prompt) = headerTexts info prompt := by
  have source : texts (sourceItem info) = "source" ::
      if info.benchmarkUrl.isEmpty then [] else [info.benchmarkUrl, info.benchmarkUrl] := by
    rw [sourceItem]
    split_ifs <;> simp [metaItem]
  simp [header, headerTexts, metaItem, source]

theorem texts_fallbackWarning (info : BenchmarkMeta) : texts (fallbackWarning info) = [] := by
  rw [fallbackWarning]
  split_ifs <;> rfl

theorem texts_latencyPanel (m : EvalMetrics) : texts (latencyPanel format m) = [] := rfl

theorem texts_retrievalPanel (m : EvalMetrics) : texts (retrievalPanel format m) = [] := by
  simp only [retrievalPanel]
  cases m.retrieval <;> simp [recallRows]

theorem texts_dimensionPanel (m : EvalMetrics) :
    texts (dimensionPanel format m) = m.perDimension.toList.map Prod.fst := by
  have rows : texts (m.perDimension.toList.flatMap fun entry =>
      dimensionRow format entry.1 entry.2) = m.perDimension.toList.map Prod.fst := by
    rw [texts_flatMap, List.map_eq_flatMap]
    rfl
  simp only [dimensionPanel]
  split_ifs with empty
  · simp [List.isEmpty_iff.mp empty]
  · simp [rows]

theorem texts_competitorPanel (r : BenchmarkReport) : texts (competitorPanel format r) =
    r.competitors.flatMap fun c => [c.system, c.source, c.note] := by
  have rows : texts (r.competitors.flatMap (competitorRow format)) =
      r.competitors.flatMap fun c => [c.system, c.source, c.note] := by
    rw [texts_flatMap]
    rfl
  rw [competitorPanel]
  split_ifs with empty
  · simp [List.isEmpty_iff.mp empty]
  · simp [rows]

theorem texts_ledger (r : BenchmarkReport) : texts (ledger r) = r.perQuestion.flatMap fun q =>
    [debugName q.questionType, q.question, q.groundTruth, q.systemAnswer, q.judgeReasoning] := by
  have rows : texts (r.perQuestion.mapIdx ledgerRow).flatten = r.perQuestion.flatMap fun q =>
      [debugName q.questionType, q.question, q.groundTruth, q.systemAnswer, q.judgeReasoning] := by
    rw [ledgerRows_eq, texts_flatMap, ← List.zipIdx_map_fst 0 r.perQuestion, List.flatMap_map,
      List.zipIdx_map_fst]
    rfl
  rw [ledger]
  split_ifs with empty
  · simp [List.isEmpty_iff.mp empty]
  · simp [rows]

theorem exists_confined {r : BenchmarkReport}
    (ascii : ∀ c ∈ r.runMeta.judgePromptSha256.toList, c.toNat < 128) :
    ∃ pieces, Confined format r pieces := by
  have prompt := judgePrompt_ascii format ascii
  obtain ⟨pieces, written⟩ : ∃ pieces, Html.pieces format r = some pieces := by
    rw [Html.pieces, prompt]
    exact ⟨_, rfl⟩
  have slots : texts pieces = slotTexts format r := by
    have whole := written
    rw [Html.pieces, prompt, Option.map_some, Option.some_inj] at whole
    subst whole
    simp [slotTexts, head, texts_header, texts_fallbackWarning, texts_latencyPanel,
      texts_retrievalPanel, texts_dimensionPanel, texts_competitorPanel, texts_ledger]
  refine ⟨pieces, written, slots, ?_, ?_⟩
  · rw [render, written, Option.map_some, Option.map_some, page_eq_fill, slots]
  · rw [slots, List.map_map]
    exact List.map_id'' decode_esc _

/-- What a report's texts say changes neither the tags of its page nor their attributes, and each
text stands in the slot it is for. -/
theorem render_markup_fixed {r r' : BenchmarkReport} (same : SameShape r r')
    (ascii : ∀ c ∈ r.runMeta.judgePromptSha256.toList, c.toNat < 128)
    (ascii' : ∀ c ∈ r'.runMeta.judgePromptSha256.toList, c.toNat < 128) :
    ∃ pieces pieces', Confined format r pieces ∧ Confined format r' pieces' ∧
      pieces.map Piece.shape = pieces'.map Piece.shape ∧
      markup (page esc pieces) = markup (page esc pieces') := by
  obtain ⟨pieces, confined⟩ := exists_confined format ascii
  obtain ⟨pieces', confined'⟩ := exists_confined format ascii'
  have shapes := pieces_shape format same confined.written confined'.written
  exact ⟨pieces, pieces', confined, confined', shapes, filter_page esc_quiet shapes⟩

end Confinement

def zeros : FloatFormat where
  fixed n _ := "0." ++ String.ofList (List.replicate n '0')
  display _ := "0"

def sampleReport (name url answer note : String) : BenchmarkReport where
  runMeta :=
    { benchmarkId := "dmr", benchmarkName := name, benchmarkUrl := url, judgeType := "heuristic"
      judgePromptVersion := "v1", judgePromptSha256 := "0f3a", judgeTemperature := 0
      judgeHeuristicFallbacks := 0, runStartedUnixNanos := 1, instanceCount := 1
      brainVersion := "0.1.0" }
  metrics :=
    { accuracy := 0, perDimension := ∅, totalQuestions := 1, correct := 0, partialCredit := 0
      incorrect := 1, latency := ⟨0, 0, 0, 0, 0, 0⟩, tokens := ⟨0, 0, 0, 0⟩, contextRecall := none
      retrieval := none, answerShape := ⟨1, 0, 0, 0, 0, 0, 0, 1, 0⟩, ingestionErrors := 0
      retrievalErrors := 0, writeQuality := ⟨0, 0, 0, 0, 0⟩ }
  competitors := [⟨"Zep", 0, "paper", note⟩]
  perQuestion := [qr .single .incorrect answer]

theorem sampleReport_ascii (name url answer note : String) :
    ∀ c ∈ (sampleReport name url answer note).runMeta.judgePromptSha256.toList, c.toNat < 128 := by
  have digits : ("0f3a".toList.all fun c => c.toNat < 128) = true := by decide +kernel
  exact fun c member => of_decide_eq_true (List.all_eq_true.mp digits c member)

theorem script_stays_text :
    ∃ pieces pieces',
      Confined zeros (sampleReport "DMR" "https://example.org" "Paris" "") pieces ∧
      Confined zeros (sampleReport "<b>DMR</b>" "\"><script>alert(1)</script>" "</td>" "a & b")
        pieces' ∧
      pieces.map Piece.shape = pieces'.map Piece.shape ∧
      markup (page esc pieces) = markup (page esc pieces') := by
  have same : SameShape (sampleReport "DMR" "https://example.org" "Paris" "")
      (sampleReport "<b>DMR</b>" "\"><script>alert(1)</script>" "</td>" "a & b") :=
    ⟨rfl, by decide +kernel, rfl, rfl, rfl, rfl⟩
  exact render_markup_fixed zeros same (sampleReport_ascii _ _ _ _) (sampleReport_ascii _ _ _ _)

end Html

end BrainEval
