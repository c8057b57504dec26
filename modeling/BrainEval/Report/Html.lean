import Mathlib
import BrainEval.Lib.Markup
import BrainEval.Lib.Str
import BrainEval.Score.Metrics

set_option autoImplicit false

namespace BrainEval

structure BenchmarkMeta where
  benchmarkId : String
  benchmarkName : String
  benchmarkUrl : String
  judgeType : String
  judgePromptVersion : String
  judgePromptSha256 : String
  judgeTemperature : ℚ
  judgeHeuristicFallbacks : Nat
  runStartedUnixNanos : Nat
  instanceCount : Nat
  brainVersion : String
  deriving DecidableEq

structure CompetitorRow where
  system : String
  accuracy : ℚ
  source : String
  note : String
  deriving DecidableEq

structure BenchmarkReport where
  runMeta : BenchmarkMeta
  metrics : Metrics.EvalMetrics
  competitors : List CompetitorRow
  perQuestion : List QuestionResult

namespace Html

open Markup RustStr Metrics

/-- The language's formatting of a float: `{:.n}` and `{}`. -/
structure FloatFormat where
  fixed : Nat → ℝ → String
  display : ℝ → String

def escChar (c : Char) : List Char :=
  if c = '&' then ['&', 'a', 'm', 'p', ';']
  else if c = '<' then ['&', 'l', 't', ';']
  else if c = '>' then ['&', 'g', 't', ';']
  else if c = '"' then ['&', 'q', 'u', 'o', 't', ';']
  else if c = '\'' then ['&', '#', '3', '9', ';']
  else [c]

def esc (s : String) : String := String.ofList (s.toList.flatMap escChar)

def verdictClass : Verdict → String × String
  | .correct => ("v-correct", "correct")
  | .partialCredit => ("v-partial", "partial")
  | .incorrect => ("v-incorrect", "incorrect")
  | .notJudged => ("v-notjudged", "not judged")

def answerKindLabel : AnswerKind → String
  | .single => "single"
  | .many => "many"
  | .none => "none"
  | .error => "error"

-- `{:?}` of a question type.
def debugName : QuestionType → String
  | .singleHop => "SingleHop"
  | .multiHop => "MultiHop"
  | .temporal => "Temporal"
  | .knowledgeUpdate => "KnowledgeUpdate"
  | .abstention => "Abstention"
  | .preference => "Preference"
  | .adversarial => "Adversarial"
  | .other => "Other"

def metaItem (label : String) (valueHtml : List Piece) : List Piece :=
  [.markup "<div class=\"meta-item\"><span class=\"ml\">", .text label,
    .markup "</span><span class=\"mv\">"] ++ valueHtml ++ [.markup "</span></div>"]

def statCard (label value sub tone : String) : List Piece :=
  [.markup s!"<div class=\"card {tone}\"><div class=\"card-label\">", .text label,
    .markup "</div><div class=\"card-value\">", .text value,
    .markup "</div><div class=\"card-sub\">", .text sub, .markup "</div></div>"]

def style : String := "<style>
:root\x7b
  --bg:#0f1115; --panel:#171a21; --panel-2:#1d212b; --line:#2a2f3a;
  --fg:#e6e9ef; --muted:#9aa4b2; --accent:#6ea8fe; --accent-dim:#2a3550;
  --ok:#4ade80; --warn:#fbbf24; --bad:#f87171;
  --mono:ui-monospace,SFMono-Regular,Menlo,Consolas,monospace;
  --sans:system-ui,-apple-system,Segoe UI,Roboto,Helvetica,Arial,sans-serif;
\x7d
@media (prefers-color-scheme:light)\x7b
  :root\x7b
    --bg:#f6f7f9; --panel:#ffffff; --panel-2:#f0f2f5; --line:#e2e6ec;
    --fg:#1a1d24; --muted:#5c6675; --accent:#2563eb; --accent-dim:#dbe6ff;
    --ok:#16a34a; --warn:#b45309; --bad:#dc2626;
  \x7d
\x7d
*\x7bbox-sizing:border-box\x7d
body\x7bmargin:0;background:var(--bg);color:var(--fg);font-family:var(--sans);
  font-size:14px;line-height:1.5;-webkit-font-smoothing:antialiased\x7d
a\x7bcolor:var(--accent)\x7d
.hdr\x7bbackground:linear-gradient(180deg,var(--panel-2),var(--panel));border-bottom:1px solid var(--line)\x7d
.hdr-in\x7bmax-width:1180px;margin:0 auto;padding:28px 24px 22px\x7d
.eyebrow\x7bfont-size:11px;letter-spacing:.14em;text-transform:uppercase;color:var(--muted);font-weight:600\x7d
h1\x7bmargin:6px 0 18px;font-size:26px;font-weight:700;letter-spacing:-.01em\x7d
.meta-grid\x7bdisplay:grid;grid-template-columns:repeat(auto-fit,minmax(200px,1fr));gap:10px 26px\x7d
.meta-item\x7bdisplay:flex;flex-direction:column;gap:2px;min-width:0\x7d
.ml\x7bfont-size:11px;text-transform:uppercase;letter-spacing:.08em;color:var(--muted)\x7d
.mv\x7bfont-family:var(--mono);font-size:12.5px;word-break:break-word\x7d
.wrap\x7bmax-width:1180px;margin:0 auto;padding:24px\x7d
.warn\x7bbackground:color-mix(in srgb,var(--warn) 16%,transparent);border:1px solid var(--warn);
  color:var(--fg);padding:12px 14px;border-radius:10px;margin-bottom:20px\x7d
.cards\x7bdisplay:grid;grid-template-columns:repeat(auto-fit,minmax(210px,1fr));gap:14px;margin-bottom:22px\x7d
.card\x7bbackground:var(--panel);border:1px solid var(--line);border-radius:14px;padding:16px 18px;position:relative;overflow:hidden\x7d
.card::before\x7bcontent:\"\";position:absolute;left:0;top:0;bottom:0;width:3px;background:var(--muted)\x7d
.card.accent::before\x7bbackground:var(--accent)\x7d .card.ok::before\x7bbackground:var(--ok)\x7d
.card.bad::before\x7bbackground:var(--bad)\x7d .card.muted::before\x7bbackground:var(--muted)\x7d
.card-label\x7bfont-size:11px;text-transform:uppercase;letter-spacing:.08em;color:var(--muted)\x7d
.card-value\x7bfont-size:30px;font-weight:700;margin:6px 0 4px;font-variant-numeric:tabular-nums\x7d
.card.accent .card-value\x7bcolor:var(--accent)\x7d .card.ok .card-value\x7bcolor:var(--ok)\x7d .card.bad .card-value\x7bcolor:var(--bad)\x7d
.card-sub\x7bfont-size:12px;color:var(--muted)\x7d
.panel\x7bbackground:var(--panel);border:1px solid var(--line);border-radius:14px;padding:18px 20px;margin-bottom:20px\x7d
.panel h2\x7bmargin:0 0 14px;font-size:15px;font-weight:650;letter-spacing:.01em\x7d
.count,.dep\x7bcolor:var(--muted);font-weight:400;font-size:12px\x7d
.dep\x7bfont-style:italic\x7d
.note\x7bcolor:var(--muted);font-size:12.5px;margin:10px 0 0\x7d
.tbl-wrap\x7boverflow-x:auto\x7d
table\x7bborder-collapse:collapse;width:100%;font-size:13px\x7d
th,td\x7btext-align:left;padding:8px 12px;border-bottom:1px solid var(--line);vertical-align:top\x7d
thead th\x7bcolor:var(--muted);font-weight:600;font-size:11px;text-transform:uppercase;letter-spacing:.06em;
  position:sticky;top:0;background:var(--panel);white-space:nowrap\x7d
tbody th\x7bfont-weight:600\x7d
.num\x7bfont-family:var(--mono);text-align:right;font-variant-numeric:tabular-nums;white-space:nowrap\x7d
table.kv td\x7bfont-variant-numeric:tabular-nums\x7d
.self-row\x7bbackground:var(--accent-dim)\x7d .self-row th\x7bcolor:var(--accent)\x7d
.note-cell\x7bcolor:var(--muted);max-width:360px\x7d
.bar\x7bposition:relative;background:var(--panel-2);border-radius:6px;height:20px;min-width:120px;overflow:hidden\x7d
.bar-fill\x7bposition:absolute;left:0;top:0;bottom:0;background:var(--accent);opacity:.55\x7d
.bar-label\x7bposition:relative;padding:0 8px;font-family:var(--mono);font-size:12px;line-height:20px\x7d
.chip\x7bdisplay:inline-block;padding:1px 9px;border-radius:999px;font-size:11px;font-weight:600;text-transform:uppercase;letter-spacing:.04em\x7d
.chip.v-correct\x7bbackground:color-mix(in srgb,var(--ok) 22%,transparent);color:var(--ok)\x7d
.chip.v-partial\x7bbackground:color-mix(in srgb,var(--warn) 22%,transparent);color:var(--warn)\x7d
.chip.v-incorrect\x7bbackground:color-mix(in srgb,var(--bad) 22%,transparent);color:var(--bad)\x7d
/* Not graded is not a failure: muted, so a retrieval-only run does not read
   as a wall of red. */
.chip.v-notjudged\x7bbackground:color-mix(in srgb,var(--muted) 18%,transparent);color:var(--muted)\x7d
.ledger td.q,.ledger td.gt,.ledger td.ans,.ledger td.rz\x7bmax-width:280px;white-space:pre-wrap;word-break:break-word\x7d
.ledger td.rz\x7bcolor:var(--muted);font-size:12px\x7d
.ledger tr.v-correct td:first-child\x7bbox-shadow:inset 3px 0 var(--ok)\x7d
.ledger tr.v-partial td:first-child\x7bbox-shadow:inset 3px 0 var(--warn)\x7d
.ledger tr.v-incorrect td:first-child\x7bbox-shadow:inset 3px 0 var(--bad)\x7d
.ftr\x7bmax-width:1180px;margin:0 auto;padding:8px 24px 40px;color:var(--muted);font-size:12px\x7d
</style>"

def head (info : BenchmarkMeta) : List Piece :=
  [.markup "<!doctype html><html lang=\"en\"><head><meta charset=\"utf-8\">",
    .markup "<meta name=\"viewport\" content=\"width=device-width, initial-scale=1\">",
    .markup "<title>Brain eval — ", .text info.benchmarkName, .markup "</title>",
    .markup style, .markup "</head><body>"]

def sourceItem (info : BenchmarkMeta) : List Piece :=
  if info.benchmarkUrl.isEmpty then metaItem "source" [.markup "—"]
  else
    metaItem "source" [.markup "<a href=\"", .text info.benchmarkUrl,
      .markup "\" rel=\"noreferrer noopener\">", .text info.benchmarkUrl, .markup "</a>"]

section Numbers

variable (format : FloatFormat)

-- The digest is cut at a byte, which panics inside a character.
def judgePrompt (info : BenchmarkMeta) : Option String :=
  let sha := info.judgePromptSha256
  (takeBytes sha.toList (min sha.utf8ByteSize 12)).map fun short =>
    s!"{info.judgePromptVersion} ({String.ofList short}…, temp {format.display info.judgeTemperature})"

def header (info : BenchmarkMeta) (judgePrompt : String) : List Piece :=
  List.flatten
    [[.markup "<header class=\"hdr\"><div class=\"hdr-in\">",
        .markup "<div class=\"eyebrow\">Brain evaluation</div><h1>", .text info.benchmarkName,
        .markup "</h1>", .markup "<div class=\"meta-grid\">"],
      metaItem "benchmark id" [.text info.benchmarkId],
      sourceItem info,
      metaItem "judge" [.text info.judgeType],
      metaItem "judge prompt" [.text judgePrompt],
      metaItem "instances" [.markup (toString info.instanceCount)],
      metaItem "brain version" [.text info.brainVersion],
      metaItem "run (unix ns)" [.markup (toString info.runStartedUnixNanos)],
      [.markup "</div></div></header>"]]

def fallbackWarning (info : BenchmarkMeta) : List Piece :=
  if 0 < info.judgeHeuristicFallbacks then
    [.markup (s!"<div class=\"warn\">⚠ {info.judgeHeuristicFallbacks} question(s) fell back to the " ++
      "<b>heuristic</b> judge (the LLM call failed or was unparseable) — accuracy is <b>not</b> " ++
      "fully LLM-judged.</div>")]
  else []

def recallCard (m : EvalMetrics) : List Piece :=
  match m.contextRecall with
  | some c =>
    statCard "context recall" s!"{format.fixed 1 (c.supportedRate * 100)}%"
      s!"{c.nSupported}/{c.nJudged} answer-supporting (LLM-judged)" "ok"
  | none =>
    statCard "context recall" "n/a" "no LLM judge (run with --features live-llm)" "muted"

def cards (m : EvalMetrics) : List Piece :=
  let errTone := if m.ingestionErrors + m.retrievalErrors = 0 then "ok" else "bad"
  List.flatten
    [[.markup "<section class=\"cards\">"],
      statCard "accuracy" s!"{format.fixed 1 (m.accuracy * 100)}%"
        (s!"{m.correct}/{m.totalQuestions} correct · {m.partialCredit} partial · " ++
          s!"{m.incorrect} incorrect") "accent",
      recallCard format m,
      statCard "errors" (toString (m.ingestionErrors + m.retrievalErrors))
        s!"{m.ingestionErrors} ingestion · {m.retrievalErrors} retrieval" errTone,
      statCard "read latency p50" s!"{m.latency.readP50Ms} ms"
        s!"p95 {m.latency.readP95Ms} ms · write p50 {m.latency.writeP50Ms} ms" "muted",
      [.markup "</section>"]]

def latencyRow (label : String) (p50 p95 mean : Nat) : Piece :=
  .markup s!"<tr><th>{label} (ms)</th><td>{p50}</td><td>{p95}</td><td>{mean}</td></tr>"

def latencyPanel (m : EvalMetrics) : List Piece :=
  [.markup ("<section class=\"panel\"><h2>Latency &amp; tokens</h2><div class=\"tbl-wrap\">" ++
      "<table class=\"kv\">"),
    .markup "<thead><tr><th></th><th>p50</th><th>p95</th><th>mean</th></tr></thead><tbody>",
    latencyRow "write" m.latency.writeP50Ms m.latency.writeP95Ms m.latency.writeMeanMs,
    latencyRow "read" m.latency.readP50Ms m.latency.readP95Ms m.latency.readMeanMs,
    .markup "</tbody></table>",
    .markup (s!"<p class=\"note\">tokens — write avg {format.fixed 1 m.tokens.writeAvg} · " ++
      s!"read avg {format.fixed 1 m.tokens.readAvg} · total {m.tokens.grandTotal}</p>"),
    .markup "</div></section>"]

noncomputable section

def percent (value : ℝ) : Nat := (round (min 1 (max 0 value) * 100)).toNat

def pctBar (value : ℝ) : String :=
  (s!"<div class=\"bar\"><div class=\"bar-fill\" style=\"width:{percent value}%\"></div>" ++
    s!"<span class=\"bar-label\">{format.fixed 4 value}</span></div>")

def recallRows (r : Retrieval.RetrievalStats) : List Piece :=
  let rows : List (String × ℝ) :=
    [("recall@1", r.recallAt1), ("recall@5", r.recallAt5), ("recall@10", r.recallAt10),
      ("ndcg@5", r.ndcgAt5), ("ndcg@10", r.ndcgAt10), ("mrr", r.mrr)]
  rows.map fun (label, v) => .markup s!"<tr><th>{label}</th><td>{pctBar format v}</td></tr>"

def retrievalPanel (m : EvalMetrics) : List Piece :=
  let body : List Piece :=
    match m.retrieval with
    | some r =>
      List.flatten
        [[.markup ("<div class=\"tbl-wrap\"><table class=\"kv\"><thead><tr><th>substring " ++
            "recall@k <span class=\"dep\">(deprecated diagnostic — Kamalloo 2023 / NoLiMa)</span>" ++
            "</th><th>value</th></tr></thead><tbody>")],
          recallRows format r,
          [.markup "</tbody></table></div>"]]
    | none => [.markup "<p class=\"note\">no substring-recall diagnostic recorded.</p>"]
  .markup "<section class=\"panel\"><h2>Retrieval quality</h2>" ::
    (body ++ [.markup "</section>"])

def dimensionRow (tag : String) (d : DimensionMetrics) : List Piece :=
  [.markup "<tr><th>", .text tag,
    .markup (s!"</th><td>{pctBar format d.accuracy}</td><td class=\"num\">" ++
      s!"{d.correct}/{d.count}</td></tr>")]

def dimensionPanel (m : EvalMetrics) : List Piece :=
  let entries := m.perDimension.toList
  if entries.isEmpty then []
  else
    List.flatten
      [[.markup ("<section class=\"panel\"><h2>Per-dimension accuracy</h2><div class=\"tbl-wrap\">" ++
          "<table><thead><tr><th>dimension</th><th>accuracy</th><th>n</th></tr></thead><tbody>")],
        entries.flatMap fun entry => dimensionRow format entry.1 entry.2,
        [.markup "</tbody></table></div></section>"]]

def competitorRow (c : CompetitorRow) : List Piece :=
  [.markup "<tr><th>", .text c.system,
    .markup s!"</th><td>{pctBar format c.accuracy}</td><td>", .text c.source,
    .markup "</td><td class=\"note-cell\">", .text c.note, .markup "</td></tr>"]

def competitorPanel (report : BenchmarkReport) : List Piece :=
  if report.competitors.isEmpty then []
  else
    List.flatten
      [[.markup ("<section class=\"panel\"><h2>Competitor comparison</h2><div class=\"tbl-wrap\">" ++
            "<table><thead><tr><th>system</th><th>accuracy</th><th>source</th><th>note</th></tr>" ++
            "</thead><tbody>"),
          .markup ("<tr class=\"self-row\"><th>Brain (this run)</th><td>" ++
            s!"{pctBar format report.metrics.accuracy}</td><td>—</td><td>—</td></tr>")],
        report.competitors.flatMap (competitorRow format),
        [.markup "</tbody></table></div></section>"]]

end

end Numbers

def ledgerRow (i : Nat) (q : QuestionResult) : List Piece :=
  let (vclass, vlabel) := verdictClass q.verdict
  [.markup s!"<tr class=\"{vclass}\"><td class=\"num\">{i + 1}</td><td>",
    .text (debugName q.questionType),
    .markup (s!"</td><td><span class=\"chip {vclass}\">{vlabel}</span></td>" ++
      s!"<td>{answerKindLabel q.answerKind}</td><td class=\"q\">"),
    .text q.question, .markup "</td><td class=\"gt\">", .text q.groundTruth,
    .markup "</td><td class=\"ans\">", .text q.systemAnswer,
    .markup "</td><td class=\"rz\">", .text q.judgeReasoning,
    .markup s!"</td><td class=\"num\">{q.memoriesRetrieved}</td></tr>"]

def ledger (report : BenchmarkReport) : List Piece :=
  if report.perQuestion.isEmpty then []
  else
    List.flatten
      [[.markup ("<section class=\"panel\"><h2>Per-question ledger <span class=\"count\">" ++
            s!"({report.perQuestion.length})</span></h2>"),
          .markup ("<div class=\"tbl-wrap\"><table class=\"ledger\"><thead><tr><th>#</th>" ++
            "<th>type</th><th>verdict</th><th>shape</th><th>question</th><th>ground truth</th>" ++
            "<th>system answer</th><th>judge reasoning</th><th>ret</th></tr></thead><tbody>")],
        (report.perQuestion.mapIdx ledgerRow).flatten,
        [.markup "</tbody></table></div></section>"]]

noncomputable section

variable (format : FloatFormat)

-- What `render` pushes to its buffer, in order.
def pieces (report : BenchmarkReport) : Option (List Piece) :=
  (judgePrompt format report.runMeta).map fun prompt =>
    List.flatten
      [head report.runMeta, header report.runMeta prompt, [.markup "<main class=\"wrap\">"],
        fallbackWarning report.runMeta, cards format report.metrics,
        latencyPanel format report.metrics, retrievalPanel format report.metrics,
        dimensionPanel format report.metrics, competitorPanel format report, ledger report,
        [.markup ("<footer class=\"ftr\">Generated by brain-eval · self-contained, no external " ++
            "requests.</footer>"),
          .markup "</main></body></html>"]]

def render (report : BenchmarkReport) : Option String :=
  (pieces format report).map (page esc)

end

end Html

end BrainEval
