import BrainEval.Lib.Grouping
import BrainEval.Lib.Ranking
import BrainEval.Lib.RankWeight
import BrainEval.Lib.SortBy
import BrainEval.Lib.Str
import BrainEval.Lib.Decimal
import BrainEval.Lib.Concurrent
import BrainEval.Lib.Occurrence
import BrainEval.Lib.Polling
import BrainEval.Lib.Replace
import BrainEval.Lib.Template
import BrainEval.Lib.Markup
import BrainEval.Lib.Paging
import BrainEval.Lib.OrderStatistic
import BrainEval.Lib.Growth
import BrainEval.Lib.Encounter
import BrainEval.Lib.ParitySum
import BrainEval.Lib.Mean
import BrainEval.Lib.Agreement
import BrainEval.Lib.Quantile
import BrainEval.Lib.Words
import BrainEval.Lib.Calendar
import BrainEval.Lib.CheckedInt
import BrainEval.Lib.Journal
import BrainEval.Lib.Attempts
import BrainEval.Lib.Early
import BrainEval.Lib.AckLog
import BrainEval.Lib.Numbered
import BrainEval.Core.Instance
import BrainEval.Core.Outcome
import BrainEval.Blackbox.Recall
import BrainEval.Score.Judge
import BrainEval.Score.JudgeMonotone
import BrainEval.Score.JudgePrompt
import BrainEval.Score.JudgeReply
import BrainEval.Score.LlmJudge
import BrainEval.Score.Retrieval
import BrainEval.Score.NdcgAgreement
import BrainEval.Score.NdcgBounds
import BrainEval.Score.RetrievalBounds
import BrainEval.Score.Stats
import BrainEval.Score.NoiseBand
import BrainEval.Score.Bootstrap
import BrainEval.Score.MetaJudge
import BrainEval.Score.Metrics
import BrainEval.Score.Dimensions
import BrainEval.Score.Latency
import BrainEval.Score.AnswerShape
import BrainEval.Score.ShapeLaws
import BrainEval.Score.AnswerText
import BrainEval.Score.Grounding
import BrainEval.Score.RelevanceAgreement
import BrainEval.Score.Commitment
import BrainEval.Score.PromptSlots
import BrainEval.Client.Harness
import BrainEval.Client.Metrics
import BrainEval.Client.Exposition
import BrainEval.Client.LabelText
import BrainEval.Client.HttpResponse
import BrainEval.Client.Drain
import BrainEval.Client.DrainVerdict
import BrainEval.Client.DrainSoundness
import BrainEval.Synthesize
import BrainEval.SpaceManifest
import BrainEval.HexCodec
import BrainEval.Report.RunReport
import BrainEval.Report.ExtractionHealth
import BrainEval.Report.SeriesSelection
import BrainEval.Report.Html
import BrainEval.Report.HtmlEscaping
import BrainEval.Runner.Config
import BrainEval.Runner.Ingest
import BrainEval.Runner.Question
import BrainEval.Runner.FailureLatency
import BrainEval.Runner.Pipeline
import BrainEval.Runner.Fate
import BrainEval.Runner.Agreement
import BrainEval.Runner.ReportOrder
import BrainEval.Runner.WriteTotals
import BrainEval.Runner.Failures
import BrainEval.Runner.RetrievalOnly
import BrainEval.Runner.Machine
import BrainEval.Runner.Durability
import BrainEval.Runner.IngestAccounting
import BrainEval.Runner.Manifest
import BrainEval.Runner.Haystack
import BrainEval.Runner.Isolation
import BrainEval.Runner.Attribution
import BrainEval.Datasets.Locomo
import BrainEval.Datasets.CivilDays
import BrainEval.Datasets.CheckedDays
import BrainEval.Datasets.LocomoDate
import BrainEval.Datasets.LocomoSpelling
import BrainEval.Datasets.Chronology
import BrainEval.Datasets.Decode
import BrainEval.Datasets.Adversarial
import BrainEval.Datasets.TurnLoss
import BrainEval.Datasets.Pin
import BrainEval.Datasets.PinFaithful
import BrainEval.Datasets.Contamination
import BrainEval.Probe.Staged
import BrainEval.Runner.VerifyList
import BrainEval.Runner.Verification
import BrainEval.Blackbox.MemoryList
import BrainEval.Blackbox.RecallQuality
import BrainEval.Blackbox.Percentile
import BrainEval.Blackbox.LatencyGates
import BrainEval.Blackbox.Soak
import BrainEval.Blackbox.Needles
import BrainEval.Probe.StagedOrder
import BrainEval.Score.MetricsOrder
import BrainEval.Runner.Summary
import BrainEval.Client.LlmClient
import BrainEval.Client.Server
import BrainEval.Blackbox.Scenario
import BrainEval.Blackbox.Chaos
import BrainEval.Blackbox.SoakRun
import BrainEval.Blackbox.ConcurrentRun
import BrainEval.Blackbox.Acceptance
import BrainEval.Blackbox.RestartRecovery
import BrainEval.Blackbox.Rebuild
import BrainEval.Probe.Rollup
import BrainEval.Blackbox.Backfill
import BrainEval.Blackbox.GracefulDrain
import BrainEval.Blackbox.CoreScenarios
import BrainEval.Blackbox.Markers
