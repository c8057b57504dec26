import Mathlib
import BrainEval.Client.Metrics

set_option autoImplicit false

namespace BrainEval.Report

@[ext]
structure ExtractionHealth where
  tierRanPattern : UInt64
  tierRanClassifier : UInt64
  tierRanLlm : UInt64
  tierFailed : UInt64
  dropped : UInt64
  entities : UInt64
  statements : UInt64
  relations : UInt64
  deriving DecidableEq, Repr

namespace ExtractionHealth

def tierRuns : String := "brain_extractor_tier_runs_total"

def itemsWritten : String := "brain_extractor_items_written_total"

def ranNeedle (tier : String) : String := "tier=\"" ++ tier ++ "\",status=\"ran\""

def failedNeedle : String := "status=\"failed\""

def itemNeedle (kind : String) : String := "item_kind=\"" ++ kind ++ "\""

def fromMetrics (m : PrometheusMetrics) : ExtractionHealth :=
  let ran (tier : String) := ((m.sumWhere tierRuns (ranNeedle tier)).getD 0.0).toUInt64
  let item (kind : String) := ((m.sumWhere itemsWritten (itemNeedle kind)).getD 0.0).toUInt64
  { tierRanPattern := ran "pattern"
    tierRanClassifier := ran "classifier"
    tierRanLlm := ran "llm"
    tierFailed := ((m.sumWhere tierRuns failedNeedle).getD 0.0).toUInt64
    dropped :=
      ((m.sum "brain_extractor_apply_dropped_total").getD 0.0 +
        (m.sum "brain_extractor_drops_total").getD 0.0 +
        (m.sum "brain_extractor_schema_filtered_total").getD 0.0).toUInt64
    entities := item "entity"
    statements := item "statement"
    relations := item "relation" }

end ExtractionHealth

end BrainEval.Report
