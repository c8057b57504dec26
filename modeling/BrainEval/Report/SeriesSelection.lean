import Mathlib
import BrainEval.Lib.Grouping
import BrainEval.Client.Drain
import BrainEval.Client.LabelText
import BrainEval.Report.ExtractionHealth

set_option autoImplicit false

namespace BrainEval.Report

open RustStr PrometheusMetrics Drain ExtractionHealth

def tiers : List String := ["pattern", "classifier", "llm"]

def itemKinds : List String := ["entity", "statement", "relation"]

/-- The series counts by its labels: once for a write-path worker, and for a tier, a status or an
item kind when these are its labels. -/
structure SelectedByLabel (s : Series) : Prop where
  pending : (drainWorkers.countP fun w => Counts pendingGauge w s.sample) =
    if s.name = pendingGauge ∧ ∃ w ∈ drainWorkers, ("worker", w) ∈ s.labels then 1 else 0
  ran : ∀ tier ∈ tiers, Counts tierRuns (ranNeedle tier) s.sample = true ↔
    s.name = tierRuns ∧ ("tier", tier) ∈ s.labels ∧ ("status", "ran") ∈ s.labels
  failed : Counts tierRuns failedNeedle s.sample = true ↔
    s.name = tierRuns ∧ ("status", "failed") ∈ s.labels
  items : ∀ kind ∈ itemKinds, Counts itemsWritten (itemNeedle kind) s.sample = true ↔
    s.name = itemsWritten ∧ ("item_kind", kind) ∈ s.labels

/-- No label of the series can be taken for another, in whatever order they stand. -/
structure NamesApart (s : Series) : Prop where
  -- a worker's name is written in no other label
  workers : s.name = pendingGauge → ∀ w ∈ drainWorkers, ∀ label ∈ s.labels,
    contains label.1 w = true ∨ contains label.2 w = true → ("worker", w) ∈ s.labels
  failed : s.name = tierRuns → ∀ label ∈ s.labels, "status".toList <:+ label.1.toList →
    label.2 = "failed" → ("status", "failed") ∈ s.labels
  items : s.name = itemsWritten → ∀ kind ∈ itemKinds, ∀ label ∈ s.labels,
    "item_kind".toList <:+ label.1.toList → label.2 = kind → ("item_kind", kind) ∈ s.labels

-- A status of `ran` stands right behind its tier, and behind no label that ends in that name.
def RanBehindTier (s : Series) : Prop :=
  s.name = tierRuns → ∀ tier ∈ tiers,
    (∃ before label after, s.labels = before ++ label :: ("status", "ran") :: after ∧
      "tier".toList <:+ label.1.toList ∧ label.2 = tier) ↔
    ("tier", tier) ∈ s.labels ∧ ("status", "ran") ∈ s.labels

structure Unmistakable (s : Series) : Prop extends NamesApart s where
  ran : RanBehindTier s

/-- Unmistakable in every order of its labels: no tier is told to have run at all. -/
structure UnmistakableInAnyOrder (s : Series) : Prop extends NamesApart s where
  ran : s.name = tierRuns → ("status", "ran") ∈ s.labels → ∀ label ∈ s.labels,
    "tier".toList <:+ label.1.toList → label.2 ∉ tiers

theorem counts_iff {s : Series} {family needle : String} :
    Counts family needle s.sample = true ↔
      s.name = family ∧ contains (String.ofList (labelBody s.labels)) needle = true := by
  simp [Counts, Series.sample]

theorem word_of_drainWorkers {w : String} (worker : w ∈ drainWorkers) : Word w.toList := by
  have spelled : ∀ w ∈ drainWorkers, w.toList.all isNameChar = true ∧
      w.toList.head?.isSome = true ∧ w.toList.head? ≠ some 'n' := by decide +kernel
  obtain ⟨named, first, start⟩ := spelled w worker
  obtain ⟨c, first⟩ := Option.isSome_iff_exists.mp first
  exact ⟨named_of_all named, c, first, fun same => start (same ▸ first)⟩

theorem namedPair_of_all {key value : String} (named : key.toList.all isNameChar = true)
    (plain : value.toList.all isNameChar = true ∧ value ≠ "") : NamedPair key value :=
  ⟨named_of_all named, named_of_all plain.1, plain.2⟩

theorem counts_worker_iff {s : Series} {w : String} (worker : w ∈ drainWorkers) :
    Counts pendingGauge w s.sample = true ↔ s.name = pendingGauge ∧
      ∃ label ∈ s.labels, contains label.1 w = true ∨ contains label.2 w = true := by
  rw [counts_iff, contains_word_iff (word_of_drainWorkers worker)]

theorem counts_ran_iff {s : Series} {tier : String} (known : tier ∈ tiers) :
    Counts tierRuns (ranNeedle tier) s.sample = true ↔ s.name = tierRuns ∧
      ∃ before label after, s.labels = before ++ label :: ("status", "ran") :: after ∧
        "tier".toList <:+ label.1.toList ∧ label.2 = tier := by
  have plain : ∀ tier ∈ tiers, tier.toList.all isNameChar = true ∧ tier ≠ "" := by decide +kernel
  have needle : ranNeedle tier = labelNeedle "tier" tier ++ "," ++ labelNeedle "status" "ran" := by
    rw [← String.toList_inj]
    simp [ranNeedle, labelNeedle]
  have tierPair : NamedPair "tier" tier := namedPair_of_all (by decide +kernel) (plain tier known)
  have statusPair : NamedPair "status" "ran" :=
    namedPair_of_all (by decide +kernel) (by decide +kernel)
  rw [counts_iff, needle, contains_adjacent_iff s.labelled tierPair statusPair]

theorem counts_failed_iff {s : Series} :
    Counts tierRuns failedNeedle s.sample = true ↔ s.name = tierRuns ∧
      ∃ label ∈ s.labels, "status".toList <:+ label.1.toList ∧ label.2 = "failed" := by
  have needle : failedNeedle = labelNeedle "status" "failed" := by decide +kernel
  have pair : NamedPair "status" "failed" :=
    namedPair_of_all (by decide +kernel) (by decide +kernel)
  rw [counts_iff, needle, contains_labelNeedle_iff s.labelled pair]

theorem counts_item_iff {s : Series} {kind : String} (known : kind ∈ itemKinds) :
    Counts itemsWritten (itemNeedle kind) s.sample = true ↔ s.name = itemsWritten ∧
      ∃ label ∈ s.labels, "item_kind".toList <:+ label.1.toList ∧ label.2 = kind := by
  have plain : ∀ kind ∈ itemKinds, kind.toList.all isNameChar = true ∧ kind ≠ "" := by
    decide +kernel
  have needle : itemNeedle kind = labelNeedle "item_kind" kind := by
    rw [← String.toList_inj]
    simp [itemNeedle, labelNeedle]
  have pair : NamedPair "item_kind" kind := namedPair_of_all (by decide +kernel) (plain kind known)
  rw [counts_iff, needle, contains_labelNeedle_iff s.labelled pair]

theorem label_unique {s : Series} {key a b : String} (first : (key, a) ∈ s.labels)
    (second : (key, b) ∈ s.labels) : a = b := by
  have same := List.inj_on_of_nodup_map s.distinct first second rfl
  exact (Prod.mk.inj same).2

theorem workers_counted_iff (s : Series) :
    ((drainWorkers.countP fun w => Counts pendingGauge w s.sample) =
        if s.name = pendingGauge ∧ ∃ w ∈ drainWorkers, ("worker", w) ∈ s.labels then 1 else 0) ↔
      (s.name = pendingGauge → ∀ w ∈ drainWorkers, ∀ label ∈ s.labels,
        contains label.1 w = true ∨ contains label.2 w = true → ("worker", w) ∈ s.labels) := by
  by_cases name : s.name = pendingGauge
  · have found : ∀ w ∈ drainWorkers, Counts pendingGauge w s.sample = true ↔
        ∃ label ∈ s.labels, contains label.1 w = true ∨ contains label.2 w = true := by
      intro w worker
      rw [counts_worker_iff worker, and_iff_right name]
    have passes : ∀ w ∈ drainWorkers, ("worker", w) ∈ s.labels →
        Counts pendingGauge w s.sample = true := fun w worker member =>
      (found w worker).mpr ⟨_, member, .inr (contains_iff.mpr List.infix_rfl)⟩
    have distinct : drainWorkers.Nodup := by decide +kernel
    have single := Grouping.countP_eq_one_iff distinct passes (fun a b => label_unique)
    simp only [name, true_and, forall_const]
    rw [single]
    refine forall₂_congr fun w worker => ?_
    rw [found w worker]
    simp only [forall_exists_index, and_imp]
  · have none : ∀ w ∈ drainWorkers, ¬ Counts pendingGauge w s.sample = true :=
      fun w worker counted => name ((counts_worker_iff worker).mp counted).1
    simp [name, List.countP_eq_zero.mpr none]

-- A needle of one label finds no label but its own.
theorem mention_iff {s : Series} {family key value : String} {counted : Prop}
    (finds : counted ↔ s.name = family ∧
      ∃ label ∈ s.labels, key.toList <:+ label.1.toList ∧ label.2 = value) :
    (counted ↔ s.name = family ∧ (key, value) ∈ s.labels) ↔
      (s.name = family → ∀ label ∈ s.labels, key.toList <:+ label.1.toList →
        label.2 = value → (key, value) ∈ s.labels) := by
  rw [finds]
  constructor
  · intro same name label member ends value
    exact (same.mp ⟨name, label, member, ends, value⟩).2
  · intro alone
    refine and_congr_right fun name => ⟨?_, fun member => ⟨_, member, List.suffix_rfl, rfl⟩⟩
    rintro ⟨label, member, ends, value⟩
    exact alone name label member ends value

theorem tiers_counted_iff (s : Series) :
    (∀ tier ∈ tiers, Counts tierRuns (ranNeedle tier) s.sample = true ↔
      s.name = tierRuns ∧ ("tier", tier) ∈ s.labels ∧ ("status", "ran") ∈ s.labels) ↔
      (s.name = tierRuns → ∀ tier ∈ tiers,
        (∃ before label after, s.labels = before ++ label :: ("status", "ran") :: after ∧
          "tier".toList <:+ label.1.toList ∧ label.2 = tier) ↔
        ("tier", tier) ∈ s.labels ∧ ("status", "ran") ∈ s.labels) := by
  constructor
  · intro selected name tier known
    simpa [name] using (counts_ran_iff known).symm.trans (selected tier known)
  · intro condition tier known
    rw [counts_ran_iff known]
    exact and_congr_right fun name => condition name tier known

section Apart

variable {s : Series} (apart : NamesApart s)

include apart

theorem failed_of_apart : Counts tierRuns failedNeedle s.sample = true ↔
    s.name = tierRuns ∧ ("status", "failed") ∈ s.labels :=
  (mention_iff counts_failed_iff).mpr apart.failed

theorem items_of_apart : ∀ kind ∈ itemKinds,
    Counts itemsWritten (itemNeedle kind) s.sample = true ↔
      s.name = itemsWritten ∧ ("item_kind", kind) ∈ s.labels := fun kind known =>
  (mention_iff (counts_item_iff known)).mpr fun name => apart.items name kind known

end Apart

theorem selectedByLabel_iff (s : Series) : SelectedByLabel s ↔ Unmistakable s := by
  constructor
  · rintro ⟨pending, ran, failed, items⟩
    exact ⟨⟨(workers_counted_iff s).mp pending, (mention_iff counts_failed_iff).mp failed,
      fun name kind known => (mention_iff (counts_item_iff known)).mp (items kind known) name⟩,
      (tiers_counted_iff s).mp ran⟩
  · rintro ⟨apart, ran⟩
    exact ⟨(workers_counted_iff s).mpr apart.workers, (tiers_counted_iff s).mpr ran,
      failed_of_apart apart, items_of_apart apart⟩

section Totals

def hasLabel (key value : String) (s : Series) : Bool := decide ((key, value) ∈ s.labels)

-- The sum over the series of a family that their labels select.
def totalOf (series : List Series) (family : String) (selected : Series → Bool) : Option Float :=
  total ((series.filter fun s => s.name == family && selected s).map (·.value))

def pendingByLabel (series : List Series) : Option Float :=
  drainWorkers.foldl (fun acc w =>
    match totalOf series pendingGauge (hasLabel "worker" w) with
    | some v => some (acc.getD 0.0 + v)
    | none => acc) none

def healthByLabel (series : List Series) : ExtractionHealth :=
  let ran (tier : String) := ((totalOf series tierRuns fun s =>
    hasLabel "tier" tier s && hasLabel "status" "ran" s).getD 0.0).toUInt64
  let item (kind : String) :=
    ((totalOf series itemsWritten (hasLabel "item_kind" kind)).getD 0.0).toUInt64
  let whole (family : String) := (totalOf series family fun _ => true).getD 0.0
  { tierRanPattern := ran "pattern"
    tierRanClassifier := ran "classifier"
    tierRanLlm := ran "llm"
    tierFailed := ((totalOf series tierRuns (hasLabel "status" "failed")).getD 0.0).toUInt64
    dropped :=
      (whole "brain_extractor_apply_dropped_total" + whole "brain_extractor_drops_total" +
        whole "brain_extractor_schema_filtered_total").toUInt64
    entities := item "entity"
    statements := item "statement"
    relations := item "relation" }

variable {series : List Series}

theorem sumWhere_scraped {family needle : String} {selected : Series → Bool}
    (same : ∀ s ∈ series, Counts family needle s.sample = true ↔
      s.name = family ∧ selected s = true) :
    (scraped series).sumWhere family needle = totalOf series family selected := by
  rw [sumWhere, sumIf_eq, scraped, List.filter_map, List.map_map, totalOf]
  congr 1
  have alike : series.filter (Counts family needle ∘ Series.sample) =
      series.filter fun s => s.name == family && selected s := by
    apply List.filter_congr
    intro s member
    rw [Bool.eq_iff_iff, Function.comp_apply, same s member]
    simp
  rw [alike]
  rfl

theorem sum_scraped (family : String) :
    (scraped series).sum family = totalOf series family fun _ => true := by
  rw [sum, sumIf_eq, scraped, List.filter_map, List.map_map, totalOf]
  simp [Function.comp_def, Series.sample]

theorem counts_worker_of_apart {s : Series} (apart : NamesApart s) {w : String}
    (worker : w ∈ drainWorkers) : Counts pendingGauge w s.sample = true ↔
      s.name = pendingGauge ∧ hasLabel "worker" w s = true := by
  rw [counts_worker_iff worker, hasLabel, decide_eq_true_iff]
  refine and_congr_right fun name => ⟨?_, fun member => ?_⟩
  · rintro ⟨label, member, mentioned⟩
    exact apart.workers name w worker label member mentioned
  · exact ⟨_, member, .inr (contains_iff.mpr List.infix_rfl)⟩

theorem pendingWriteWork_eq (apart : ∀ s ∈ series, NamesApart s) :
    pendingWriteWork (scraped series) = pendingByLabel series := by
  refine List.foldl_ext _ _ _ fun acc w worker => ?_
  have same : (scraped series).sumWhere pendingGauge w =
      totalOf series pendingGauge (hasLabel "worker" w) :=
    sumWhere_scraped fun s member => counts_worker_of_apart (apart s member) worker
  cases read : totalOf series pendingGauge (hasLabel "worker" w) <;> simp only [same, read]

/-- The counts of two scrapes that no order of labels decides. -/
structure SameButRan (h h' : ExtractionHealth) : Prop where
  tierFailed : h.tierFailed = h'.tierFailed
  dropped : h.dropped = h'.dropped
  entities : h.entities = h'.entities
  statements : h.statements = h'.statements
  relations : h.relations = h'.relations

theorem fromMetrics_sameButRan (apart : ∀ s ∈ series, NamesApart s) :
    SameButRan (fromMetrics (scraped series)) (healthByLabel series) := by
  have failed : (scraped series).sumWhere tierRuns failedNeedle =
      totalOf series tierRuns (hasLabel "status" "failed") := by
    refine sumWhere_scraped fun s member => ?_
    rw [failed_of_apart (apart s member)]
    simp [hasLabel]
  have item : ∀ kind ∈ itemKinds, (scraped series).sumWhere itemsWritten (itemNeedle kind) =
      totalOf series itemsWritten (hasLabel "item_kind" kind) := by
    intro kind known
    refine sumWhere_scraped fun s member => ?_
    rw [items_of_apart (apart s member) kind known]
    simp [hasLabel]
  constructor
  · simp only [fromMetrics, healthByLabel, failed]
  · simp only [fromMetrics, healthByLabel, sum_scraped]
  · simp only [fromMetrics, healthByLabel, item "entity" (by decide)]
  · simp only [fromMetrics, healthByLabel, item "statement" (by decide)]
  · simp only [fromMetrics, healthByLabel, item "relation" (by decide)]

theorem fromMetrics_eq (unmistakable : ∀ s ∈ series, Unmistakable s) :
    fromMetrics (scraped series) = healthByLabel series := by
  have rest := fromMetrics_sameButRan fun s member => (unmistakable s member).toNamesApart
  have ran : ∀ tier ∈ tiers, (scraped series).sumWhere tierRuns (ranNeedle tier) =
      totalOf series tierRuns fun s => hasLabel "tier" tier s && hasLabel "status" "ran" s := by
    intro tier known
    refine sumWhere_scraped fun s member => ?_
    rw [((selectedByLabel_iff s).mpr (unmistakable s member)).ran tier known]
    simp [hasLabel]
  apply ExtractionHealth.ext
  · simp only [fromMetrics, healthByLabel, ran "pattern" (by decide)]
  · simp only [fromMetrics, healthByLabel, ran "classifier" (by decide)]
  · simp only [fromMetrics, healthByLabel, ran "llm" (by decide)]
  · exact rest.tierFailed
  · exact rest.dropped
  · exact rest.entities
  · exact rest.statements
  · exact rest.relations

structure Relabelled (s s' : Series) : Prop where
  name : s.name = s'.name
  value : s.value = s'.value
  labels : s.labels.Perm s'.labels

theorem totalOf_relabelled {series' : List Series}
    (relabelled : List.Forall₂ Relabelled series series') (family : String)
    (selected : Series → Bool) (same : ∀ {s s'}, Relabelled s s' → selected s = selected s') :
    totalOf series family selected = totalOf series' family selected := by
  have values : (series.filter fun s => s.name == family && selected s).map (·.value) =
      (series'.filter fun s => s.name == family && selected s).map (·.value) := by
    induction relabelled with
    | nil => rfl
    | @cons s s' _ _ here _ ih =>
      rw [List.filter_cons, List.filter_cons, here.name, same here]
      split
      · rw [List.map_cons, List.map_cons, here.value, ih]
      · exact ih
  rw [totalOf, totalOf, values]

theorem hasLabel_relabelled {s s' : Series} (relabelled : Relabelled s s') (key value : String) :
    hasLabel key value s = hasLabel key value s' := by
  rw [hasLabel, hasLabel, decide_eq_decide]
  exact relabelled.labels.mem_iff

theorem byLabel_relabelled {series' : List Series}
    (relabelled : List.Forall₂ Relabelled series series') :
    pendingByLabel series = pendingByLabel series' ∧
      healthByLabel series = healthByLabel series' := by
  have one := fun family key value => totalOf_relabelled relabelled family (hasLabel key value)
    fun {_ _} here => hasLabel_relabelled here key value
  have both := fun tier => totalOf_relabelled relabelled tierRuns
    (fun s => hasLabel "tier" tier s && hasLabel "status" "ran" s)
    fun {_ _} here => by simp only [hasLabel_relabelled here]
  have whole := fun family => totalOf_relabelled relabelled family (fun _ => true) fun _ => rfl
  constructor
  · simp only [pendingByLabel, one]
  · simp only [healthByLabel, one, both, whole]

def droppedFamilies : List String :=
  ["brain_extractor_apply_dropped_total", "brain_extractor_drops_total",
    "brain_extractor_schema_filtered_total"]

/-- A series of other workers, tiers, statuses, item kinds or families. -/
structure Foreign (s : Series) : Prop where
  pending : s.name = pendingGauge → ∀ w ∈ drainWorkers, ("worker", w) ∉ s.labels
  ran : s.name = tierRuns → ∀ tier ∈ tiers, ("tier", tier) ∈ s.labels →
    ("status", "ran") ∉ s.labels
  failed : s.name = tierRuns → ("status", "failed") ∉ s.labels
  items : s.name = itemsWritten → ∀ kind ∈ itemKinds, ("item_kind", kind) ∉ s.labels
  dropped : s.name ∉ droppedFamilies

theorem totalOf_skip {before after : List Series} {other : Series} {family : String}
    {selected : Series → Bool} (skipped : other.name = family → selected other = false) :
    totalOf (before ++ other :: after) family selected =
      totalOf (before ++ after) family selected := by
  have out : (other.name == family && selected other) = false := by
    by_cases name : other.name = family
    · simp [skipped name]
    · simp [name]
  simp [totalOf, List.filter_append, out]

theorem byLabel_foreign {before after : List Series} {other : Series} (foreign : Foreign other) :
    pendingByLabel (before ++ other :: after) = pendingByLabel (before ++ after) ∧
      healthByLabel (before ++ other :: after) = healthByLabel (before ++ after) := by
  constructor
  · refine List.foldl_ext _ _ _ fun acc w worker => ?_
    rw [totalOf_skip fun name => decide_eq_false (foreign.pending name w worker)]
  · have ran : ∀ tier ∈ tiers,
        totalOf (before ++ other :: after) tierRuns
          (fun s => hasLabel "tier" tier s && hasLabel "status" "ran" s) =
        totalOf (before ++ after) tierRuns
          (fun s => hasLabel "tier" tier s && hasLabel "status" "ran" s) := by
      intro tier known
      refine totalOf_skip fun name => ?_
      have apart := foreign.ran name tier known
      simpa [hasLabel, Bool.eq_false_iff] using apart
    have item : ∀ kind ∈ itemKinds,
        totalOf (before ++ other :: after) itemsWritten (hasLabel "item_kind" kind) =
          totalOf (before ++ after) itemsWritten (hasLabel "item_kind" kind) :=
      fun kind known => totalOf_skip fun name => decide_eq_false (foreign.items name kind known)
    have failed : totalOf (before ++ other :: after) tierRuns (hasLabel "status" "failed") =
        totalOf (before ++ after) tierRuns (hasLabel "status" "failed") :=
      totalOf_skip fun name => decide_eq_false (foreign.failed name)
    have whole : ∀ family ∈ droppedFamilies,
        totalOf (before ++ other :: after) family (fun _ => true) =
          totalOf (before ++ after) family (fun _ => true) :=
      fun family known => totalOf_skip fun name => absurd (name ▸ known) foreign.dropped
    simp only [healthByLabel, failed, ran "pattern" (by decide), ran "classifier" (by decide),
      ran "llm" (by decide), item "entity" (by decide), item "statement" (by decide),
      item "relation" (by decide), whole "brain_extractor_apply_dropped_total" (by decide),
      whole "brain_extractor_drops_total" (by decide),
      whole "brain_extractor_schema_filtered_total" (by decide)]

end Totals

section Orders

variable {s s' : Series}

theorem NamesApart.relabelled (apart : NamesApart s) (relabelled : Relabelled s s') :
    NamesApart s' where
  workers name w worker label member mentioned :=
    relabelled.labels.mem_iff.mp (apart.workers (relabelled.name.trans name) w worker label
      (relabelled.labels.mem_iff.mpr member) mentioned)
  failed name label member ends value :=
    relabelled.labels.mem_iff.mp (apart.failed (relabelled.name.trans name) label
      (relabelled.labels.mem_iff.mpr member) ends value)
  items name kind known label member ends value :=
    relabelled.labels.mem_iff.mp (apart.items (relabelled.name.trans name) kind known label
      (relabelled.labels.mem_iff.mpr member) ends value)

theorem UnmistakableInAnyOrder.relabelled (unmistakable : UnmistakableInAnyOrder s)
    (relabelled : Relabelled s s') : UnmistakableInAnyOrder s' where
  toNamesApart := unmistakable.toNamesApart.relabelled relabelled
  ran name status label member :=
    unmistakable.ran (relabelled.name.trans name) (relabelled.labels.mem_iff.mpr status) label
      (relabelled.labels.mem_iff.mpr member)

theorem UnmistakableInAnyOrder.unmistakable (any_order : UnmistakableInAnyOrder s) :
    Unmistakable s where
  toNamesApart := any_order.toNamesApart
  ran name tier known := by
    constructor
    · rintro ⟨before, label, after, split, ends, rfl⟩
      have status : ("status", "ran") ∈ s.labels := by simp [split]
      exact absurd known (any_order.ran name status label (by simp [split]) ends)
    · rintro ⟨member, status⟩
      exact absurd known (any_order.ran name status _ member List.suffix_rfl)

def reordered (s : Series) (labels : List (String × String)) (perm : s.labels.Perm labels) :
    Series :=
  { s with
    labels
    labelled := fun label member => s.labelled label (perm.mem_iff.mpr member)
    distinct := ((perm.map Prod.fst).nodup_iff).mp s.distinct }

theorem reordered_relabelled {labels : List (String × String)} (perm : s.labels.Perm labels) :
    Relabelled s (reordered s labels perm) := ⟨rfl, rfl, perm⟩

-- With the status first nothing stands in front of it, and behind a label it takes that one.
theorem unmistakableInAnyOrder_of_reordered
    (each : ∀ labels (perm : s.labels.Perm labels), Unmistakable (reordered s labels perm)) :
    UnmistakableInAnyOrder s where
  toNamesApart := by
    have here := (each s.labels (List.Perm.refl _)).toNamesApart
    exact ⟨here.workers, here.failed, here.items⟩
  ran name status label member ends known := by
    have other : label ≠ ("status", "ran") := by
      rintro rfl
      exact absurd ends (by decide)
    obtain ⟨rest, perm⟩ : ∃ rest, s.labels.Perm (label :: ("status", "ran") :: rest) := by
      have first := List.perm_cons_erase member
      have second := List.perm_cons_erase ((List.mem_erase_of_ne other.symm).mpr status)
      exact ⟨_, first.trans (second.cons label)⟩
    have swapped := perm.trans (List.Perm.swap ("status", "ran") label rest)
    have found := ((each _ perm).ran name label.2 known).mp ⟨[], label, rest, rfl, ends, rfl⟩
    obtain ⟨before, tier, after, split, -⟩ := ((each _ swapped).ran name label.2 known).mpr
      ⟨swapped.mem_iff.mp (perm.mem_iff.mpr found.1), List.mem_cons_self⟩
    have distinct := ((swapped.map Prod.fst).nodup_iff).mp s.distinct
    cases before with
    | nil =>
      have twice : ("status", "ran") ∈ label :: rest := by
        rw [(List.cons.inj split).2]
        exact List.mem_cons_self
      exact (List.nodup_cons.mp distinct).1 (List.mem_map_of_mem twice)
    | cons first before =>
      have twice : ("status", "ran") ∈ label :: rest := by
        rw [(List.cons.inj split).2]
        simp
      exact (List.nodup_cons.mp distinct).1 (List.mem_map_of_mem twice)

theorem forall₂_relabelled (before after : List Series) (here : Relabelled s s') :
    List.Forall₂ Relabelled (before ++ s :: after) (before ++ s' :: after) := by
  have same (series : List Series) : List.Forall₂ Relabelled series series :=
    List.forall₂_same.mpr fun s _ => ⟨rfl, rfl, List.Perm.refl _⟩
  exact List.rel_append (same before) (.cons here (same after))

theorem forall_of_relabelled {P : Series → Prop} {series series' : List Series}
    (kept : ∀ {s s'}, P s → Relabelled s s' → P s')
    (relabelled : List.Forall₂ Relabelled series series') (all : ∀ s ∈ series, P s) :
    ∀ s ∈ series', P s := by
  induction relabelled with
  | nil => exact fun s member => absurd member List.not_mem_nil
  | cons here _ ih =>
    obtain ⟨first, rest⟩ := List.forall_mem_cons.mp all
    exact List.forall_mem_cons.mpr ⟨kept first here, ih rest⟩

end Orders

/-- The gauge and the counts read what the labels select, whatever other series are there. Only the
runs of a tier depend on the order of the labels. -/
structure ReadsByLabel (series : List Series) : Prop where
  pending : pendingWriteWork (scraped series) = pendingByLabel series
  health : fromMetrics (scraped series) = healthByLabel series
  relabelled : ∀ series', List.Forall₂ Relabelled series series' →
    pendingWriteWork (scraped series') = pendingWriteWork (scraped series) ∧
      SameButRan (fromMetrics (scraped series')) (fromMetrics (scraped series)) ∧
      ((∀ s ∈ series', RanBehindTier s) →
        fromMetrics (scraped series') = fromMetrics (scraped series))
  foreign : ∀ before other after, series = before ++ other :: after → Foreign other →
    pendingWriteWork (scraped series) = pendingWriteWork (scraped (before ++ after)) ∧
      fromMetrics (scraped series) = fromMetrics (scraped (before ++ after))

theorem readsByLabel_of_unmistakable {series : List Series}
    (unmistakable : ∀ s ∈ series, Unmistakable s) : ReadsByLabel series where
  pending := pendingWriteWork_eq fun s member => (unmistakable s member).toNamesApart
  health := fromMetrics_eq unmistakable
  relabelled series' relabelled := by
    have apart : ∀ s ∈ series, NamesApart s := fun s member => (unmistakable s member).toNamesApart
    have apart' : ∀ s ∈ series', NamesApart s :=
      forall_of_relabelled NamesApart.relabelled relabelled apart
    obtain ⟨pending, health⟩ := byLabel_relabelled relabelled
    rw [pendingWriteWork_eq apart, fromMetrics_eq unmistakable, pendingWriteWork_eq apart', pending,
      health]
    exact ⟨rfl, fromMetrics_sameButRan apart', fun behind =>
      fromMetrics_eq fun s member => ⟨apart' s member, behind s member⟩⟩
  foreign before other after joined foreign := by
    subst joined
    have rest : ∀ s ∈ before ++ after, Unmistakable s := fun s member => by
      refine unmistakable s (List.mem_append.mpr ?_)
      exact (List.mem_append.mp member).imp_right (List.mem_cons_of_mem other)
    rw [pendingWriteWork_eq fun s member => (unmistakable s member).toNamesApart,
      fromMetrics_eq unmistakable,
      pendingWriteWork_eq fun s member => (rest s member).toNamesApart, fromMetrics_eq rest]
    exact byLabel_foreign foreign

/-- In every order of the labels each series is counted by label, and all such orders are read
alike. -/
structure ReadsByLabelInAnyOrder (series : List Series) : Prop where
  counted : ∀ series', List.Forall₂ Relabelled series series' → ∀ s ∈ series', SelectedByLabel s
  reads : ∀ series', List.Forall₂ Relabelled series series' → ReadsByLabel series' ∧
    pendingWriteWork (scraped series') = pendingWriteWork (scraped series) ∧
      fromMetrics (scraped series') = fromMetrics (scraped series)

theorem readsByLabelInAnyOrder_iff (series : List Series) :
    ReadsByLabelInAnyOrder series ↔ ∀ s ∈ series, UnmistakableInAnyOrder s := by
  constructor
  · intro any_order s member
    obtain ⟨before, after, rfl⟩ := List.append_of_mem member
    refine unmistakableInAnyOrder_of_reordered fun labels perm => ?_
    have relabelled := forall₂_relabelled before after (reordered_relabelled perm)
    exact (selectedByLabel_iff _).mp (any_order.counted _ relabelled _ (by simp))
  · intro unmistakable
    have each : ∀ series', List.Forall₂ Relabelled series series' →
        ∀ s ∈ series', Unmistakable s := fun series' relabelled s member =>
      (forall_of_relabelled UnmistakableInAnyOrder.relabelled relabelled unmistakable s
        member).unmistakable
    refine ⟨fun series' relabelled s member => ?_, fun series' relabelled => ?_⟩
    · exact (selectedByLabel_iff s).mpr (each series' relabelled s member)
    · have here := readsByLabel_of_unmistakable fun s member => (unmistakable s member).unmistakable
      obtain ⟨pending, -, health⟩ := here.relabelled series' relabelled
      exact ⟨readsByLabel_of_unmistakable (each series' relabelled), pending,
        health fun s member => (each series' relabelled s member).ran⟩

/-- Over any exposition, the parser reads the series back, and the needles count them by label
exactly when no label can be taken for another; then the sums are those the labels select. They do
so in every order of the labels exactly when, besides, no tier is told to have run. -/
theorem selected_by_label_iff (series : List Series) :
    parse (exposition series) = some (scraped series) ∧
      ((∀ s ∈ series, SelectedByLabel s) ↔ ∀ s ∈ series, Unmistakable s) ∧
      ((∀ s ∈ series, Unmistakable s) → ReadsByLabel series) ∧
      (ReadsByLabelInAnyOrder series ↔ ∀ s ∈ series, UnmistakableInAnyOrder s) :=
  ⟨parse_exposition series, forall₂_congr fun s _ => selectedByLabel_iff s,
    readsByLabel_of_unmistakable, readsByLabelInAnyOrder_iff series⟩

-- A housekeeping worker whose name begins as a write-path worker's does.
def collectorSeries : Series :=
  .ofFields pendingGauge [("shard", "0"), ("worker", "extractor_gc")] "7" 7.0
    (by decide +kernel) pendingGauge_ne_empty (by decide +kernel) (by decide +kernel)

-- A tier run whose status is written first.
def swappedSeries : Series :=
  .ofFields tierRuns [("status", "ran"), ("tier", "llm")] "3" 3.0
    (by decide +kernel) (by decide +kernel) (by decide +kernel) (by decide +kernel)

theorem text_is_taken_for_labels :
    pendingWriteWork (scraped [collectorSeries, swappedSeries]) = some 7.0 ∧
      (fromMetrics (scraped [collectorSeries, swappedSeries])).tierRanLlm = 0 ∧
      ¬ SelectedByLabel collectorSeries ∧ ¬ SelectedByLabel swappedSeries := by
  refine ⟨by decide +kernel, by decide +kernel, fun selected => ?_, fun selected => ?_⟩
  · exact absurd selected.pending (by decide +kernel)
  · exact absurd (selected.ran "llm" (by decide)) (by decide +kernel)

end BrainEval.Report
