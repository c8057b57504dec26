import Mathlib
import BrainEval.Lib.Polling
import BrainEval.Client.Metrics

set_option autoImplicit false

namespace BrainEval.Drain

open Polling PrometheusMetrics

structure DrainBarrierStats where
  extractorItemsWritten : UInt64
  statementRowsEmbedded : UInt64
  flushed : Bool
  deriving DecidableEq, Repr

def drainWorkers : List String :=
  ["extractor", "statement_embed", "auto_edge", "temporal_edge", "causal_edge"]

-- Durations are in nanoseconds.
def drainInterval : Nat := 250000000

def drainStablePolls : Nat := 4

def drainMinWait : Nat := 1000000000

def drainMaxWait : Nat := 600000000000

-- 60 s of no movement, at this interval
def needed : Nat := 60000000000 / drainInterval

def pendingGauge : String := "brain_worker_pending_work"

theorem pendingGauge_ne_empty : pendingGauge ≠ "" := by decide

-- The queued work of the write-path workers, or `none` when no sample of theirs is there.
def pendingWriteWork (m : PrometheusMetrics) : Option Float :=
  drainWorkers.foldl (fun total w =>
    match m.sumWhere pendingGauge w with
    | some v => some (total.getD 0.0 + v)
    | none => total) none

def counter (m : PrometheusMetrics) (family : String) : UInt64 :=
  ((m.sum family).getD 0.0).toUInt64

def extracted (m : PrometheusMetrics) : UInt64 := counter m "brain_extractor_items_written_total"

def embedded (m : PrometheusMetrics) : UInt64 :=
  counter m "brain_statement_embed_rows_embedded_total"

/-- One pass of the loop: the clock as it begins, the scrape if it succeeds, and the clock once the
scrape is read. -/
structure Poll where
  began : Nat
  scrape : Option PrometheusMetrics
  elapsed : Nat

/-- The variables of the loop; `counters_fit` is why the `u32` counters need no bound. -/
structure Barrier where
  stable : Nat
  lastEx : UInt64
  lastEm : UInt64
  plateauLast : Int64
  plateauStable : Nat
  gaugeSeen : Bool

namespace Barrier

def start : Barrier := ⟨0, 0, 0, -1, 0, false⟩

def capped (s : Barrier) : DrainBarrierStats := ⟨s.lastEx, s.lastEm, false⟩

-- One pass; the error is an early return, the fall out of the loop at the cap among them.
def poll (s : Barrier) (p : Poll) : Except DrainBarrierStats Barrier :=
  if drainMaxWait ≤ p.began then .error s.capped
  else
    match p.scrape with
    -- a failed scrape is skipped without resetting progress
    | none => .ok s
    | some m =>
      let ex := extracted m
      let em := embedded m
      let s := { s with lastEx := ex, lastEm := em }
      match pendingWriteWork m with
      | some pendingTotal =>
        let stable := if pendingTotal == 0.0 then s.stable + 1 else 0
        if drainMinWait ≤ p.elapsed ∧ drainStablePolls ≤ stable then .error ⟨ex, em, true⟩
        else .ok { s with gaugeSeen := true, stable := stable }
      | none =>
        if s.gaugeSeen then .ok s
        else
          let cur := ex.toInt64 + em.toInt64
          let s :=
            if cur = s.plateauLast then { s with plateauStable := s.plateauStable + 1 }
            else { s with plateauStable := 0, plateauLast := cur }
          if 0 < cur ∧ needed ≤ s.plateauStable then .error ⟨ex, em, true⟩ else .ok s

def nextStable (s : Barrier) (v : Float) : Nat := if v == 0.0 then s.stable + 1 else 0

def cur (m : PrometheusMetrics) : Int64 := (extracted m).toInt64 + (embedded m).toInt64

def nextPlateau (s : Barrier) (m : PrometheusMetrics) : Nat :=
  if cur m = s.plateauLast then s.plateauStable + 1 else 0

theorem nextStable_le (s : Barrier) (v : Float) : s.nextStable v ≤ s.stable + 1 := by
  unfold nextStable
  split <;> omega

theorem nextPlateau_le (s : Barrier) (m : PrometheusMetrics) :
    s.nextPlateau m ≤ s.plateauStable + 1 := by
  unfold nextPlateau
  split <;> omega

theorem poll_pending (s : Barrier) {p : Poll} {m : PrometheusMetrics} {v : Float}
    (inTime : p.began < drainMaxWait) (scraped : p.scrape = some m)
    (carried : pendingWriteWork m = some v) :
    s.poll p =
      if drainMinWait ≤ p.elapsed ∧ drainStablePolls ≤ s.nextStable v then
        .error ⟨extracted m, embedded m, true⟩
      else .ok { s with
        stable := s.nextStable v, lastEx := extracted m, lastEm := embedded m, gaugeSeen := true } := by
  rw [poll, if_neg (not_le.mpr inTime), scraped]
  simp only [carried]
  rfl

/-- All that one pass can do. -/
inductive Pass (s : Barrier) (p : Poll) : Except DrainBarrierStats Barrier → Prop where
  | capped (late : drainMaxWait ≤ p.began) : Pass s p (.error s.capped)
  | failed (inTime : p.began < drainMaxWait) (failed : p.scrape = none) : Pass s p (.ok s)
  | drained {m : PrometheusMetrics} {v : Float} (scraped : p.scrape = some m)
      (carried : pendingWriteWork m = some v)
      (enough : drainMinWait ≤ p.elapsed ∧ drainStablePolls ≤ s.nextStable v) :
      Pass s p (.error ⟨extracted m, embedded m, true⟩)
  | queued {m : PrometheusMetrics} {v : Float} (scraped : p.scrape = some m)
      (carried : pendingWriteWork m = some v)
      (short : ¬(drainMinWait ≤ p.elapsed ∧ drainStablePolls ≤ s.nextStable v)) :
      Pass s p (.ok { s with
        stable := s.nextStable v, lastEx := extracted m, lastEm := embedded m, gaugeSeen := true })
  | dropped {m : PrometheusMetrics} (scraped : p.scrape = some m)
      (absent : pendingWriteWork m = none) (seen : s.gaugeSeen = true) :
      Pass s p (.ok { s with lastEx := extracted m, lastEm := embedded m })
  | plateaued {m : PrometheusMetrics} (scraped : p.scrape = some m)
      (absent : pendingWriteWork m = none) (unseen : s.gaugeSeen = false)
      (enough : 0 < cur m ∧ needed ≤ s.nextPlateau m) :
      Pass s p (.error ⟨extracted m, embedded m, true⟩)
  | moving {m : PrometheusMetrics} (scraped : p.scrape = some m)
      (absent : pendingWriteWork m = none) (unseen : s.gaugeSeen = false)
      (short : ¬(0 < cur m ∧ needed ≤ s.nextPlateau m)) :
      Pass s p (.ok { s with
        lastEx := extracted m, lastEm := embedded m,
        plateauLast := cur m, plateauStable := s.nextPlateau m })

theorem poll_pass (s : Barrier) (p : Poll) : Pass s p (s.poll p) := by
  by_cases late : drainMaxWait ≤ p.began
  · rw [poll, if_pos late]
    exact .capped late
  cases scraped : p.scrape with
  | none =>
    rw [poll, if_neg late, scraped]
    exact .failed (not_le.mp late) scraped
  | some m =>
    cases carried : pendingWriteWork m with
    | some v =>
      rw [poll_pending s (not_le.mp late) scraped carried]
      split
      · next enough => exact .drained scraped carried enough
      · next short => exact .queued scraped carried short
    | none =>
      rw [poll, if_neg late, scraped]
      simp only [carried]
      by_cases seen : s.gaugeSeen = true
      · rw [if_pos seen]
        exact .dropped scraped carried seen
      have unseen : s.gaugeSeen = false := by simpa using seen
      have moved : (if (extracted m).toInt64 + (embedded m).toInt64 = s.plateauLast then
            { s with
              lastEx := extracted m, lastEm := embedded m, plateauStable := s.plateauStable + 1 }
          else
            { s with
              lastEx := extracted m, lastEm := embedded m, plateauStable := 0,
              plateauLast := (extracted m).toInt64 + (embedded m).toInt64 }) =
          { s with
            lastEx := extracted m, lastEm := embedded m,
            plateauLast := cur m, plateauStable := s.nextPlateau m } := by
        unfold nextPlateau cur
        by_cases same : (extracted m).toInt64 + (embedded m).toInt64 = s.plateauLast
        · rw [if_pos same, if_pos same, same]
        · rw [if_neg same, if_neg same]
      rw [if_neg seen, moved]
      by_cases enough : 0 < cur m ∧ needed ≤ s.nextPlateau m
      · rw [← cur, if_pos enough]
        exact .plateaued scraped carried unseen enough
      · rw [← cur, if_neg enough]
        exact .moving scraped carried unseen enough

end Barrier

def waitForWriteFlush (polls : List Poll) : DrainBarrierStats :=
  match polls.foldlM Barrier.poll .start with
  | .error stats => stats
  | .ok s => s.capped

-- The pass at which the barrier reports a flush.
def FlushesAt (polls : List Poll) (t : Nat) : Prop :=
  ReturnsAt Barrier.poll .start polls t (waitForWriteFlush polls) ∧
    (waitForWriteFlush polls).flushed = true

theorem waitForWriteFlush_of_returnsAt {polls : List Poll} {t : Nat} {stats : DrainBarrierStats}
    (returned : ReturnsAt Barrier.poll .start polls t stats) : waitForWriteFlush polls = stats := by
  rw [waitForWriteFlush, (foldlM_error_iff Barrier.poll).mpr ⟨t, returned⟩]

theorem flushesAt_iff {polls : List Poll} {t : Nat} :
    FlushesAt polls t ↔
      ∃ ex em, ReturnsAt Barrier.poll .start polls t ⟨ex, em, true⟩ := by
  constructor
  · rintro ⟨returned, flushed⟩
    cases same : waitForWriteFlush polls with
    | mk ex em verdict =>
      rw [same] at returned flushed
      exact ⟨ex, em, flushed ▸ returned⟩
  · rintro ⟨ex, em, returned⟩
    have same := waitForWriteFlush_of_returnsAt returned
    exact ⟨same ▸ returned, by rw [same]⟩

section History

def Poll.pending (p : Poll) : Option Float := p.scrape.bind pendingWriteWork

def scrapes (polls : List Poll) : List PrometheusMetrics := polls.filterMap (·.scrape)

def pendings (polls : List Poll) : List Float := polls.filterMap (·.pending)

def counterSum (m : PrometheusMetrics) : Nat := (extracted m).toNat + (embedded m).toNat

def counterSums (polls : List Poll) : List Nat := (scrapes polls).map counterSum

def lastCounters (polls : List Poll) : UInt64 × UInt64 :=
  ((scrapes polls).getLast?.map fun m => (extracted m, embedded m)).getD (0, 0)

variable {before : List Poll} {p : Poll}

@[simp] theorem scrapes_concat : scrapes (before ++ [p]) = scrapes before ++ p.scrape.toList := by
  cases failed : p.scrape <;> simp [scrapes, failed]

@[simp] theorem pendings_concat :
    pendings (before ++ [p]) = pendings before ++ p.pending.toList := by
  cases absent : p.pending <;> simp [pendings, absent]

@[simp] theorem counterSums_concat :
    counterSums (before ++ [p]) = counterSums before ++ (p.scrape.map counterSum).toList := by
  cases failed : p.scrape <;> simp [counterSums, failed]

end History

def isZero (v : Float) : Bool := v == 0.0

/-- What the loop knows of the gauge from the polls so far, whatever their counters and clocks. -/
structure GaugeKnown (polls : List Poll) (s : Barrier) : Prop where
  stable : s.stable = streak isZero (pendings polls)
  seen : s.gaugeSeen = true ↔ pendings polls ≠ []

theorem gaugeKnown_start : GaugeKnown [] .start := ⟨rfl, by simp [Barrier.start, pendings]⟩

section Gauge

variable {before : List Poll} {s : Barrier} {p : Poll} {m : PrometheusMetrics}

theorem pending_of_scraped (scraped : p.scrape = some m) : p.pending = pendingWriteWork m := by
  rw [Poll.pending, scraped, Option.bind_some]

theorem GaugeKnown.never (known : GaugeKnown before s) (unseen : s.gaugeSeen = false) :
    pendings before = [] := by
  simpa [unseen] using known.seen

theorem GaugeKnown.nextStable_eq (known : GaugeKnown before s) (v : Float) :
    s.nextStable v = streak isZero (pendings before ++ [v]) := by
  rw [streak_concat, ← known.stable]
  rfl

theorem GaugeKnown.next (known : GaugeKnown before s) {s' : Barrier} (ok : s.poll p = .ok s') :
    GaugeKnown (before ++ [p]) s' := by
  have pass := s.poll_pass p
  rw [ok] at pass
  cases pass with
  | failed _ failed =>
    have absent : p.pending = none := by simp [Poll.pending, failed]
    exact ⟨by simpa [absent] using known.stable, by simpa [absent] using known.seen⟩
  | queued scraped carried _ =>
    have pending := (pending_of_scraped scraped).trans carried
    exact ⟨by simp [pending, known.nextStable_eq], by simp [pending]⟩
  | dropped scraped absent seen =>
    have pending := (pending_of_scraped scraped).trans absent
    exact ⟨by simpa [pending] using known.stable, by simpa [pending] using known.seen⟩
  | moving scraped absent unseen _ =>
    have pending := (pending_of_scraped scraped).trans absent
    exact ⟨by simpa [pending] using known.stable, by simpa [pending] using known.seen⟩

theorem GaugeKnown.flush (known : GaugeKnown before s) {ex em : UInt64}
    (returned : s.poll p = .error ⟨ex, em, true⟩) (seen : pendings (before ++ [p]) ≠ []) :
    drainStablePolls ≤ streak isZero (pendings (before ++ [p])) := by
  have pass := s.poll_pass p
  rw [returned] at pass
  cases pass with
  | drained scraped carried enough =>
    have pending := (pending_of_scraped scraped).trans carried
    rw [known.nextStable_eq] at enough
    simpa [pending] using enough.2
  | plateaued scraped absent unseen _ =>
    have pending := (pending_of_scraped scraped).trans absent
    exact absurd (known.never unseen) (by simpa [pending] using seen)

end Gauge

section Counters

-- A pass sleeps before the next one begins.
def Paced (polls : List Poll) : Prop :=
  polls.Pairwise fun a b => a.began + drainInterval ≤ b.began

theorem began_of_paced {p : Poll} {polls : List Poll} (paced : Paced (p :: polls))
    (inTime : ∀ q ∈ p :: polls, q.began < drainMaxWait) :
    p.began + drainInterval * polls.length < drainMaxWait := by
  induction polls generalizing p with
  | nil => simpa using inTime p List.mem_cons_self
  | cons next polls ih =>
    obtain ⟨later, paced⟩ := List.pairwise_cons.mp paced
    have rest := ih paced fun q member => inTime q (List.mem_cons_of_mem _ member)
    have gap := later next List.mem_cons_self
    rw [List.length_cons, Nat.mul_succ]
    omega

theorem length_of_paced {polls : List Poll} (paced : Paced polls)
    (inTime : ∀ p ∈ polls, p.began < drainMaxWait) : polls.length ≤ 2400 := by
  cases polls with
  | nil => simp
  | cons p polls =>
    have bounded := began_of_paced paced inTime
    simp only [drainInterval, drainMaxWait] at bounded
    rw [List.length_cons]
    omega

theorem counters_le {polls : List Poll} {s : Barrier}
    (reached : polls.foldlM Barrier.poll .start = .ok s) :
    s.stable ≤ polls.length ∧ s.plateauStable ≤ polls.length := by
  refine foldlM_ok_inv Barrier.poll (fun before s =>
    s.stable ≤ before.length ∧ s.plateauStable ≤ before.length) ⟨le_rfl, le_rfl⟩ ?_ reached
  rintro before s p s' ⟨stable, plateau⟩ ok
  have pass := s.poll_pass p
  rw [ok] at pass
  rw [List.length_append, List.length_singleton]
  cases pass with
  | failed => exact ⟨Nat.le_succ_of_le stable, Nat.le_succ_of_le plateau⟩
  | @queued m v =>
    exact ⟨(s.nextStable_le v).trans (Nat.succ_le_succ stable), Nat.le_succ_of_le plateau⟩
  | dropped => exact ⟨Nat.le_succ_of_le stable, Nat.le_succ_of_le plateau⟩
  | @moving m =>
    exact ⟨Nat.le_succ_of_le stable, (s.nextPlateau_le m).trans (Nat.succ_le_succ plateau)⟩

theorem counters_fit {polls : List Poll} {s : Barrier} (paced : Paced polls)
    (inTime : ∀ p ∈ polls, p.began < drainMaxWait)
    (reached : polls.foldlM Barrier.poll .start = .ok s) :
    s.stable < 2 ^ 32 ∧ s.plateauStable < 2 ^ 32 := by
  have long := length_of_paced paced inTime
  have counted := counters_le reached
  omega

end Counters

end BrainEval.Drain
