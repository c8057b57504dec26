import Mathlib
import BrainEval.Client.Drain

set_option autoImplicit false

namespace BrainEval.Drain

open Polling PrometheusMetrics

/-- The last poll carries the gauge, late enough, and so many polls that carried it read zero. -/
def SettledByGauge (polls : List Poll) : Prop :=
  ∃ p, polls.getLast? = some p ∧ p.pending.isSome = true ∧ drainMinWait ≤ p.elapsed ∧
    drainStablePolls ≤ (pendings polls).length ∧
    ∀ v ∈ (pendings polls).rtake drainStablePolls, isZero v = true

/-- The gauge was never there, and the counters have stood still over the last 241 scrapes. -/
def SettledByPlateau (polls : List Poll) : Prop :=
  ∃ p m, polls.getLast? = some p ∧ p.scrape = some m ∧ pendings polls = [] ∧ 0 < counterSum m ∧
    241 ≤ (counterSums polls).length ∧
    ∀ c ∈ (counterSums polls).rtake 241, c = counterSum m

def Settled (polls : List Poll) : Prop := SettledByGauge polls ∨ SettledByPlateau polls

def settledAt (polls : List Poll) : Set ℕ :=
  {t | t < polls.length ∧ Settled (polls.take (t + 1))}

-- Before the cap, with counters whose sum is an `i64`.
structure InRange (p : Poll) : Prop where
  inTime : p.began < drainMaxWait
  small : ∀ m, p.scrape = some m → counterSum m < 2 ^ 63

section Settled

variable {before : List Poll} {p : Poll} {m : PrometheusMetrics}

theorem not_settled_of_failed (failed : p.scrape = none) : ¬ Settled (before ++ [p]) := by
  rintro (⟨q, last, carried, -⟩ | ⟨q, m, last, scraped, -⟩)
  · obtain rfl : p = q := by simpa using last
    simp [Poll.pending, failed] at carried
  · obtain rfl : p = q := by simpa using last
    simp [failed] at scraped

theorem settled_gauge_iff {v : Float} (carried : p.pending = some v) :
    Settled (before ++ [p]) ↔
      drainMinWait ≤ p.elapsed ∧ drainStablePolls ≤ streak isZero (pendings before ++ [v]) := by
  have history : pendings (before ++ [p]) = pendings before ++ [v] := by simp [carried]
  rw [Settled, SettledByGauge, SettledByPlateau, history, le_streak_iff]
  simp [carried]

theorem not_settled_of_seen (absent : p.pending = none) (seen : pendings before ≠ []) :
    ¬ Settled (before ++ [p]) := by
  rintro (⟨q, last, carried, -⟩ | ⟨q, m, -, -, never, -⟩)
  · obtain rfl : p = q := by simpa using last
    simp [absent] at carried
  · simp [seen] at never

theorem settled_plateau_iff (scraped : p.scrape = some m) (absent : p.pending = none)
    (never : pendings before = []) :
    Settled (before ++ [p]) ↔ 0 < counterSum m ∧
      241 ≤ streak (· == counterSum m) (counterSums before ++ [counterSum m]) := by
  have history : counterSums (before ++ [p]) = counterSums before ++ [counterSum m] := by
    simp [scraped]
  rw [Settled, SettledByGauge, SettledByPlateau, history, le_streak_iff]
  simp [absent, scraped, never]

end Settled

theorem toInt_cur {m : PrometheusMetrics} (small : counterSum m < 2 ^ 63) :
    (Barrier.cur m).toInt = counterSum m := by
  have signed : ∀ n : UInt64, n.toInt64 = Int64.ofNat n.toNat := fun n => by
    apply Int64.toBitVec_inj.mp
    simp
  rw [Barrier.cur, signed, signed, ← Int64.ofNat_add]
  exact Int64.toInt_ofNat_of_lt small

def Plateau (s : Barrier) (sums : List Nat) : Prop :=
  match sums.getLast? with
  | none => s.plateauLast = -1 ∧ s.plateauStable = 0
  | some c => s.plateauLast.toInt = c ∧ s.plateauStable + 1 = streak (· == c) sums

theorem nextPlateau_eq {s : Barrier} {sums : List Nat} {m : PrometheusMetrics}
    (plateau : Plateau s sums) (small : counterSum m < 2 ^ 63) :
    s.nextPlateau m = streak (· == counterSum m) sums := by
  have value := toInt_cur small
  unfold Barrier.nextPlateau
  unfold Plateau at plateau
  cases sums using List.reverseRecOn with
  | nil =>
    have moved : Barrier.cur m ≠ s.plateauLast := by
      intro same
      rw [same, plateau.1] at value
      exact absurd value (by simp)
    simp [moved]
  | append_singleton sums last =>
    simp only [List.getLast?_append, List.getLast?_singleton, Option.some_or] at plateau
    obtain ⟨kept, run⟩ := plateau
    by_cases same : counterSum m = last
    · have still : Barrier.cur m = s.plateauLast := Int64.toInt_inj.mp (by rw [value, kept, same])
      rw [if_pos still, run, same]
    · have moved : Barrier.cur m ≠ s.plateauLast := by
        intro still
        rw [still, kept] at value
        exact same (Int.ofNat_inj.mp value).symm
      have other : (last == counterSum m) = false := by simpa using Ne.symm same
      rw [if_neg moved, streak_concat, other]
      rfl

/-- What the variables of the loop know of the polls so far. -/
structure Known (polls : List Poll) (s : Barrier) : Prop extends GaugeKnown polls s where
  last : (s.lastEx, s.lastEm) = lastCounters polls
  plateau : pendings polls = [] → Plateau s (counterSums polls)

theorem known_start : Known [] .start := ⟨gaugeKnown_start, rfl, fun _ => ⟨rfl, rfl⟩⟩

theorem lastCounters_concat {before : List Poll} {p : Poll} {m : PrometheusMetrics}
    (scraped : p.scrape = some m) :
    lastCounters (before ++ [p]) = (extracted m, embedded m) := by
  simp [lastCounters, scraped]

theorem Known.settled_iff {before : List Poll} {s : Barrier} {p : Poll} {m : PrometheusMetrics}
    (valid : InRange p) (known : Known before s) (scraped : p.scrape = some m)
    (pending : p.pending = none) (never : pendings before = []) :
    Settled (before ++ [p]) ↔ 0 < Barrier.cur m ∧ needed ≤ s.nextPlateau m := by
  have small := valid.small m scraped
  have positive : 0 < Barrier.cur m ↔ 0 < counterSum m := by
    rw [Int64.lt_iff_toInt_lt, toInt_cur small]
    simp
  have window : 241 = needed + 1 := rfl
  rw [settled_plateau_iff scraped pending never, streak_concat, if_pos (by simp), window,
    Nat.add_le_add_iff_right, nextPlateau_eq (known.plateau never) small, positive]

inductive Step (before : List Poll) (s : Barrier) (p : Poll) : Prop where
  | flushes (m : PrometheusMetrics) (settled : Settled (before ++ [p])) (scraped : p.scrape = some m)
      (returned : s.poll p = .error ⟨extracted m, embedded m, true⟩)
  | goes (s' : Barrier) (unsettled : ¬ Settled (before ++ [p])) (next : s.poll p = .ok s')
      (known : Known (before ++ [p]) s')

theorem step_of_known {before : List Poll} {s : Barrier} {p : Poll} (valid : InRange p)
    (known : Known before s) : Step before s p := by
  have pass := s.poll_pass p
  generalize result : s.poll p = r at pass
  cases pass with
  | capped late => exact absurd valid.inTime late.not_gt
  | failed _ failed =>
    refine .goes s (not_settled_of_failed failed) result ⟨known.next result, ?_, ?_⟩
    · rw [known.last]
      simp [lastCounters, failed]
    · simpa [Poll.pending, failed] using known.plateau
  | drained scraped carried enough =>
    have pending := (pending_of_scraped scraped).trans carried
    rw [known.nextStable_eq] at enough
    exact .flushes _ ((settled_gauge_iff pending).mpr enough) scraped result
  | queued scraped carried short =>
    have pending := (pending_of_scraped scraped).trans carried
    rw [known.nextStable_eq] at short
    refine .goes _ (mt (settled_gauge_iff pending).mp short) result ⟨known.next result, ?_, ?_⟩
    · exact (lastCounters_concat scraped).symm
    · simp [pending]
  | dropped scraped absent seen =>
    have pending := (pending_of_scraped scraped).trans absent
    have carried := known.seen.mp seen
    refine .goes _ (not_settled_of_seen pending carried) result ⟨known.next result, ?_, ?_⟩
    · exact (lastCounters_concat scraped).symm
    · simp [pending, carried]
  | plateaued scraped absent unseen enough =>
    have pending := (pending_of_scraped scraped).trans absent
    have never := known.never unseen
    exact .flushes _ ((known.settled_iff valid scraped pending never).mpr enough) scraped result
  | moving scraped absent unseen short =>
    have pending := (pending_of_scraped scraped).trans absent
    have never := known.never unseen
    refine .goes _ (mt (known.settled_iff valid scraped pending never).mp short) result
      ⟨known.next result, ?_, fun _ => ?_⟩
    · exact (lastCounters_concat scraped).symm
    · have small := valid.small _ scraped
      unfold Plateau
      simp [scraped, toInt_cur small, nextPlateau_eq (known.plateau never) small]

def flushedStats (polls : List Poll) : DrainBarrierStats :=
  ⟨(lastCounters polls).1, (lastCounters polls).2, true⟩

theorem decides : Decides Barrier.poll .start InRange Known
    (fun before p => Settled (before ++ [p]))
    (fun before p => flushedStats (before ++ [p])) where
  init := known_start
  keeps valid known unsettled := by
    cases step_of_known valid known with
    | flushes _ settled _ _ => exact absurd settled unsettled
    | goes s' _ next known => exact ⟨s', next, known⟩
  returns valid known settled := by
    cases step_of_known valid known with
    | flushes m _ scraped returned => rw [returned, flushedStats, lastCounters_concat scraped]
    | goes _ unsettled _ _ => exact absurd settled unsettled

theorem mem_settledAt {polls : List Poll} {t : Nat} :
    t ∈ settledAt polls ↔ ∃ p, polls[t]? = some p ∧ Settled (polls.take t ++ [p]) := by
  have history : ∀ p, polls[t]? = some p → polls.take (t + 1) = polls.take t ++ [p] := by
    intro p here
    rw [List.take_add_one, here]
    rfl
  constructor
  · rintro ⟨within, settled⟩
    have here : polls[t]? = some polls[t] := List.getElem?_eq_getElem within
    exact ⟨_, here, history _ here ▸ settled⟩
  · rintro ⟨p, here, settled⟩
    exact ⟨(List.getElem?_eq_some_iff.mp here).1, (history p here).symm ▸ settled⟩

theorem returnsAt_iff {polls : List Poll} (inRange : ∀ p ∈ polls, InRange p) {t : Nat}
    {stats : DrainBarrierStats} :
    ReturnsAt Barrier.poll .start polls t stats ↔
      IsLeast (settledAt polls) t ∧ stats = flushedStats (polls.take (t + 1)) := by
  rw [decides.returnsAt_iff inRange]
  constructor
  · rintro ⟨p, here, settled, rfl, first⟩
    refine ⟨⟨mem_settledAt.mpr ⟨p, here, settled⟩, fun u earlier => ?_⟩, ?_⟩
    · obtain ⟨q, there, sooner⟩ := mem_settledAt.mp earlier
      by_contra less
      exact first u (by omega) q there sooner
    · rw [List.take_add_one, here]
      rfl
  · rintro ⟨⟨settled, least⟩, rfl⟩
    obtain ⟨p, here, settled⟩ := mem_settledAt.mp settled
    refine ⟨p, here, settled, ?_, fun u less q there sooner => ?_⟩
    · rw [List.take_add_one, here]
      rfl
    · exact absurd (least (mem_settledAt.mpr ⟨q, there, sooner⟩)) (by omega)

theorem barrier_verdict {polls : List Poll} (inRange : ∀ p ∈ polls, InRange p) :
    (∀ t, FlushesAt polls t ↔ IsLeast (settledAt polls) t) ∧
      (∀ t, FlushesAt polls t → waitForWriteFlush polls =
        ⟨(lastCounters (polls.take (t + 1))).1, (lastCounters (polls.take (t + 1))).2, true⟩) ∧
      (settledAt polls = ∅ → waitForWriteFlush polls =
        ⟨(lastCounters polls).1, (lastCounters polls).2, false⟩) := by
  have flushes : ∀ t, FlushesAt polls t ↔ IsLeast (settledAt polls) t := by
    intro t
    rw [flushesAt_iff]
    simp only [returnsAt_iff inRange]
    exact ⟨fun ⟨_, _, least, _⟩ => least, fun least => ⟨_, _, least, rfl⟩⟩
  refine ⟨flushes, fun t flushed => ?_, fun never => ?_⟩
  · exact waitForWriteFlush_of_returnsAt
      ((returnsAt_iff inRange).mpr ⟨(flushes t).mp flushed, rfl⟩)
  · have unsettled : ∀ t p, polls[t]? = some p → ¬ Settled (polls.take t ++ [p]) := by
      intro t p here settled
      have found : t ∈ settledAt polls := mem_settledAt.mpr ⟨p, here, settled⟩
      rw [never] at found
      exact found
    obtain ⟨s, reached, known⟩ := decides.known_of_never inRange unsettled
    rw [waitForWriteFlush, reached, ← known.last]
    rfl

-- An idle gauge, scraped a second after the start.
def idlePoll : Poll where
  began := 0
  scrape := some ⟨[⟨pendingGauge, "worker=\"extractor\"\x7d", 0.0⟩]⟩
  elapsed := drainMinWait

theorem idle_history_flushes :
    (∀ t, FlushesAt (List.replicate 4 idlePoll) t ↔
        IsLeast (settledAt (List.replicate 4 idlePoll)) t) ∧
      (∀ t, FlushesAt (List.replicate 4 idlePoll) t →
        waitForWriteFlush (List.replicate 4 idlePoll) =
          ⟨(lastCounters ((List.replicate 4 idlePoll).take (t + 1))).1,
            (lastCounters ((List.replicate 4 idlePoll).take (t + 1))).2, true⟩) ∧
      (settledAt (List.replicate 4 idlePoll) = ∅ → waitForWriteFlush (List.replicate 4 idlePoll) =
        ⟨(lastCounters (List.replicate 4 idlePoll)).1,
          (lastCounters (List.replicate 4 idlePoll)).2, false⟩) := by
  apply barrier_verdict
  intro p member
  obtain rfl : p = idlePoll := List.eq_of_mem_replicate member
  refine ⟨by decide +kernel, fun m scraped => ?_⟩
  obtain rfl := Option.some.inj scraped
  decide +kernel

end BrainEval.Drain
