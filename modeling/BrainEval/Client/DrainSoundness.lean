import Mathlib
import BrainEval.Client.Drain
import BrainEval.Client.Exposition

set_option autoImplicit false

namespace BrainEval.Drain

open Polling PrometheusMetrics

-- A pass of the loop whose scrape, if it succeeds, brings these series.
structure Reading where
  began : Nat
  series : Option (List Series)
  elapsed : Nat

def Reading.poll (r : Reading) : Poll := ⟨r.began, r.series.map scraped, r.elapsed⟩

def Sampled (series : List Series) (w : String) : Prop :=
  ∃ s ∈ series, s.name = pendingGauge ∧ ("worker", w) ∈ s.labels

structure WorkerIdle (series : List Series) (w : String) : Prop where
  sampled : Sampled series w
  zero : ∀ s ∈ series, s.name = pendingGauge → ("worker", w) ∈ s.labels → isZero s.value = true

def AllIdle (series : List Series) : Prop := ∀ w ∈ drainWorkers, WorkerIdle series w

def carried (readings : List Reading) : List Reading :=
  readings.filter (·.poll.pending.isSome)

-- A flush after the gauge was seen means that all five workers were idle at each of the last
-- readings that carried it, and no reading is taken for empty queues where a worker is missing.
structure Sound (readings : List Reading) : Prop where
  idle : ∀ t, FlushesAt (readings.map (·.poll)) t → carried (readings.take (t + 1)) ≠ [] →
    drainStablePolls ≤ (carried (readings.take (t + 1))).length ∧
      ∀ r ∈ (carried (readings.take (t + 1))).rtake drainStablePolls,
        ∃ series, r.series = some series ∧ AllIdle series
  present : ∀ r ∈ readings, ∀ series, r.series = some series →
    ∀ v, r.poll.pending = some v → isZero v = true → ∀ w ∈ drainWorkers, Sampled series w

-- The samples the needles find add up to zero, and some worker is not known to be idle.
def Misleading (series : List Series) : Prop :=
  ∃ v, pendingWriteWork (scraped series) = some v ∧ isZero v = true ∧ ¬ AllIdle series

theorem pendings_poll (readings : List Reading) :
    pendings (readings.map (·.poll)) =
      (carried readings).map fun r => r.poll.pending.getD 0.0 := by
  induction readings with
  | nil => rfl
  | cons r readings ih =>
    cases here : r.poll.pending with
    | none => simpa [pendings, carried, here] using ih
    | some v => simpa [pendings, carried, here] using ih

theorem zero_of_flush {readings : List Reading} {t : Nat}
    (flushed : FlushesAt (readings.map (·.poll)) t) (seen : carried (readings.take (t + 1)) ≠ []) :
    drainStablePolls ≤ (carried (readings.take (t + 1))).length ∧
      ∀ r ∈ (carried (readings.take (t + 1))).rtake drainStablePolls,
        isZero (r.poll.pending.getD 0.0) = true := by
  obtain ⟨ex, em, s, p, reached, here, returned⟩ := flushesAt_iff.mp flushed
  have known : GaugeKnown ((readings.map (·.poll)).take t) s :=
    foldlM_ok_inv Barrier.poll GaugeKnown gaugeKnown_start (fun known ok => known.next ok) reached
  have history : (readings.map (·.poll)).take t ++ [p] =
      (readings.take (t + 1)).map (·.poll) := by
    rw [List.map_take, List.take_add_one, here]
    rfl
  have full := known.flush returned
  rw [history, pendings_poll] at full
  have last := le_streak_iff.mp (full (by simpa using seen))
  rw [rtake_map, List.length_map] at last
  exact ⟨last.1, fun r member => last.2 _ (List.mem_map_of_mem member)⟩

theorem sound_of_not_misleading {readings : List Reading}
    (honest : ∀ r ∈ readings, ∀ series, r.series = some series → ¬ Misleading series) :
    Sound readings := by
  have idle_of_zero {r : Reading} (member : r ∈ readings) {v : Float}
      (pending : r.poll.pending = some v) (zero : isZero v = true) :
      ∃ series, r.series = some series ∧ AllIdle series := by
    obtain ⟨m, scrape, reads⟩ := Option.bind_eq_some_iff.mp pending
    obtain ⟨series, here, rfl⟩ := Option.map_eq_some_iff.mp scrape
    refine ⟨series, here, ?_⟩
    by_contra busy
    exact honest r member series here ⟨v, reads, zero, busy⟩
  constructor
  · intro t flushed seen
    obtain ⟨long, zero⟩ := zero_of_flush flushed seen
    refine ⟨long, fun r member => ?_⟩
    obtain ⟨known, some_pending⟩ := List.mem_filter.mp (List.mem_of_mem_drop member)
    obtain ⟨v, pending⟩ := Option.isSome_iff_exists.mp some_pending
    have zero := zero r member
    rw [pending] at zero
    exact idle_of_zero (List.mem_of_mem_take known) pending zero
  · intro r member series here v pending zero w listed
    obtain ⟨series', here', idle⟩ := idle_of_zero member pending zero
    obtain rfl : series = series' := Option.some.inj (here.symm.trans here')
    exact (idle w listed).sampled

section Idle

variable {m : PrometheusMetrics} {v : Float} (reads : pendingWriteWork m = some v)
  (zero : isZero v = true)

include reads zero

theorem zero_pass (s : Barrier) :
    (s.stable + 1 < drainStablePolls →
      ∃ s', s.poll ⟨0, some m, drainMinWait⟩ = .ok s' ∧ s'.stable = s.stable + 1) ∧
    (drainStablePolls ≤ s.stable + 1 →
      s.poll ⟨0, some m, drainMinWait⟩ = .error ⟨extracted m, embedded m, true⟩) := by
  have counted : s.nextStable v = s.stable + 1 := if_pos zero
  have inTime : 0 < drainMaxWait := by decide
  have pass := s.poll_pending (p := ⟨0, some m, drainMinWait⟩) inTime rfl reads
  rw [counted] at pass
  constructor
  · intro less
    rw [if_neg fun enough => absurd enough.2 (not_le.mpr less)] at pass
    exact ⟨_, pass, rfl⟩
  · intro enough
    rwa [if_pos ⟨le_refl _, enough⟩] at pass

theorem zero_run {k : Nat} (few : k < drainStablePolls) :
    ∃ s, (List.replicate k (⟨0, some m, drainMinWait⟩ : Poll)).foldlM Barrier.poll .start = .ok s ∧
      s.stable = k := by
  induction k with
  | zero => exact ⟨.start, rfl, rfl⟩
  | succ k ih =>
    obtain ⟨s, reached, stable⟩ := ih (by omega)
    obtain ⟨s', next, more⟩ := (zero_pass reads zero s).1 (by omega)
    refine ⟨s', ?_, by rw [more, stable]⟩
    rw [List.replicate_succ', foldlM_concat_ok Barrier.poll reached, next]

theorem zero_flush :
    FlushesAt (List.replicate drainStablePolls ⟨0, some m, drainMinWait⟩) 3 := by
  obtain ⟨s, reached, stable⟩ := zero_run reads zero (k := 3) (by decide)
  refine flushesAt_iff.mpr ⟨extracted m, embedded m, s, _, reached, rfl, ?_⟩
  exact (zero_pass reads zero s).2 (by rw [stable]; decide)

end Idle

theorem not_sound_of_misleading {series : List Series} (misleading : Misleading series) :
    ¬ Sound (List.replicate 4 ⟨0, some series, drainMinWait⟩) := by
  obtain ⟨v, reads, zero, busy⟩ := misleading
  intro sound
  let r : Reading := ⟨0, some series, drainMinWait⟩
  have pending : r.poll.pending = some v := reads
  have all : carried ((List.replicate 4 r).take 4) = List.replicate 4 r := by
    simp [carried, pending]
  have flushed : FlushesAt ((List.replicate 4 r).map (·.poll)) 3 := by
    rw [List.map_replicate]
    exact zero_flush reads zero
  have seen : carried ((List.replicate 4 r).take 4) ≠ [] := by
    rw [all]
    simp
  obtain ⟨-, idle⟩ := sound.idle 3 flushed seen
  rw [all] at idle
  obtain ⟨other, same, quiet⟩ := idle r (by simp [List.rtake, drainStablePolls])
  cases same
  exact busy quiet

theorem barrier_sound_iff (scrapes : Set (List Series)) :
    (∀ readings : List Reading, (∀ r ∈ readings, ∀ series, r.series = some series →
        series ∈ scrapes) → Sound readings) ↔
      ∀ series ∈ scrapes, ¬ Misleading series := by
  constructor
  · intro sound series drawn misleading
    refine not_sound_of_misleading misleading (sound _ fun r member other same => ?_)
    rw [List.eq_of_mem_replicate member] at same
    exact Option.some.inj same ▸ drawn
  · intro honest readings drawn
    exact sound_of_not_misleading fun r member series here =>
      honest series (drawn r member series here)

-- The extractor alone, of the five workers, reports a queue.
def extractorSeries : Series :=
  .ofFields pendingGauge [("shard", "0"), ("worker", "extractor")] "0" 0.0
    (by decide +kernel) pendingGauge_ne_empty (by decide +kernel) (by decide +kernel)

theorem absent_worker_is_taken_for_idle :
    waitForWriteFlush (List.replicate 4 ⟨0, some (scraped [extractorSeries]), drainMinWait⟩) =
        ⟨0, 0, true⟩ ∧
      ¬ Sound (List.replicate 4 ⟨0, some [extractorSeries], drainMinWait⟩) := by
  refine ⟨by decide +kernel, ?_⟩
  refine not_sound_of_misleading ⟨0.0, by decide +kernel, by decide +kernel, ?_⟩
  intro idle
  obtain ⟨s, member, -, labelled⟩ := (idle "auto_edge" (by decide)).sampled
  rw [List.mem_singleton] at member
  subst member
  exact absurd labelled (by decide)

end BrainEval.Drain
