import Mathlib
import BrainEval.Lib.Decimal
import BrainEval.Lib.SortBy
import BrainEval.Datasets.Locomo
import BrainEval.Runner.Ingest

set_option autoImplicit false

namespace BrainEval.Locomo

open RustStr Decimal Runner
open Std (TreeMap)

theorem isSessionLabel_iff {label : String} : isSessionLabel label = true ↔
    ∃ digits, label.toList = "session_".toList ++ digits ∧ digits ≠ [] ∧ AllDigits digits := by
  unfold isSessionLabel stripPrefix
  by_cases start : "session_".toList <+: label.toList
  · obtain ⟨digits, same⟩ := start
    rw [if_pos ⟨digits, same⟩, ← same]
    simp [AllDigits]
  · rw [if_neg start]
    simp only [Bool.false_eq_true, false_iff]
    rintro ⟨digits, same, -, -⟩
    exact start ⟨digits, same.symm⟩

theorem stripSuffix_of_isSessionLabel {label : String} (session : isSessionLabel label = true) :
    stripSuffix label "_date_time" = none := by
  obtain ⟨digits, same, some_digit, all⟩ := isSessionLabel_iff.mp session
  unfold stripSuffix
  rw [if_neg]
  -- the label ends in a digit, the suffix in an e
  rintro ⟨front, whole⟩
  have last : label.toList.getLast? = some 'e' := by
    rw [← whole, List.getLast?_append]
    rfl
  rw [same, List.getLast?_append_of_ne_nil _ some_digit] at last
  exact absurd (all 'e' (List.mem_of_getLast? last)) (by decide)

theorem foldl_splitEntry (entries : List (String × Value)) (acc : Split) :
    (entries.foldl splitEntry acc).sessionArrays =
      acc.sessionArrays ++ entries.filter fun entry => isSessionLabel entry.1 := by
  induction entries generalizing acc with
  | nil => simp
  | cons entry entries ih =>
    have step : (splitEntry acc entry).sessionArrays =
        acc.sessionArrays ++ if isSessionLabel entry.1 then [entry] else [] := by
      unfold splitEntry
      by_cases session : isSessionLabel entry.1 = true
      · simp [stripSuffix_of_isSessionLabel session, session]
      · simp only [if_neg session, List.append_nil]
        split
        · split <;> rfl
        · rfl
    rw [List.foldl_cons, ih, step, List.append_assoc, List.filter_cons]
    by_cases session : isSessionLabel entry.1 = true <;> simp [session]

def sessionLabel (n : Nat) : String := "session_" ++ toString n

def labelNumber (label : String) : Nat := value (label.toList.drop "session_".toList.length)

theorem toList_sessionLabel (n : Nat) :
    (sessionLabel n).toList = "session_".toList ++ Nat.toDigits 10 n := by
  rw [sessionLabel, String.toList_append]
  simp [toString, Nat.repr]

@[simp] theorem labelNumber_sessionLabel (n : Nat) : labelNumber (sessionLabel n) = n := by
  rw [labelNumber, toList_sessionLabel, List.drop_left, value_toDigits]

theorem sessionLabel_inj {n m : Nat} : sessionLabel n = sessionLabel m ↔ n = m :=
  ⟨fun same => by simpa using congrArg labelNumber same, congrArg sessionLabel⟩

theorem isSessionLabel_sessionLabel (n : Nat) : isSessionLabel (sessionLabel n) = true :=
  isSessionLabel_iff.mpr ⟨Nat.toDigits 10 n, toList_sessionLabel n,
    List.length_pos_iff.mp Nat.length_toDigits_pos, allDigits_toDigits n⟩

theorem sessionLabel_lt_iff {n m : Nat} :
    sessionLabel n < sessionLabel m ↔ Nat.toDigits 10 n < Nat.toDigits 10 m := by
  rw [String.lt_iff_toList_lt, toList_sessionLabel, toList_sessionLabel]
  simp

/-- The sessions count up, and so do the ENCODEs of them, whatever the server answers. -/
structure Chronological (inst : EvalInstance) : Prop where
  sessions : (inst.sessions.map fun session => labelNumber session.sessionId).Pairwise (· < ·)
  writes : ∀ encode ms, ((ingestSessions encode ms inst).1.map fun sent =>
    labelNumber sent.sessionId).Pairwise (· ≤ ·)

theorem exists_session {sessions : List Session} {parts : List (List Sent)}
    (each : List.Forall₂ SentFor sessions parts) {part : List Sent} (member : part ∈ parts) :
    ∃ session ∈ sessions, SentFor session part := by
  induction each with
  | nil => simp at member
  | @cons session _ _ _ here _ ih =>
    rcases List.mem_cons.mp member with rfl | later
    · exact ⟨session, List.mem_cons_self, here⟩
    · obtain ⟨other, inside, sent⟩ := ih later
      exact ⟨other, List.mem_cons_of_mem _ inside, sent⟩

theorem blocks_pairwise {sessions : List Session} {parts : List (List Sent)}
    (each : List.Forall₂ SentFor sessions parts)
    (ordered : sessions.Pairwise fun a b => labelNumber a.sessionId < labelNumber b.sessionId) :
    parts.flatten.Pairwise fun a b => labelNumber a.sessionId ≤ labelNumber b.sessionId := by
  induction each with
  | nil => exact List.Pairwise.nil
  | @cons session part sessions parts here rest ih =>
    obtain ⟨first, ordered⟩ := List.pairwise_cons.mp ordered
    rw [List.flatten_cons, List.pairwise_append]
    -- one block has one label; two blocks are as their sessions
    refine ⟨?_, ih ordered, ?_⟩
    · refine List.pairwise_of_forall_mem_list fun a left b right => ?_
      rw [here.label a left, here.label b right]
    · intro a left b right
      obtain ⟨other, member, inside⟩ := List.mem_flatten.mp right
      obtain ⟨later, later_mem, sent⟩ := exists_session rest member
      rw [here.label a left, sent.label b inside]
      exact (first later later_mem).le

theorem chronological_iff {inst : EvalInstance} : Chronological inst ↔
    (inst.sessions.map fun session => labelNumber session.sessionId).Pairwise (· < ·) := by
  refine ⟨Chronological.sessions, fun sessions => ⟨sessions, fun encode ms => ?_⟩⟩
  obtain ⟨parts, whole, each⟩ := ingestSessions_sent encode ms inst
  rw [whole, List.pairwise_map]
  exact blocks_pairwise each (List.pairwise_map.mp sessions)

namespace LocomoSample

variable (sample : LocomoSample)

def labels : List String := sample.conversation.keys.filter isSessionLabel

/-- Every turn array decodes, and its number is written in canonical decimal. -/
structure WellFormed : Prop where
  canonical : ∀ label ∈ sample.labels, ∃ n, label = sessionLabel n
  decodes : ∀ entry ∈ sample.conversation.toList, isSessionLabel entry.1 = true →
    (decodeTurns entry.2).isSome = true

variable {sample}

theorem split_sessionArrays : sample.split.sessionArrays =
    sample.conversation.toList.filter fun entry => isSessionLabel entry.1 := by
  rw [split, foldl_splitEntry, List.nil_append]

theorem labels_eq : sample.labels = sample.split.sessionArrays.map Prod.fst := by
  rw [labels, split_sessionArrays, ← TreeMap.map_fst_toList_eq_keys, List.filter_map]
  rfl

theorem sessions_labels (wellFormed : sample.WellFormed) :
    sample.sessions.map (·.sessionId) = sample.labels := by
  have decoded : ∀ entry ∈ sample.split.sessionArrays,
      (sessionOf sample.split.sessionDates entry).map (·.sessionId) = some entry.1 := by
    intro entry member
    rw [split_sessionArrays, List.mem_filter] at member
    obtain ⟨turns, same⟩ := Option.isSome_iff_exists.mp (wellFormed.decodes entry member.1 member.2)
    rw [sessionOf, same]
    rfl
  rw [sessions, List.map_filterMap, labels_eq, List.filterMap_congr decoded, List.filterMap_eq_map']

theorem labels_sorted : sample.labels.Pairwise (· < ·) :=
  (sample.conversation.ordered_keys.imp compare_lt_iff_lt.mp).filter _

theorem mem_labels {n : Nat} : sessionLabel n ∈ sample.labels ↔
    sessionLabel n ∈ sample.conversation := by
  rw [labels, List.mem_filter, TreeMap.mem_keys]
  simp [isSessionLabel_sessionLabel]

/-- The order of the labels agrees with that of their numbers: of two sessions, the first digits of
the larger number, as many as the smaller one has, write no less than the smaller number. -/
def NumericOrder (sample : LocomoSample) : Prop := ∀ n m, n < m →
  sessionLabel n ∈ sample.conversation → sessionLabel m ∈ sample.conversation →
    n ≤ m / 10 ^ (digitCount m - digitCount n)

-- Canonical labels determine their numbers, so the map's order and the numbers' can be compared.
theorem labels_numbers_iff (wellFormed : sample.WellFormed) :
    (sample.labels.map labelNumber).Pairwise (· < ·) ↔ sample.NumericOrder := by
  have separates : ∀ a ∈ sample.labels, ∀ b ∈ sample.labels, labelNumber a = labelNumber b →
      a = b := by
    intro a left b right same
    obtain ⟨n, rfl⟩ := wellFormed.canonical a left
    obtain ⟨m, rfl⟩ := wellFormed.canonical b right
    rw [labelNumber_sessionLabel, labelNumber_sessionLabel] at same
    rw [same]
  rw [SortBy.pairwise_map_lt_iff labels_sorted labelNumber separates]
  constructor
  · intro agree n m less first second
    rw [← toDigits_lt_iff less, ← sessionLabel_lt_iff]
    apply agree _ (mem_labels.mpr first) _ (mem_labels.mpr second)
    simpa using less
  · intro numeric a left b right less
    obtain ⟨n, rfl⟩ := wellFormed.canonical a left
    obtain ⟨m, rfl⟩ := wellFormed.canonical b right
    rw [labelNumber_sessionLabel, labelNumber_sessionLabel] at less
    rw [sessionLabel_lt_iff, toDigits_lt_iff less]
    exact numeric n m less (mem_labels.mp left) (mem_labels.mp right)

theorem mem_expandInto {inst : EvalInstance} (member : inst ∈ sample.expandInto []) :
    inst.sessions = sample.sessions := by
  rw [expandInto, List.nil_append] at member
  obtain ⟨idx, bound, rfl⟩ := List.mem_mapIdx.mp member
  rfl

theorem expandInto_eq_nil : sample.expandInto [] = [] ↔ sample.qa = [] := by
  simp [expandInto]

theorem numericOrder_of_digitCount {count : Nat}
    (same : ∀ n, sessionLabel n ∈ sample.conversation → digitCount n = count) :
    sample.NumericOrder := by
  intro n m less first second
  rw [same n first, same m second, Nat.sub_self, Nat.pow_zero, Nat.div_one]
  exact less.le

-- Every instance of a sample is written in the order of its session numbers exactly when nothing is
-- asked or the string order of the labels is the numeric one.
theorem chronological_expand_iff (wellFormed : sample.WellFormed) :
    (∀ inst ∈ sample.expandInto [], Chronological inst) ↔
      sample.qa = [] ∨ sample.NumericOrder := by
  have numbers : (sample.sessions.map fun session => labelNumber session.sessionId) =
      sample.labels.map labelNumber := by
    rw [← sessions_labels wellFormed, List.map_map]
    rfl
  have each : ∀ inst ∈ sample.expandInto [], Chronological inst ↔ sample.NumericOrder := by
    intro inst member
    rw [chronological_iff, mem_expandInto member, numbers, labels_numbers_iff wellFormed]
  by_cases silent : sample.qa = []
  · simp [expandInto_eq_nil.mpr silent, silent]
  · obtain ⟨inst, asked⟩ := List.exists_mem_of_ne_nil _ (mt expandInto_eq_nil.mp silent)
    rw [or_iff_right silent]
    constructor
    · exact fun all => (each inst asked).mp (all inst asked)
    · exact fun numeric other member => (each other member).mpr numeric

def movedTurns : Value :=
  .array [.object [("speaker", .string "Ann"), ("text", .string "I moved.")]]

def ofNumbers (numbers : List Nat) : LocomoSample where
  sampleId := "sample-0"
  conversation := numbers.foldr (fun n rest => rest.insert (sessionLabel n) movedTurns) ∅
  qa := [⟨"Where does Ann live?", "Oslo", "", some 1⟩]

theorem ofNumbers_entry {numbers : List Nat} {label : String} {value : Value} :
    (ofNumbers numbers).conversation[label]? = some value ↔
      (∃ n ∈ numbers, sessionLabel n = label) ∧ movedTurns = value := by
  unfold ofNumbers
  induction numbers with
  | nil => simp
  | cons n numbers ih =>
    rw [List.foldr_cons, TreeMap.getElem?_insert, List.exists_mem_cons_iff]
    by_cases same : sessionLabel n = label
    · simp [same]
    · rw [if_neg (mt compare_eq_iff_eq.mp same), ih]
      simp [same]

theorem ofNumbers_wellFormed (numbers : List Nat) : (ofNumbers numbers).WellFormed := by
  constructor
  · intro label member
    have key := TreeMap.mem_keys.mp (List.mem_of_mem_filter member)
    have entry := ofNumbers_entry.mp (TreeMap.getElem?_eq_some_getElem key)
    obtain ⟨⟨n, -, same⟩, -⟩ := entry
    exact ⟨n, same.symm⟩
  · intro entry member _
    rw [TreeMap.mem_toList_iff_getElem?_eq_some, ofNumbers_entry] at member
    rw [← member.2]
    decide

theorem mem_ofNumbers {numbers : List Nat} {n : Nat} :
    sessionLabel n ∈ (ofNumbers numbers).conversation ↔ n ∈ numbers := by
  rw [TreeMap.mem_iff_isSome_getElem?, Option.isSome_iff_exists]
  simp [ofNumbers_entry, sessionLabel_inj]

theorem two_sessions_in_order : (ofNumbers [1, 2]).qa ≠ [] ∧
    ∀ inst ∈ (ofNumbers [1, 2]).expandInto [], Chronological inst :=
  ⟨by simp [ofNumbers], (chronological_expand_iff (ofNumbers_wellFormed [1, 2])).mpr <| Or.inr <|
    numericOrder_of_digitCount fun n member =>
      (by decide : ∀ n ∈ [1, 2], digitCount n = 1) n (mem_ofNumbers.mp member)⟩

theorem tenth_session_before_second :
    (ofNumbers [2, 10]).WellFormed ∧
      ((ofNumbers [2, 10]).expandInto []).map (fun inst => inst.sessions.map (·.sessionId)) =
        [["session_10", "session_2"]] ∧
      ¬ ∀ inst ∈ (ofNumbers [2, 10]).expandInto [], Chronological inst := by
  refine ⟨ofNumbers_wellFormed _, by decide +kernel, fun all => ?_⟩
  have unordered : ((ofNumbers [2, 10]).expandInto []).all (fun inst =>
      (inst.sessions.map fun session => labelNumber session.sessionId).Pairwise (· < ·)) = false :=
    by decide +kernel
  obtain ⟨inst, member, falls⟩ := List.all_eq_false.mp unordered
  exact falls (decide_eq_true (all inst member).sessions)

end LocomoSample

theorem load_eq_flatMap (samples : List LocomoSample) :
    load samples = samples.flatMap (·.expandInto []) := by
  have spread : ∀ out, samples.foldl (fun out sample => sample.expandInto out) out =
      out ++ samples.flatMap (·.expandInto []) := by
    induction samples with
    | nil => simp
    | cons sample samples ih =>
      intro out
      rw [List.foldl_cons, ih, List.flatMap_cons, ← List.append_assoc]
      simp only [LocomoSample.expandInto, List.nil_append]
  exact spread []

end BrainEval.Locomo
