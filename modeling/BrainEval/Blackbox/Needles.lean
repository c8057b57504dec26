import Mathlib
import BrainEval.Lib.Decimal
import BrainEval.Lib.Occurrence
import BrainEval.Blackbox.Soak

set_option autoImplicit false

namespace BrainEval.Needles

open RustStr Scale Soak Occurrence

def LowerHex (salt : String) : Prop := ∀ c ∈ salt.toList, c ∈ "0123456789abcdef".toList

instance (salt : String) : Decidable (LowerHex salt) :=
  List.decidableBAll (· ∈ "0123456789abcdef".toList) salt.toList

def paddedDigits (width n : Nat) : List Char :=
  List.replicate (width - (Nat.toDigits 10 n).length) '0' ++ Nat.toDigits 10 n

theorem toList_zeroPad (width n : Nat) : (zeroPad width n).toList = paddedDigits width n := by
  simp [zeroPad, paddedDigits]

theorem value_paddedDigits (width n : Nat) : Decimal.value (paddedDigits width n) = n := by
  have zeros (count : Nat) : Decimal.value (List.replicate count '0') = 0 := by
    induction count with
    | zero => rfl
    | succ count ih =>
      rw [List.replicate_succ, Decimal.value_cons, ih]
      simp
  rw [paddedDigits, Decimal.value_append, zeros, Decimal.value_toDigits, Nat.mul_zero,
    Nat.zero_add]

theorem paddedDigits_inj {width i j : Nat} :
    paddedDigits width i = paddedDigits width j ↔ i = j := by
  constructor
  next =>
    intro same
    rw [← value_paddedDigits width i, same, value_paddedDigits]
  next => exact congrArg _

theorem allDigits_paddedDigits (width n : Nat) : Decimal.AllDigits (paddedDigits width n) := by
  intro c member
  rcases List.mem_append.mp member with zero | digit
  · rw [List.eq_of_mem_replicate zero]
    rfl
  · exact Decimal.allDigits_toDigits n c digit

theorem not_mem_of_allDigits {digits : List Char} (all : Decimal.AllDigits digits) {c : Char}
    (other : c.isDigit = false) : c ∉ digits := fun member =>
  absurd (all c member) (Bool.eq_false_iff.mp other)

theorem z_not_mem_salt {salt : String} (hex : LowerHex salt) : 'z' ∉ salt.toList := fun member =>
  absurd (hex _ member) (by decide)

-- One numbered needle and what is written around it.
theorem contains_numbered_iff {opening lead front back : String} {mark : Char} {width i j : Nat}
    (opens : opening.toList = ['z', mark]) (free : 'z' ∉ front.toList)
    (lead_free : 'z' ∉ mark :: lead.toList) (back_free : 'z' ∉ back.toList)
    (other : back.toList.head? ≠ some mark) :
    contains (front ++ (opening ++ lead ++ zeroPad width j ++ "xz") ++ back)
      (opening ++ lead ++ zeroPad width i ++ "xz") = true ↔ i = j := by
  have closes : "xz".toList = ['x', 'z'] := rfl
  have digits (n : Nat) {c : Char} (letter : c.isDigit = false) : c ∉ paddedDigits width n :=
    not_mem_of_allDigits (allDigits_paddedDigits width n) letter
  have inner_free : 'z' ∉ paddedDigits width j ++ ['x'] := by
    simpa using digits j (c := 'z') (by decide)
  have needle : (opening ++ lead ++ zeroPad width i ++ "xz").toList =
      'z' :: mark :: (lead.toList ++ paddedDigits width i ++ ['x', 'z']) := by
    simp only [String.toList_append, toList_zeroPad, opens, closes, List.append_assoc,
      List.cons_append, List.nil_append]
  have text : (front ++ (opening ++ lead ++ zeroPad width j ++ "xz") ++ back).toList =
      front.toList ++ 'z' :: mark ::
        (lead.toList ++ paddedDigits width j ++ 'x' :: 'z' :: back.toList) := by
    simp only [String.toList_append, toList_zeroPad, opens, closes, List.append_assoc,
      List.cons_append, List.nil_append]
  rw [contains_iff, needle, text, bracketed_infix_iff free lead_free inner_free back_free other
    (digits i (by decide)) (digits j (by decide)), paddedDigits_inj]

theorem z_not_mem_numeral (n : Nat) : 'z' ∉ (toString n).toList := by
  have digits : (toString n).toList = Nat.toDigits 10 n := by simp
  rw [digits]
  exact not_mem_of_allDigits (Decimal.allDigits_toDigits n) (by decide)

theorem not_mem_append {c : Char} {s t : String} (left : c ∉ s.toList) (right : c ∉ t.toList) :
    c ∉ (s ++ t).toList := by
  rw [String.toList_append, List.mem_append]
  exact fun member => member.elim left right

theorem noteText_contains_iff {salt : String} (hex : LowerHex salt) (i j : Nat) :
    contains (noteText salt j) (nonce salt i) = true ↔ i = j := by
  have free : 'z' ∉ ("Reference note " ++ toString j ++ ": the marker is ").toList :=
    not_mem_append (not_mem_append (by decide) (z_not_mem_numeral j)) (by decide)
  have lead_free : 'z' ∉ 'q' :: salt.toList :=
    List.not_mem_cons_of_ne_of_not_mem (by decide) (z_not_mem_salt hex)
  exact contains_numbered_iff rfl free lead_free (by decide) (by decide)

theorem z_not_mem_topic (i : Nat) : 'z' ∉ (driftTopic i).toList := by
  have within : i % driftTopics.length < driftTopics.length := Nat.mod_lt _ (by decide)
  have topics : ∀ topic ∈ driftTopics, 'z' ∉ topic.toList := by decide
  rw [driftTopic, List.getD_eq_getElem _ _ within]
  exact topics _ (List.getElem_mem within)

theorem driftText_contains_iff {salt : String} (hex : LowerHex salt) (i j : Nat) :
    contains (driftText salt j) (driftNeedle salt i) = true ↔ i = j := by
  have free : 'z' ∉ ("Drift reference " ++ toString j ++ " for topic " ++ driftTopic j ++
      ": the unique marker is ").toList :=
    not_mem_append (not_mem_append (not_mem_append (not_mem_append (by decide)
      (z_not_mem_numeral j)) (by decide)) (z_not_mem_topic j)) (by decide)
  have lead_free : 'z' ∉ 'd' :: (driftTag salt).toList :=
    List.not_mem_cons_of_ne_of_not_mem (by decide)
      (not_mem_append (z_not_mem_salt hex) (by decide))
  exact contains_numbered_iff rfl free lead_free (by decide) (by decide)

section Probes

variable {salt : String} (hex : LowerHex salt) {topK i : Nat}

include hex

-- An answer that lists every note once at most is one the recall probe can read.
theorem knownAnswer_of_notes {hits : List MemoryResult} {listed : List Nat}
    (notes : hits.map (·.text) = listed.map (noteText salt)) (distinct : listed.Nodup)
    (short : hits.length ≤ topK) : KnownAnswer topK (nonce salt i) hits := by
  refine ⟨short, ?_⟩
  have texts : hits.countP (fun m => contains m.text (nonce salt i)) =
      (hits.map (·.text)).countP (contains · (nonce salt i)) := by
    rw [List.countP_map]
    rfl
  have own : (contains · (nonce salt i)) ∘ noteText salt = fun j => j == i := by
    funext j
    rw [Bool.eq_iff_iff, Function.comp_apply, noteText_contains_iff hex, beq_iff_eq, eq_comm]
  rw [texts, notes, List.countP_map, own]
  exact List.nodup_iff_count_le_one.mp distinct i

theorem driftHit_iff {answer : RecallAnswer} {j : Nat}
    (opens : answer.memories.head?.map (·.text) = some (driftText salt j)) :
    driftHit (driftNeedle salt i) (.ok answer) = true ↔ i = j := by
  obtain ⟨m, first, text⟩ := Option.map_eq_some_iff.mp opens
  obtain ⟨rest, memories⟩ := List.head?_eq_some_iff.mp first
  simp only [driftHit, memories, text]
  exact driftText_contains_iff hex i j

theorem driftProbe_eq {encode : Nat → String → Except String Unit}
    {recallNote : Nat → ProbeRecall → Except String RecallAnswer} {first : Nat → Nat}
    (encoded : ∀ i < probeSize, (encode i (driftText salt i)).isOk = true)
    (answered : ∀ i < probeSize, ∃ answer,
      recallNote i ⟨driftNeedle salt i, topK, true⟩ = .ok answer ∧
        answer.memories.head?.map (·.text) = some (driftText salt (first i))) :
    driftProbe encode recallNote salt topK =
      (List.range probeSize).countP (fun i => i = first i) / probeSize := by
  have kept :
      (List.range probeSize).any (fun i => !(encode i (driftText salt i)).isOk) = false := by
    rw [List.any_eq_false]
    intro i member
    simp [encoded i (List.mem_range.mp member)]
  have hits : (List.range probeSize).countP (fun i =>
      driftHit (driftNeedle salt i) (recallNote i ⟨driftNeedle salt i, topK, true⟩)) =
        (List.range probeSize).countP fun i => i = first i := by
    apply List.countP_congr
    intro i member
    obtain ⟨answer, found, opens⟩ := answered i (List.mem_range.mp member)
    rw [found, driftHit_iff hex opens, decide_eq_true_iff]
  rw [driftProbe, kept, if_neg Bool.false_ne_true, hits]

end Probes

theorem known_answer_identity {salt : String} (hex : LowerHex salt) (i j : Nat) :
    (contains (noteText salt j) (nonce salt i) = true ↔ i = j) ∧
      (contains (driftText salt j) (driftNeedle salt i) = true ↔ i = j) :=
  ⟨noteText_contains_iff hex i j, driftText_contains_iff hex i j⟩

theorem long_number_not_mistaken :
    (contains (noteText "00ff" 1234567) (nonce "00ff" 123456) = true ↔ 123456 = 1234567) ∧
      (contains (driftText "00ff" 1234567) (driftNeedle "00ff" 123456) = true ↔
        123456 = 1234567) :=
  known_answer_identity (by decide) 123456 1234567

end BrainEval.Needles
