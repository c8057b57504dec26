import Mathlib
import BrainEval.SpaceManifest

set_option autoImplicit false

namespace BrainEval.SpaceManifest

open RustStr

section Digit

def hexDigits : List Char := "0123456789abcdefABCDEF".toList

theorem toDigit_of_mem {c : Char} (digit : c ∈ hexDigits) :
    (toDigit 16 c).map hexDigit = some c.toLower := by
  have each : (hexDigits.all fun c => (toDigit 16 c).map hexDigit == some c.toLower) = true := by
    decide
  exact beq_iff_eq.mp (List.all_eq_true.mp each c digit)

theorem toDigit_lt {c : Char} {d : Nat} (digit : toDigit 16 c = some d) : d < 16 := by
  simp only [toDigit, Option.ite_none_right_eq_some, Option.some.injEq] at digit
  obtain ⟨small, rfl⟩ := digit
  exact small

theorem mem_of_toDigit {c : Char} {d : Nat} (digit : toDigit 16 c = some d) : c ∈ hexDigits := by
  have codes : ∀ n < 0x80, (toDigit 16 (Char.ofNat n)).isSome = true →
      Char.ofNat n ∈ hexDigits := by decide +kernel
  have found : (toDigit 16 c).isSome = true := by rw [digit]; rfl
  have low := (toDigit_range found).2
  have back := codes c.toNat (by omega)
  rw [Char.ofNat_toNat] at back
  exact back found

theorem isSome_toDigit_iff {c : Char} : (toDigit 16 c).isSome = true ↔ c ∈ hexDigits := by
  constructor
  next =>
    intro digit
    obtain ⟨d, read⟩ := Option.isSome_iff_exists.mp digit
    exact mem_of_toDigit read
  next =>
    intro member
    obtain ⟨d, read, -⟩ := Option.map_eq_some_iff.mp (toDigit_of_mem member)
    rw [read]
    rfl

theorem narrow_of_mem {c : Char} (digit : c ∈ hexDigits) : c.utf8Size = 1 := by
  have range := toDigit_range (isSome_toDigit_iff.mpr digit)
  exact utf8Size_of_ascii (by omega)

end Digit

def pairByte (pair : Char × Char) : Option UInt8 :=
  (fromStrRadix 16 255 [pair.1, pair.2]).map UInt8.ofNat

theorem radixValue_one (y : Char) : radixValue 16 255 [y] = toDigit 16 y := by
  cases digit : toDigit 16 y with
  | none => simp [radixValue, digit]
  | some d =>
    have small := toDigit_lt digit
    simp [radixValue, digit]
    omega

theorem radixValue_two {x y : Char} {a b : Nat} (high : toDigit 16 x = some a)
    (low : toDigit 16 y = some b) : radixValue 16 255 [x, y] = some (a * 16 + b) := by
  have small := toDigit_lt high
  have small' := toDigit_lt low
  have fits : a ≤ 255 := by omega
  have fits' : a * 16 + b ≤ 255 := by omega
  simp [radixValue, high, low, fits, fits']

theorem fromStrRadix_pair {x y : Char} (unsigned : x ≠ '+') :
    fromStrRadix 16 255 [x, y] = radixValue 16 255 [x, y] := by
  rw [fromStrRadix]
  · simp
  · simp
  · intro digits signed
    exact unsigned (List.cons.inj signed).1

theorem fromStrRadix_plus (y : Char) : fromStrRadix 16 255 ['+', y] = toDigit 16 y :=
  radixValue_one y

theorem pairByte_hex {x y : Char} (high : x ∈ hexDigits) (low : y ∈ hexDigits) :
    ∃ byte, pairByte (x, y) = some byte ∧ hexPair byte = [x.toLower, y.toLower] := by
  obtain ⟨a, first, upper⟩ := Option.map_eq_some_iff.mp (toDigit_of_mem high)
  obtain ⟨b, second, lower⟩ := Option.map_eq_some_iff.mp (toDigit_of_mem low)
  have unsigned : x ≠ '+' := by
    rintro rfl
    exact absurd high (by decide)
  have small := toDigit_lt first
  have small' := toDigit_lt second
  refine ⟨UInt8.ofNat (a * 16 + b), ?_, ?_⟩
  · rw [pairByte, fromStrRadix_pair unsigned, radixValue_two first second, Option.map_some]
  · have value : (UInt8.ofNat (a * 16 + b)).toNat = a * 16 + b :=
      UInt8.toNat_ofNat_of_lt (by change a * 16 + b < 256; omega)
    have quotient : (a * 16 + b) / 16 = a := by omega
    have remainder : (a * 16 + b) % 16 = b := by omega
    rw [hexPair, value, quotient, remainder, upper, lower]

theorem isSome_pairByte_iff {x y : Char} :
    (pairByte (x, y)).isSome = true ↔ (x ∈ hexDigits ∨ x = '+') ∧ y ∈ hexDigits := by
  rw [pairByte, Option.isSome_map]
  dsimp only
  by_cases signed : x = '+'
  next => rw [signed, fromStrRadix_plus, isSome_toDigit_iff, and_iff_right (Or.inr rfl)]
  next =>
    rw [fromStrRadix_pair signed, or_iff_left signed]
    constructor
    next =>
      intro read
      obtain ⟨n, value⟩ := Option.isSome_iff_exists.mp read
      have digits := radixValue_digits value
      exact ⟨isSome_toDigit_iff.mp (digits x (by simp)), isSome_toDigit_iff.mp (digits y (by simp))⟩
    next =>
      rintro ⟨high, low⟩
      obtain ⟨a, first⟩ := Option.isSome_iff_exists.mp (isSome_toDigit_iff.mpr high)
      obtain ⟨b, second⟩ := Option.isSome_iff_exists.mp (isSome_toDigit_iff.mpr low)
      rw [radixValue_two first second]
      rfl

theorem narrow_of_fromStrRadix {part : List Char} {n : Nat}
    (read : fromStrRadix 16 255 part = some n) : ∀ c ∈ part, c.utf8Size = 1 := by
  have digits {rest : List Char} (value : radixValue 16 255 rest = some n) :
      ∀ c ∈ rest, c.utf8Size = 1 := fun c member =>
    narrow_of_mem (isSome_toDigit_iff.mp (radixValue_digits value c member))
  unfold fromStrRadix at read
  split at read
  next => simp at read
  next => simp at read
  next => exact List.forall_mem_cons.mpr ⟨by decide, digits read⟩
  next => exact digits read

def spell (pairs : List (Char × Char)) : List Char := pairs.flatMap fun pair => [pair.1, pair.2]

def slotAt (cs : List Char) (i : Nat) : Option UInt8 :=
  ((dropBytes cs (2 * i)).bind (takeBytes · 2)).bind fun pair =>
    (fromStrRadix 16 255 pair).map UInt8.ofNat

theorem unhexSlot_eq (s : String) (i : Nat) : unhexSlot s i = slotAt s.toList i := by
  rw [unhexSlot, getBytes, Nat.add_sub_cancel_left, slotAt]

section Slot

variable {x y : Char} {rest : List Char} (narrow : x.utf8Size = 1) (narrow' : y.utf8Size = 1)

include narrow narrow'

theorem slotAt_zero : slotAt (x :: y :: rest) 0 = pairByte (x, y) := by
  simp [slotAt, dropBytes, takeBytes, narrow, narrow', pairByte]

theorem slotAt_succ (i : Nat) : slotAt (x :: y :: rest) (i + 1) = slotAt rest i := by
  have two : 2 * (i + 1) = 2 * i + 1 + 1 := by omega
  simp [slotAt, two, dropBytes, narrow, narrow']

end Slot

-- A pair that reads takes two one-byte characters.
theorem slotAt_zero_some {cs : List Char} {byte : UInt8} (read : slotAt cs 0 = some byte) :
    ∃ x y rest, cs = x :: y :: rest ∧ x.utf8Size = 1 ∧ y.utf8Size = 1 ∧
      pairByte (x, y) = some byte := by
  obtain ⟨part, taken, value⟩ := Option.bind_eq_some_iff.mp read
  obtain ⟨n, digits, -⟩ := Option.map_eq_some_iff.mp value
  have narrow := narrow_of_fromStrRadix digits
  rw [Nat.mul_zero, dropBytes, Option.bind_some] at taken
  obtain ⟨rest, rfl, size⟩ := takeBytes_eq_some_iff.mp taken
  rw [byteLen_narrow narrow] at size
  obtain ⟨x, y, rfl⟩ := List.length_eq_two.mp size
  have one : x.utf8Size = 1 := narrow x List.mem_cons_self
  have one' : y.utf8Size = 1 := narrow y (List.mem_cons_of_mem _ List.mem_cons_self)
  refine ⟨x, y, rest, rfl, one, one', ?_⟩
  rw [← slotAt_zero one one', ← read]
  rfl

theorem slots_of_spell {pairs : List (Char × Char)} {bytes : List UInt8} (rest : List Char)
    (read : pairs.map pairByte = bytes.map some) :
    (List.range bytes.length).map (slotAt (spell pairs ++ rest)) = bytes.map some ∧
      ∀ c ∈ spell pairs, c.utf8Size = 1 := by
  induction pairs generalizing bytes with
  | nil =>
    obtain rfl := List.map_eq_nil_iff.mp read.symm
    exact ⟨rfl, by simp [spell]⟩
  | cons pair pairs ih =>
    obtain ⟨x, y⟩ := pair
    rcases bytes with _ | ⟨byte, bytes⟩
    next => simp at read
    next =>
      obtain ⟨here, later⟩ := List.cons.inj read
      obtain ⟨slots, narrow⟩ := ih later
      obtain ⟨high, low⟩ := isSome_pairByte_iff.mp (Option.isSome_iff_exists.mpr ⟨byte, here⟩)
      have one : x.utf8Size = 1 := high.elim narrow_of_mem fun plus => plus ▸ by decide
      have one' := narrow_of_mem low
      have whole : spell ((x, y) :: pairs) ++ rest = x :: y :: (spell pairs ++ rest) := rfl
      constructor
      · rw [whole, List.length_cons, List.range_succ_eq_map, List.map_cons, List.map_cons,
          List.map_map, slotAt_zero one one', here, ← slots]
        congr 1
        apply List.map_congr_left
        intro i _
        exact slotAt_succ one one' i
      · exact List.forall_mem_cons.mpr ⟨one, List.forall_mem_cons.mpr ⟨one', narrow⟩⟩

theorem spell_of_slots {cs : List Char} {bytes : List UInt8}
    (read : (List.range bytes.length).map (slotAt cs) = bytes.map some) :
    ∃ pairs rest, cs = spell pairs ++ rest ∧ pairs.map pairByte = bytes.map some := by
  induction bytes generalizing cs with
  | nil => exact ⟨[], cs, rfl, rfl⟩
  | cons byte bytes ih =>
    rw [List.length_cons, List.range_succ_eq_map, List.map_cons, List.map_cons, List.map_map]
      at read
    obtain ⟨here, later⟩ := List.cons.inj read
    obtain ⟨x, y, rest, rfl, narrow, narrow', pair⟩ := slotAt_zero_some here
    have shifted : (List.range bytes.length).map (slotAt rest) = bytes.map some := by
      rw [← later]
      apply List.map_congr_left
      intro i _
      exact (slotAt_succ narrow narrow' i).symm
    obtain ⟨pairs, tail, rfl, bytes'⟩ := ih shifted
    exact ⟨(x, y) :: pairs, tail, rfl, by rw [List.map_cons, pair, bytes', List.map_cons]⟩

theorem length_spell (pairs : List (Char × Char)) : (spell pairs).length = 2 * pairs.length := by
  induction pairs with
  | nil => rfl
  | cons pair pairs ih =>
    rw [spell, List.flatMap_cons, List.length_append]
    change 2 + (spell pairs).length = _
    rw [ih, List.length_cons]
    omega

theorem unhex16_eq_slots {s : String} {b : WireUuid} :
    unhex16 s = some b ↔ s.utf8ByteSize = 32 ∧
      (List.range b.toList.length).map (slotAt s.toList) = b.toList.map some := by
  have sixteen : b.toList.length = 16 := Vector.length_toList
  have slots : unhexSlot s = slotAt s.toList := funext (unhexSlot_eq s)
  rw [unhex16, slots]
  by_cases sized : s.utf8ByteSize = 32
  next =>
    rw [if_neg (not_not.mpr sized), and_iff_right sized, Option.bind_eq_some_iff, sixteen]
    constructor
    · rintro ⟨out, read, made⟩
      split at made
      next => rw [← Option.some_inj.mp made, mapM_eq_some_iff.mp read, Vector.toList]
      next => simp at made
    · intro read
      refine ⟨b.toList, mapM_eq_some_iff.mpr read, ?_⟩
      rw [dif_pos sixteen]
      simp [Vector.toList]
  next => simp [sized]

-- What is read is sixteen pairs, each of which reads as a byte.
theorem unhex16_eq_some_iff {s : String} {b : WireUuid} :
    unhex16 s = some b ↔
      ∃ pairs, s.toList = spell pairs ∧ pairs.map pairByte = b.toList.map some := by
  have sixteen : b.toList.length = 16 := Vector.length_toList
  rw [unhex16_eq_slots]
  constructor
  next =>
    rintro ⟨sized, slots⟩
    obtain ⟨pairs, rest, text, bytes⟩ := spell_of_slots slots
    have narrow := (slots_of_spell rest bytes).2
    have count : pairs.length = 16 := by
      rw [← sixteen, ← List.length_map (f := pairByte), bytes, List.length_map]
    have empty : rest = [] := by
      rw [← String.ofList_toList (s := s), utf8ByteSize_ofList, text, byteLen_append,
        byteLen_narrow narrow, length_spell, count] at sized
      exact byteLen_eq_zero.mp (by omega)
    exact ⟨pairs, by rw [text, empty, List.append_nil], bytes⟩
  next =>
    rintro ⟨pairs, text, bytes⟩
    obtain ⟨slots, narrow⟩ := slots_of_spell [] bytes
    have count : pairs.length = 16 := by
      rw [← sixteen, ← List.length_map (f := pairByte), bytes, List.length_map]
    rw [List.append_nil, ← text] at slots
    refine ⟨?_, slots⟩
    rw [← String.ofList_toList (s := s), text, utf8ByteSize_narrow narrow, length_spell, count]

-- A written manifest entry reads back as the space it was recorded for.
theorem unhex16_hex16 (b : WireUuid) : unhex16 (hex16 b) = some b := by
  refine unhex16_eq_some_iff.mpr
    ⟨b.toList.map fun x => (hexDigit (x.toNat / 16), hexDigit (x.toNat % 16)), ?_, ?_⟩
  · rw [hex16, String.toList_ofList, spell, List.flatMap_map]
  · rw [List.map_map]
    apply List.map_congr_left
    intro x _
    change (fromStrRadix 16 255 (hexPair x)).map UInt8.ofNat = some x
    rw [hexPair_value, Option.map_some, UInt8.ofNat_toNat]

def HexText (s : String) : Prop := s.toList.length = 32 ∧ ∀ c ∈ s.toList, c ∈ hexDigits

/-- What is read from the text is what its digits write. -/
def ReadsAsWritten (s : String) : Prop :=
  ∀ b, unhex16 s = some b → HexText s ∧ toAsciiLowercase s = hex16 b

def SignedText (s : String) : Prop :=
  ∃ pairs : List (Char × Char), pairs.length = 16 ∧ s.toList = spell pairs ∧
    (∀ pair ∈ pairs, (pair.1 ∈ hexDigits ∨ pair.1 = '+') ∧ pair.2 ∈ hexDigits) ∧
    ∃ pair ∈ pairs, pair.1 = '+'

theorem mem_spell {pairs : List (Char × Char)} {c : Char} :
    c ∈ spell pairs ↔ ∃ pair ∈ pairs, c = pair.1 ∨ c = pair.2 := by
  simp [spell]

theorem lower_spell {pairs : List (Char × Char)} {bytes : List UInt8}
    (read : pairs.map pairByte = bytes.map some)
    (digits : ∀ pair ∈ pairs, pair.1 ∈ hexDigits ∧ pair.2 ∈ hexDigits) :
    (spell pairs).map Char.toLower = bytes.flatMap hexPair := by
  induction pairs generalizing bytes with
  | nil =>
    obtain rfl := List.map_eq_nil_iff.mp read.symm
    rfl
  | cons pair pairs ih =>
    rcases bytes with _ | ⟨byte, bytes⟩
    next => simp at read
    next =>
      obtain ⟨here, later⟩ := List.cons.inj read
      obtain ⟨⟨high, low⟩, rest⟩ := List.forall_mem_cons.mp digits
      obtain ⟨byte', value, lower⟩ := pairByte_hex high low
      obtain rfl := Option.some_inj.mp (value.symm.trans here)
      rw [List.flatMap_cons, lower, ← ih later rest]
      rfl

theorem readsAsWritten_of_unsigned {s : String} (unsigned : ¬ SignedText s) :
    ReadsAsWritten s := by
  intro b read
  obtain ⟨pairs, text, bytes⟩ := unhex16_eq_some_iff.mp read
  have count : pairs.length = 16 := by
    rw [← List.length_map (f := pairByte), bytes, List.length_map, Vector.length_toList]
  have readable : ∀ pair ∈ pairs,
      (pair.1 ∈ hexDigits ∨ pair.1 = '+') ∧ pair.2 ∈ hexDigits := by
    intro pair member
    exact isSome_pairByte_iff.mp (forall_isSome_iff.mpr ⟨_, bytes⟩ pair member)
  have digits : ∀ pair ∈ pairs, pair.1 ∈ hexDigits ∧ pair.2 ∈ hexDigits := by
    intro pair member
    obtain ⟨high, low⟩ := readable pair member
    exact ⟨high.resolve_right fun plus =>
      unsigned ⟨pairs, count, text, readable, pair, member, plus⟩, low⟩
  refine ⟨⟨by rw [text, length_spell, count], ?_⟩, ?_⟩
  · intro c member
    rw [text] at member
    obtain ⟨pair, inside, rfl | rfl⟩ := mem_spell.mp member
    · exact (digits pair inside).1
    · exact (digits pair inside).2
  · rw [toAsciiLowercase, text, lower_spell bytes digits]
    rfl

-- A signed text is read, and has a character in it that is no digit.
theorem not_readsAsWritten_of_signed {s : String} (signed : SignedText s) :
    ¬ ReadsAsWritten s := by
  obtain ⟨pairs, count, text, readable, pair, member, plus⟩ := signed
  obtain ⟨out, bytes⟩ : ∃ out : List UInt8, pairs.map pairByte = out.map some :=
    forall_isSome_iff.mp fun pair member => isSome_pairByte_iff.mpr (readable pair member)
  have sized : out.length = 16 := by
    rw [← count, ← List.length_map (f := pairByte), bytes, List.length_map]
  have read : unhex16 s = some ⟨out.toArray, sized⟩ :=
    unhex16_eq_some_iff.mpr ⟨pairs, text, by simpa [Vector.toList] using bytes⟩
  intro written
  have digit := (written _ read).1.2 pair.1 (by
    rw [text, mem_spell]
    exact ⟨pair, member, Or.inl rfl⟩)
  rw [plus] at digit
  exact absurd digit (by decide)

theorem hex_codec_iff (b : WireUuid) (s : String) :
    unhex16 (hex16 b) = some b ∧ (ReadsAsWritten s ↔ ¬ SignedText s) := by
  refine ⟨unhex16_hex16 b, ?_, readsAsWritten_of_unsigned⟩
  intro written signed
  exact not_readsAsWritten_of_signed signed written

theorem plus_read_as_digit :
    unhex16 "+f+f+f+f+f+f+f+f+f+f+f+f+f+f+f+f" = some (Vector.replicate 16 15) ∧
      ¬ HexText "+f+f+f+f+f+f+f+f+f+f+f+f+f+f+f+f" := by
  constructor
  · exact unhex16_eq_some_iff.mpr
      ⟨List.replicate 16 ('+', 'f'), by decide, by decide +kernel⟩
  · intro text
    exact absurd (text.2 '+' (by decide)) (by decide)

end BrainEval.SpaceManifest
