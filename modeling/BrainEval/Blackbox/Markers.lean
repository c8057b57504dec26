import Mathlib
import BrainEval.Lib.Tagged
import BrainEval.HexCodec
import BrainEval.Blackbox.Backfill
import BrainEval.Blackbox.Chaos
import BrainEval.Blackbox.CoreScenarios
import BrainEval.Blackbox.GracefulDrain
import BrainEval.Blackbox.Rebuild
import BrainEval.Blackbox.RestartRecovery

set_option autoImplicit false

namespace BrainEval.Markers

open RustStr SpaceManifest Tagged

-- The scenarios that write under a marker and then ask what is stored under it.
inductive Kind where
  | isolation
  | planReason
  | forget
  | txn
  | delegated
  | recovery
  | drain
  | chaos
  | rebuild
  | backfill
  deriving DecidableEq

def Kind.name : Kind → String
  | .isolation => "isolation-marker"
  | .planReason => "planreason-isolation"
  | .forget => "forget-marker"
  | .txn => "txn-marker"
  | .delegated => "delegated-txn"
  | .recovery => "recovery-marker"
  | .drain => "drain-marker"
  | .chaos => "chaos"
  | .rebuild => "rebuild-marker"
  | .backfill => "backfill-marker"

def marker (kind : Kind) (spaceId : WireUuid) : String :=
  CoreScenarios.markerOf kind.name spaceId

theorem marker_recovery (w : RestartRecovery.World) : w.marker = marker .recovery w.spaceId := by
  simp [RestartRecovery.World.marker, marker, CoreScenarios.markerOf, Kind.name]

theorem marker_drain (w : GracefulDrain.World) : w.marker = marker .drain w.spaceId := by
  simp [GracefulDrain.World.marker, marker, CoreScenarios.markerOf, Kind.name]

theorem marker_chaos (w : Chaos.World) : w.marker = marker .chaos w.spaceId := by
  simp [Chaos.World.marker, marker, CoreScenarios.markerOf, Kind.name]

-- What a scenario may write in a run whose space has this id.
def texts (kind : Kind) (spaceId : WireUuid) : Set String :=
  let own := marker kind spaceId
  match kind with
  | .isolation => {CoreScenarios.secret own}
  | .planReason => {CoreScenarios.launchKey own}
  | .forget => {CoreScenarios.migration own}
  | .txn => {CoreScenarios.provisional own}
  | .delegated => {CoreScenarios.pagerCode own}
  | .recovery => {text | ∃ i, text = (RestartRecovery.request own i).text}
  | .drain => {text | ∃ i, text = (GracefulDrain.request own i).text}
  | .chaos => {text | ∃ i : UInt64, text = (Chaos.request own i.toNat).text}
  | .rebuild => {text | text ∈ Rebuild.seeds own}
  | .backfill => {text | text ∈ Backfill.seeds own}

theorem hexDigit_mem {n : Nat} (small : n < 16) : hexDigit n ∈ hexDigits := by
  have each : ∀ n < 16, hexDigit n ∈ hexDigits := by decide
  exact each n small

theorem hexText_hex16 (id : WireUuid) : HexText (hex16 id) := by
  rw [HexText, hex16, String.toList_ofList]
  constructor
  · simp [List.length_flatMap]
  · intro c member
    obtain ⟨x, -, written⟩ := List.mem_flatMap.mp member
    have bound := x.toNat_lt
    rcases List.mem_pair.mp written with rfl | rfl
    · exact hexDigit_mem (by omega)
    · exact hexDigit_mem (by omega)

theorem hex16_injective : Function.Injective hex16 := by
  intro id id' same
  have back := unhex16_hex16 id
  rw [same, unhex16_hex16] at back
  exact (Option.some.inj back).symm

theorem toList_marker (kind : Kind) (id : WireUuid) :
    (marker kind id).toList = kind.name.toList ++ '-' :: (hex16 id).toList := by
  simp [marker, CoreScenarios.markerOf]

def kinds : List Kind :=
  [.isolation, .planReason, .forget, .txn, .delegated, .recovery, .drain, .chaos, .rebuild,
    .backfill]

theorem mem_kinds (kind : Kind) : kind ∈ kinds := by
  cases kind <;> decide

-- No name is the end of another one.
theorem name_apart {kind kind' : Kind} (ends : kind.name.toList <:+ kind'.name.toList) :
    kind = kind' := by
  have each : ∀ k ∈ kinds, ∀ k' ∈ kinds, k.name.toList <:+ k'.name.toList → k = k' := by
    decide +kernel
  exact each kind (mem_kinds kind) kind' (mem_kinds kind') ends

theorem name_short (kind : Kind) : kind.name.toList.length < 32 := by
  cases kind <;> decide +kernel

def Digit (c : Char) : Prop := c ∈ hexDigits

instance decidableDigit : DecidablePred Digit := fun c =>
  inferInstanceAs (Decidable (c ∈ hexDigits))

theorem not_mem_numbered {c : Char} {label : String} (other : c.isDigit = false)
    (free : c ∉ label.toList) (i : Nat) : c ∉ label.toList ++ (toString i).toList := by
  have digits : (toString i).toList = Nat.toDigits 10 i := by simp
  rw [digits, List.mem_append]
  rintro (inside | number)
  · exact free inside
  · rw [Nat.isDigit_of_mem_toDigits (by decide) (by decide) number] at other
    cases other

theorem untagged_index (i : UInt64) : Untagged '-' Digit 32
    ('-' :: ((toString i.toNat).toList ++ ':' :: " chaos durable fact".toList)) := by
  have digits : (toString i.toNat).toList = Nat.toDigits 10 i.toNat := by simp
  have short : (Nat.toDigits 10 i.toNat).length ≤ 20 :=
    (Nat.length_toDigits_le_iff (by decide) (by decide)).mpr (by have := i.toNat_lt; omega)
  refine untagged_of_number (by rw [digits]; omega) (by decide) ?_
  rw [List.mem_append]
  rintro (number | tail)
  · have none_before : '-' ∉ "".toList := by decide
    exact not_mem_numbered (by decide) none_before i.toNat number
  · exact absurd tail (by decide)

-- Behind its marker a text holds nothing that could be the digits of another one.
theorem written_behind {kind : Kind} {id : WireUuid} {text : String}
    (written : text ∈ texts kind id) :
    ∃ rest, text.toList = (marker kind id).toList ++ rest ∧ Untagged '-' Digit 32 rest := by
  have plain (tail : String) (short : (tail.toList.dropWhile (· ≠ '-')).length ≤ 32) :
      ∃ rest, (marker kind id ++ tail).toList = (marker kind id).toList ++ rest ∧
        Untagged '-' Digit 32 rest :=
    ⟨tail.toList, String.toList_append, untagged_of_short short⟩
  cases kind with
  | isolation =>
    obtain rfl := written
    exact plain _ (by decide)
  | planReason =>
    obtain rfl := written
    exact plain _ (by decide)
  | forget =>
    obtain rfl := written
    exact plain _ (by decide)
  | txn =>
    obtain rfl := written
    exact plain _ (by decide)
  | delegated =>
    obtain rfl := written
    exact plain _ (by decide)
  | recovery =>
    obtain ⟨i, rfl⟩ := written
    exact ⟨": durable fact number ".toList ++ (toString i).toList,
      by simp [RestartRecovery.request],
      untagged_of_free (not_mem_numbered (by decide) (by decide) i)⟩
  | drain =>
    obtain ⟨i, rfl⟩ := written
    exact ⟨": drained fact number ".toList ++ (toString i).toList,
      by simp [GracefulDrain.request],
      untagged_of_free (not_mem_numbered (by decide) (by decide) i)⟩
  | chaos =>
    obtain ⟨i, rfl⟩ := written
    exact ⟨_, by simp [Chaos.request, Chaos.encodeReq, Chaos.cue], untagged_index i⟩
  | rebuild =>
    have listed : text ∈ Rebuild.seeds (marker .rebuild id) := written
    simp only [Rebuild.seeds, List.mem_cons, List.not_mem_nil, or_false] at listed
    rcases listed with rfl | rfl | rfl
    · exact plain _ (by decide)
    · exact plain _ (by decide)
    · exact plain _ (by decide)
  | backfill =>
    have listed : text ∈ Backfill.seeds (marker .backfill id) := written
    simp only [Backfill.seeds, List.mem_cons, List.not_mem_nil, or_false] at listed
    rcases listed with rfl | rfl | rfl
    · exact plain _ (by decide)
    · exact plain _ (by decide)
    · exact plain _ (by decide)

theorem contains_marker_iff {kind kind' : Kind} {id id' : WireUuid} {text : String}
    (written : text ∈ texts kind' id') :
    contains text (marker kind id) = true ↔ kind = kind' ∧ id = id' := by
  obtain ⟨rest, split, untagged⟩ := written_behind written
  obtain ⟨long, digits⟩ := hexText_hex16 id
  obtain ⟨long', digits'⟩ := hexText_hex16 id'
  rw [contains, decide_eq_true_iff, split, toList_marker, toList_marker, List.append_assoc,
    List.cons_append,
    tag_infix_iff (by decide) (name_short kind') digits digits' long long' untagged,
    String.toList_inj, hex16_injective.eq_iff]
  constructor
  · rintro ⟨ends, same⟩
    exact ⟨name_apart ends, same⟩
  · rintro ⟨rfl, same⟩
    exact ⟨List.suffix_rfl, same⟩

theorem marker_shows_own_memory {kind : Kind} {id : WireUuid} {hits : List MemoryResult}
    (suite : ∀ m ∈ hits, ∃ kind' id', m.text ∈ texts kind' id') :
    CoreScenarios.anyTextContains hits (marker kind id) = true ↔
      ∃ m ∈ hits, m.text ∈ texts kind id := by
  rw [CoreScenarios.anyTextContains_iff]
  refine exists_congr fun m => and_congr_right fun member => ?_
  constructor
  · intro found
    obtain ⟨kind', id', written⟩ := suite m member
    obtain ⟨rfl, rfl⟩ := (contains_marker_iff written).mp found
    exact written
  · exact fun written => (contains_marker_iff written).mpr ⟨rfl, rfl⟩

def leftover : MemoryResult :=
  ⟨0, CoreScenarios.secret (marker .isolation (Vector.replicate 16 1)), 0, 0, none, 0, [], none⟩

theorem earlier_run_not_mistaken :
    CoreScenarios.anyTextContains [leftover] (marker .isolation (Vector.replicate 16 0)) =
      false := by
  have earlier : leftover.text ∈ texts .isolation (Vector.replicate 16 1) := rfl
  rw [Bool.eq_false_iff, Ne, marker_shows_own_memory fun m member => ?_]
  · rintro ⟨m, member, own⟩
    obtain rfl := List.mem_singleton.mp member
    have found := (contains_marker_iff own).mpr ⟨rfl, rfl⟩
    exact absurd ((contains_marker_iff earlier).mp found).2 (by decide)
  · obtain rfl := List.mem_singleton.mp member
    exact ⟨_, _, earlier⟩

end BrainEval.Markers
