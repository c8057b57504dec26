import Mathlib
import BrainEval.Client.Harness

set_option autoImplicit false

namespace BrainEval

open RustStr

/-- The conversation key to space id map one run writes and a later one reads. -/
structure SpaceManifest where
  benchmark : String
  endpoint : String
  spaces : Std.TreeMap String String

namespace SpaceManifest

def hexDigit (n : Nat) : Char := Nat.digitChar n

def hex16 (b : WireUuid) : String :=
  String.ofList (b.toList.flatMap fun x => [hexDigit (x.toNat / 16), hexDigit (x.toNat % 16)])

def unhexSlot (s : String) (i : Nat) : Option UInt8 :=
  (getBytes s (2 * i) (2 * i + 2)).bind fun pair => (fromStrRadix 16 255 pair).map UInt8.ofNat

def unhex16 (s : String) : Option WireUuid :=
  if s.utf8ByteSize ≠ 32 then none
  else
    ((List.range 16).mapM (unhexSlot s)).bind fun out =>
      if sized : out.length = 16 then some ⟨out.toArray, by simpa using sized⟩ else none

def new (benchmark endpoint : String) : SpaceManifest := ⟨benchmark, endpoint, ∅⟩

def record (m : SpaceManifest) (conversationKey : String) (space : WireUuid) : SpaceManifest :=
  { m with spaces := m.spaces.insert conversationKey (hex16 space) }

def spaceFor (m : SpaceManifest) (conversationKey : String) : Option WireUuid :=
  m.spaces[conversationKey]?.bind unhex16

theorem nibbles_value : ∀ high < 16, ∀ low < 16,
    fromStrRadix 16 255 [hexDigit high, hexDigit low] = some (high * 16 + low) := by
  decide +kernel

def hexPair (x : UInt8) : List Char := [hexDigit (x.toNat / 16), hexDigit (x.toNat % 16)]

theorem hexPair_value (x : UInt8) : fromStrRadix 16 255 (hexPair x) = some x.toNat := by
  have bound := x.toNat_lt
  rw [hexPair, nibbles_value _ (by omega) _ (by omega)]
  congr 1
  omega

end SpaceManifest

end BrainEval
