import Mathlib
import BrainEval.Lib.ParitySum
import BrainEval.Core.Instance
import BrainEval.SpaceManifest

set_option autoImplicit false

namespace BrainEval

-- A SHA-256 value; the fold of a pin adds these bit by bit.
@[ext] structure Digest where
  bytes : Vector UInt8 32
  deriving DecidableEq

namespace Digest

def xor (d e : Digest) : Digest := ⟨Vector.zipWith (· ^^^ ·) d.bytes e.bytes⟩

instance : Zero Digest := ⟨⟨Vector.replicate 32 0⟩⟩

instance : Add Digest := ⟨xor⟩

instance : Neg Digest := ⟨id⟩

theorem add_getElem (d e : Digest) (i : Nat) (within : i < 32) :
    (d + e).bytes[i] = d.bytes[i] ^^^ e.bytes[i] := Vector.getElem_zipWith _

theorem zero_getElem (i : Nat) (within : i < 32) : (0 : Digest).bytes[i] = 0 :=
  Vector.getElem_replicate within

theorem ext_bytes {d e : Digest} (same : ∀ i (within : i < 32), d.bytes[i] = e.bytes[i]) :
    d = e :=
  Digest.ext (Vector.ext same)

theorem add_self (d : Digest) : d + d = 0 := by
  apply ext_bytes
  intro i within
  rw [add_getElem, zero_getElem, UInt8.xor_self]

instance : AddCommGroup Digest where
  add_assoc d e f := by
    apply ext_bytes
    intro i within
    simp only [add_getElem, UInt8.xor_assoc]
  zero_add d := by
    apply ext_bytes
    intro i within
    rw [add_getElem, zero_getElem, UInt8.zero_xor]
  add_zero d := by
    apply ext_bytes
    intro i within
    rw [add_getElem, zero_getElem, UInt8.xor_zero]
  add_comm d e := by
    apply ext_bytes
    intro i within
    rw [add_getElem, add_getElem, UInt8.xor_comm]
  neg_add_cancel := add_self
  nsmul := nsmulRec
  zsmul := zsmulRec

-- `{byte:02x}` of every byte.
def hex (d : Digest) : String := String.ofList (d.bytes.toList.flatMap SpaceManifest.hexPair)

theorem hexPairs_injective {xs ys : List UInt8}
    (same : xs.flatMap SpaceManifest.hexPair = ys.flatMap SpaceManifest.hexPair) : xs = ys := by
  induction xs generalizing ys with
  | nil =>
    cases ys with
    | nil => rfl
    | cons y ys => simp [SpaceManifest.hexPair] at same
  | cons x xs ih =>
    cases ys with
    | nil => simp [SpaceManifest.hexPair] at same
    | cons y ys =>
      rw [List.flatMap_cons, List.flatMap_cons] at same
      obtain ⟨pair, rest⟩ := List.append_inj same rfl
      have value := SpaceManifest.hexPair_value x
      rw [pair, SpaceManifest.hexPair_value] at value
      rw [ih rest, UInt8.toNat_inj.mp (Option.some.inj value)]

theorem hex_injective {d e : Digest} (same : d.hex = e.hex) : d = e := by
  have lists := hexPairs_injective (String.ofList_inj.mp same)
  exact Digest.ext (Vector.toList_inj.mp lists)

end Digest

namespace Pin

structure DatasetPin where
  name : String
  instances : Nat
  contentSha256 : String
  deriving DecidableEq

inductive PinMismatch where
  | count (expected actual : Nat)
  | hash (expected actual : String)
  deriving DecidableEq

def utf8 (s : String) : List UInt8 := s.toUTF8.data.toList

-- Per-instance canonical bytes: what `instance_digest` hashes.
def canonical (inst : EvalInstance) : List UInt8 :=
  utf8 inst.questionId ++ [0x1f] ++ utf8 inst.question ++ [0x1f] ++ utf8 inst.answer ++ [0x1f] ++
    inst.sessions.flatMap fun session =>
      session.turns.flatMap fun turn => utf8 turn.role ++ [0x1e] ++ utf8 turn.content ++ [0x1e]

def toLeBytes (n : Nat) : List UInt8 := (List.range 8).map fun k => UInt8.ofNat (n / 256 ^ k)

section Sha256

variable (sha256 : List UInt8 → Digest)

def instanceDigest (inst : EvalInstance) : Digest := sha256 (canonical inst)

def fold (instances : List EvalInstance) : Digest :=
  instances.foldl (fun fold inst => fold.xor (instanceDigest sha256 inst)) 0

-- The second hash takes in the fold and the count.
def message (instances : List EvalInstance) : List UInt8 :=
  (fold sha256 instances).bytes.toList ++ toLeBytes instances.length

def pinInstances (name : String) (instances : List EvalInstance) : DatasetPin where
  name := name
  instances := instances.length
  contentSha256 := (sha256 (message sha256 instances)).hex

def verifyPin (pin : DatasetPin) (instances : List EvalInstance) : Except PinMismatch Unit :=
  if pin.instances ≠ instances.length then .error (.count pin.instances instances.length)
  else
    let actual := pinInstances sha256 pin.name instances
    if actual.contentSha256 ≠ pin.contentSha256 then
      .error (.hash pin.contentSha256 actual.contentSha256)
    else .ok ()

end Sha256

-- The fields a pin is over.
structure Content where
  questionId : String
  question : String
  answer : String
  turns : List (String × String)
  deriving DecidableEq

def content (inst : EvalInstance) : Content where
  questionId := inst.questionId
  question := inst.question
  answer := inst.answer
  turns := inst.sessions.flatMap fun session => session.turns.map fun turn =>
    (turn.role, turn.content)

end Pin

end BrainEval
