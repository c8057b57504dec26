import Mathlib
import BrainEval.Client.Harness

set_option autoImplicit false

namespace BrainEval.Synthesize

open Harness

def dontKnow : String := "I don't know."

def numberedBlock (results : List MemoryResult) (cap : Nat) : String :=
  -- a cap of zero still shows one text
  let n := min results.length (max cap 1)
  "\n".intercalate ((results.take n).mapIdx fun i m => toString (i + 1) ++ ". " ++ m.text)

def synthesizeAnswer (outcome : RecallOutcome) (episodicCap : Nat) : String :=
  if outcome.memories.isEmpty then dontKnow else numberedBlock outcome.memories episodicCap

end BrainEval.Synthesize
