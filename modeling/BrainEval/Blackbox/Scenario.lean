import Mathlib
import BrainEval.Lib.Early

set_option autoImplicit false

namespace BrainEval

open Early

structure ScenarioOutcome where
  name : String
  passed : Bool
  detail : String
  advisory : Bool
  deriving DecidableEq

namespace ScenarioOutcome

def pass (name detail : String) : ScenarioOutcome := ⟨name, true, detail, false⟩

def fail (name detail : String) : ScenarioOutcome := ⟨name, false, detail, false⟩

-- The constructor `advisory`.
def observed (name detail : String) : ScenarioOutcome := ⟨name, true, detail, true⟩

end ScenarioOutcome

-- The body of a scenario. An error of a step and an early `fail` both end it with the detail of a
-- failed outcome.
abbrev Scenario (α : Type) : Type := Run String α

namespace Scenario

def outcome (name : String) (body : Scenario ScenarioOutcome) : Option ScenarioOutcome :=
  body.run.map fun
    | .ok given => given
    | .error detail => .fail name detail

def Passes (verdict : Option ScenarioOutcome) : Prop := ∃ o, verdict = some o ∧ o.passed = true

-- The debug format of an option, given that of a text.
def debugOption (debug : String → String) : Option String → String
  | some s => "Some(" ++ debug s ++ ")"
  | none => "None"

theorem passes_outcome_iff {name : String} {body : Scenario ScenarioOutcome} :
    Passes (outcome name body) ↔ ∃ o, Yields body o ∧ o.passed = true := by
  rw [Passes, outcome]
  unfold Yields
  cases body.run with
  | none => simp
  | some ended => cases ended <;> simp [ScenarioOutcome.fail]

end Scenario

end BrainEval
