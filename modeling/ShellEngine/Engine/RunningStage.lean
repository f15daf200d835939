import ShellEngine.Plan.Stage

/-!
# Stages at work

A stage of a plan with what it holds on to while the plan runs. Children, harvesters, buffers and
what is shared with a harvester belong to the session; a stage knows them by their keys.
-/

namespace ShellEngine

/-- A stage with what it holds on to. -/
structure RunningStage where
  stage : Stage
  record : Nat
  child : Option Nat := none
  harvester : Option Nat := none
  stdoutBuffer : Option Nat := none
  stderrBuffer : Option Nat := none
  /-- The descriptor from which the stage reads what the stage before it wrote. -/
  pipedInput : Option Nat := none
  /-- Buffers with the descriptors that are to be drained into them. -/
  pendingDrains : List (Nat × Nat) := []

/-- A plan at work. -/
structure RunningPlan where
  text : String
  waits : Bool
  stages : Array RunningStage

namespace RunningPlan

/-- The rules that link the stages. -/
def rules (p : RunningPlan) : List Continuation := p.stages.toList.map fun s ↦ s.stage.next

end RunningPlan

end ShellEngine
