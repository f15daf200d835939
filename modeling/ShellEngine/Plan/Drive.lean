import ShellEngine.Error
import ShellEngine.Plan.Walk
import ShellEngine.Process.Status

/-!
# Driving a plan

`drive` runs the stages of a plan one after the other, each as `nextStage` says. It stops before the
next stage once the line is cancelled, after a stage whose redirection failed, and after one that
was handed to a nested instance, with which the whole plan is done.

What running a stage means is left to a `Conductor`, so that the order in which stages run can be
reasoned about without it.
-/

namespace ShellEngine

/-- What came of running a stage. -/
inductive StageResult
  | status (code : Int)
  /-- A nested instance runs it. -/
  | delegated
  deriving DecidableEq, Repr

/-- What `drive` needs to know how to do. -/
structure Conductor (m : Type → Type) where
  /-- Gets a stage ready, before it is decided whether it runs. -/
  prepare : Nat → m Unit
  isCancelled : m Bool
  run : Nat → m (Except EngineError StageResult)
  /-- Takes note of a stage that was run. -/
  pass : Nat → m Unit
  setLevel : Int → m Unit
  report : EngineError → m Unit

/-- What came of driving a plan: the stages that were run with their statuses, and whether the last
one was handed on. -/
structure Passage where
  ran : List (Nat × Int) := []
  delegated : Bool := false
  deriving DecidableEq, Repr

/-- The passage with a stage in front. -/
def Passage.after (stage : Nat) (status : Int) (p : Passage) : Passage :=
  { p with ran := (stage, status) :: p.ran }

/-- What follows a stage. -/
inductive Turn
  /-- Nothing, and this is the passage from here on. -/
  | halt (p : Passage)
  /-- Whatever the rules say for this status. -/
  | goOn (status : Int)

/-- Deals with one stage. -/
def Conductor.turn {m : Type → Type} [Monad m] (c : Conductor m) (current : Nat) : m Turn := do
  c.prepare current
  if ← c.isCancelled then return .halt {}
  match ← c.run current with
  | .ok .delegated =>
    c.setLevel exitSuccess
    return .halt { delegated := true }
  | .ok (.status code) =>
    c.setLevel code
    c.pass current
    return .goOn code
  | .error e =>
    c.report e
    c.setLevel exitFailure
    if e.isRedirection then return .halt { ran := [(current, exitFailure)] }
    c.pass current
    return .goOn exitFailure

/-- Runs the stages of a plan from stage `current` on. -/
def drive {m : Type → Type} [Monad m] (c : Conductor m) (rules : List Continuation)
    (current : Nat) : m Passage := do
  match ← c.turn current with
  | .halt p => return p
  | .goOn status =>
    match _h : nextStage rules current status with
    | some next => return (← drive c rules next).after current status
    | none => return { ran := [(current, status)] }
termination_by rules.length - current
decreasing_by
  have := nextStage_bounds _h
  omega

end ShellEngine
