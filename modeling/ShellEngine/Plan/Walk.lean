import ShellEngine.Plan.Stage

/-!
# Walking a plan

`nextStage` picks the stage that follows one that ended with a given status, and `walk` is the
sequence of stages that this reaches from the first one. A conditional rule that does not hold
skips the stages chained to it by the same rule or by `concurrent`, and the stage that ends that
chain. The index only grows, which is why every walk ends.
-/

namespace ShellEngine

/-- Whether a rule keeps a skipped chain of the rule `chained` going. -/
def continuesSkip (chained rule : Continuation) : Bool :=
  rule == chained || rule == .concurrent

/-- The stage after the chain of `chained` rules that begins at stage `start`, if there is one. -/
def afterChain (rules : List Continuation) (start : Nat) (chained : Continuation) : Option Nat :=
  let run := (rules.drop start).takeWhile (continuesSkip chained)
  let next := start + run.length + 1
  if next < rules.length then some next else none

/-- The stage to run after stage `current` ended with `status`. -/
def nextStage (rules : List Continuation) (current : Nat) (status : Int) : Option Nat :=
  if current + 1 ≥ rules.length then none
  else
    match rules.getD current .never with
    | .unconditional | .concurrent => some (current + 1)
    | .onSuccess =>
      if status = 0 then some (current + 1) else afterChain rules (current + 1) .onSuccess
    | .onFailure =>
      if status ≠ 0 then some (current + 1) else afterChain rules (current + 1) .onFailure
    | .never => none

theorem afterChain_bounds {rules : List Continuation} {start next : Nat} {chained : Continuation}
    (h : afterChain rules start chained = some next) : start < next ∧ next < rules.length := by
  simp only [afterChain, Option.ite_none_right_eq_some, Option.some.injEq] at h
  omega

/-- The next stage lies behind the current one and inside the plan. -/
theorem nextStage_bounds {rules : List Continuation} {current next : Nat} {status : Int}
    (h : nextStage rules current status = some next) :
    current < next ∧ next < rules.length := by
  unfold nextStage at h
  split at h
  · cases h
  · split at h
    · cases h; omega
    · cases h; omega
    · split at h
      · cases h; omega
      · have := afterChain_bounds h; omega
    · split at h
      · cases h; omega
      · have := afterChain_bounds h; omega
    · cases h

/-- The stages reached from stage `start`, with `status` giving the status of each. -/
def walkFrom (rules : List Continuation) (status : Nat → Int) (start : Nat) : List Nat :=
  match _h : nextStage rules start (status start) with
  | none => [start]
  | some next => start :: walkFrom rules status next
termination_by rules.length - start
decreasing_by
  have := nextStage_bounds _h
  omega

/-- The stages reached from the first one; an empty plan has none. -/
def walk (rules : List Continuation) (status : Nat → Int) : List Nat :=
  if rules.isEmpty then [] else walkFrom rules status 0

end ShellEngine
