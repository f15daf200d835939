/-!
# What outlives a stage

The part of a running stage that its harvester thread shares: flags, the process id, and the
processes that were seen to be forked and have not ended.
-/

namespace ShellEngine

/-- The shared part of a running stage. -/
structure StageRecord where
  /-- Whether the environment is taken over when the stage ends. -/
  capture : Bool := false
  /-- Zero stands for none. -/
  processId : Int := 0
  /-- Traced processes other than the stage's own, in order of appearance. -/
  debugged : List Int := []
  tracingEnded : Bool := false
  suppressCompletion : Bool := false
  completionDisplayed : Bool := false
  deriving DecidableEq, Repr

namespace StageRecord

def pid? (r : StageRecord) : Option Int := if r.processId = 0 then none else some r.processId

def setPid (r : StageRecord) (pid : Option Int) : StageRecord :=
  { r with processId := pid.getD 0 }

def addChild (r : StageRecord) (pid : Int) : StageRecord :=
  { r with debugged := r.debugged ++ [pid] }

/-- Marks the indicator as shown; true if it already was. -/
def displayCompletion (r : StageRecord) : Bool × StageRecord :=
  (r.completionDisplayed, { r with completionDisplayed := true })

end StageRecord

end ShellEngine
