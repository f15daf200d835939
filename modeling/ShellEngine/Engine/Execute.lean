import ShellEngine.Engine.Stage

/-!
# Running a plan

The whole of a plan: the stages that `drive` reaches, the end of those that still run when the line
is cancelled, and the hand-over to the job table of those that go on. A plan of several stages that
nobody waits for goes to a new instance as a whole.
-/

namespace ShellEngine

open Machine

namespace PlanAction

/-- Gets a stage ready: one that writes to a buffer continues the buffer of the last stage, if that
was waited for. -/
def prepare (index : Nat) : PlanAction Unit := do
  match ← stage? index with
  | none => return
  | some stage =>
    match (← get).lastBuffer with
    | some (buffer, true) =>
      if stage.stage.stdout == .buffer && stage.stdoutBuffer.isNone then
        setStage index { stage with stdoutBuffer := some buffer }
    | _ => return

/-- Takes note of the buffer that a stage wrote to. -/
def pass (index : Nat) : PlanAction Unit := do
  match ← stage? index with
  | none => return
  | some stage =>
    match stage.stdoutBuffer with
    | some buffer => modify fun p ↦ { p with lastBuffer := some (buffer, stage.stage.waits) }
    | none => return

/-- How the stages of a plan are run in a session. -/
def conductor : Conductor PlanAction where
  prepare := prepare
  isCancelled := return (← session).cancellation.signaled
  run := runStage
  pass := pass
  setLevel level := liftM (Action.setLevel level)
  report e := liftM (Action.report e)

/-- Ends the stages that still run: asks them to, and after the grace period leaves them no
choice. Their harvesters are joined. -/
def cancelStages : PlanAction Unit := do
  let stages := (← get).plan.stages.toList
  change fun s ↦
    let killAll (signal : Nat) (s : Session) : Session :=
      stages.foldl (fun s r ↦ r.child.elim s fun c ↦ s.kill c signal false) s
    let s := killAll Session.terminateSignal s
    let s := s.passUntil (s.now + s.settings.cancel.gracePeriod * 1000)
    let s := killAll Session.killSignal s
    let s := stages.foldl (fun s r ↦ r.harvester.elim s fun key ↦ s.killTraced key r.record) s
    stages.foldl (fun s r ↦ r.harvester.elim s s.join) s
  modify fun p ↦ { p with plan := { p.plan with
    stages := p.plan.stages.map fun r ↦ { r with harvester := none } } }

/-- Hands the stages that go on to the job table. A stage with a harvester that still has something
to trace goes with it; a harvester that has not is joined. -/
def release : PlanAction Unit := do
  for index in List.range (← get).plan.stages.size do
    match ← stage? index with
    | none => pure ()
    | some stage =>
      let keeps ← harvesterKeeps stage
      if keeps then
        register stage stage.harvester
        setStage index { stage with child := none, harvester := none }
      else
        change fun s ↦ stage.harvester.elim s s.join
        let stage := { stage with harvester := none }
        if !stage.stage.waits && stage.stage.stdout != .pipe && stage.child.isSome then
          register stage none
          setStage index { stage with child := none }
        else setStage index stage
where
  /-- Whether a stage has a harvester that still has something to trace. -/
  harvesterKeeps (stage : RunningStage) : PlanAction Bool := do
    let s ← session
    match stage.harvester with
    | none => return false
    | some key =>
      let record := s.record stage.record
      let rootExited :=
        match stage.child.bind s.child? with
        | some c => !c.isRunning s.now
        | none => true
      let settled := rootExited && record.debugged.isEmpty
      let ended := ((s.harvesters[key]?).map Harvester.ended).getD true
      return !(record.tracingEnded || ended || settled)
  register (stage : RunningStage) (harvester : Option Nat) : PlanAction Unit :=
    change fun s ↦
      { s with jobs := (s.jobs.register stage.stage.text stage.child harvester).2 }

/-- Runs the stages of a plan; gives the buffer that a stage wrote to last. -/
def runAll : PlanAction (Option Nat) := do
  let passage ← drive conductor (← get).plan.rules 0
  if passage.delegated then return none
  if (← session).cancellation.signaled then cancelStages
  release
  return (← get).lastBuffer.map (·.1)

end PlanAction

namespace Action

/-- Hands a text to a new instance of the engine, and reports if that fails. -/
def delegate (text : String) : Action Unit := do
  match ← ask fun s ↦ s.delegate text with
  | .ok _ => setLevel exitSuccess
  | .error e =>
    report e
    setLevel exitFailure

/-- Runs a plan; gives the buffer that a stage wrote to last, and the plan as it ended. -/
def execute (plan : Plan) (wantsOutput : Bool) : Action (Option Nat × RunningPlan) := do
  let running ← ask fun s ↦ s.begin plan
  if plan.stages.isEmpty then return (none, running)
  else if !wantsOutput && plan.stages.length > 1 && !plan.waits && !(← get).isSubshell then
    delegate plan.text
    return (none, running)
  else
    let (buffer, state) ← PlanAction.runAll.run { plan := running }
    return (buffer, state.plan)

end Action

end ShellEngine
