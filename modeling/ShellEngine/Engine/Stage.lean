import ShellEngine.Engine.Builtin
import ShellEngine.Engine.Foreground
import ShellEngine.Engine.Start
import ShellEngine.Plan.Drive

/-!
# Running a stage

A stage is a builtin or a program. Either way its streams are put in place first and put back after
it was run or started. The output of a builtin that is piped to the next stage is held back until
the builtin is done, since nobody reads it before.
-/

namespace ShellEngine

open Machine

/-- A plan at work, with the buffer that a stage wrote to last and whether that stage was waited
for. -/
structure PlanState where
  plan : RunningPlan
  lastBuffer : Option (Nat × Bool) := none

/-- Something that happens while a plan runs. -/
abbrev PlanAction := StateT PlanState Action

namespace Session

/-- Puts the streams of a stage in place. -/
def redirect (s : Session) (stage : RunningStage) (routes : Bool) :
    Except EngineError Snapshot × RunningStage × Session :=
  let o := Redirect.apply s.host s.cancellation stage s.buffers.size routes
  let added := List.replicate (o.nextBuffer - s.buffers.size) {}
  (o.result, o.stage,
    { s with
      host := o.host, cancellation := o.cancellation, buffers := s.buffers ++ added.toArray })

/-- Puts back what a redirection replaced. -/
def revert (s : Session) (snapshot : Snapshot) : Session :=
  { s with
    host := snapshot.revertStreams s.host
    cancellation := snapshot.revertRouting s.cancellation }

/-- Starts to drain the pipes of a stage. -/
def commenceDrains (s : Session) (stage : RunningStage) : RunningStage × Session :=
  ({ stage with pendingDrains := [] },
    stage.pendingDrains.foldl (fun s d ↦ s.commence d.1 d.2) s)

/-- Makes a pipe from which the contents of a buffer can be read. -/
def replay (s : Session) (buffer : Nat) : Except EngineError Nat × Session :=
  match s.host.pipe with
  | (.error e, host) => (.error (.input (.os e)), { s with host })
  | (.ok (reader, writer), host) =>
    let host :=
      match host.write writer (.ofBytes (s.contents buffer)) with
      | .ok host => host
      | .error _ => host
    (.ok reader, { s with host := { host with descriptors := host.descriptors.close writer } })

def closeDescriptor (s : Session) (fd : Nat) : Session :=
  { s with host := { s.host with descriptors := s.host.descriptors.close fd } }

end Session

namespace PlanAction

def session : PlanAction Session := liftM (get : Action Session)

def change (f : Session → Session) : PlanAction Unit := liftM (Action.change f)

def ask {α : Type} (f : Session → α × Session) : PlanAction α := liftM (Action.ask f)

/-- The stage of an index, if the plan has that many. -/
def stage? (index : Nat) : PlanAction (Option RunningStage) := return (← get).plan.stages[index]?

def setStage (index : Nat) (stage : RunningStage) : PlanAction Unit :=
  modify fun p ↦ { p with plan := { p.plan with
    stages := p.plan.stages.modify index fun _ ↦ stage } }

/-- Gives the input of the next stage to that stage; without one it is closed. -/
def handOff (index : Nat) (reader : Option Nat) : PlanAction Unit := do
  match reader with
  | none => return
  | some reader =>
    match ← stage? (index + 1) with
    | none => change fun s ↦ s.closeDescriptor reader
    | some next =>
      match next.pipedInput with
      | some old => change fun s ↦ s.closeDescriptor old
      | none => pure ()
      setStage (index + 1) { next with pipedInput := some reader }

/-- Puts the streams of a stage in place. -/
def redirect (index : Nat) (stage : RunningStage) (routes : Bool) :
    PlanAction (Except EngineError (Snapshot × RunningStage)) := do
  let (result, stage) ← ask fun s ↦
    let (result, stage, s) := s.redirect stage routes
    ((result, stage), s)
  setStage index stage
  return result.map (·, stage)

/-- Starts to drain the pipes of a stage. -/
def commenceDrains (index : Nat) (stage : RunningStage) : PlanAction RunningStage := do
  let stage ← ask fun s ↦ s.commenceDrains stage
  setStage index stage
  return stage

/-- Runs a builtin as a stage. -/
def runBuiltin (index : Nat) (stage : RunningStage) (b : Builtin) :
    PlanAction (Except EngineError StageResult) := do
  match ← redirect index stage true with
  | .error e => return .error e
  | .ok (snapshot, stage) =>
    let (nextInput, snapshot) := snapshot.takeNextInput
    let held ← nextInput.mapM fun reader ↦ ask fun s ↦
      let (key, s) := s.addBuffer
      (key, s.commence key reader)
    let stage ← commenceDrains index stage
    let code ← liftM (b.run stage.stage.arguments)
    change fun s ↦
      (s.revert snapshot).finalize
        (stage.stdoutBuffer.toList ++ stage.stderrBuffer.toList ++ held.toList)
    match held with
    | none => return .ok (.status code)
    | some held =>
      match ← ask fun s ↦ s.replay held with
      | .error e => return .error e
      | .ok reader =>
        handOff index (some reader)
        return .ok (.status code)

/-- Waits for a stage; a detached one becomes a job. -/
def await (index : Nat) (stage : RunningStage) : PlanAction (Except EngineError Int) := do
  match ← ask fun s ↦ s.waitForStage stage with
  | .error e => return .error (.input e)
  | .ok (.completed status) => return .ok status.code
  | .ok .cancelled => return .ok (signaledCode 2)
  | .ok .backgrounded =>
    let id ← ask fun s ↦
      let (id, jobs) := s.jobs.register stage.stage.text stage.child stage.harvester
      (id, { s with jobs })
    setStage index { stage with child := none, harvester := none }
    liftM (Action.tell ("[" ++ toString id ++ "] " ++ stage.stage.text ++ "\n"))
    return .ok exitSuccess

/-- Runs a program as a stage. -/
def runProgram (index : Nat) (stage : RunningStage) (target : String) :
    PlanAction (Except EngineError StageResult) := do
  match ← redirect index stage false with
  | .error e => return .error e
  | .ok (snapshot, stage) =>
    let (launched, stage) ← ask fun s ↦
      let (launched, stage, s) := s.launch stage target
      ((launched, stage), s)
    setStage index stage
    let (nextInput, snapshot) := snapshot.takeNextInput
    change fun s ↦ s.revert snapshot
    let close (fds : List Nat) : PlanAction Unit := change fun s ↦ fds.foldl .closeDescriptor s
    match launched with
    | .error e =>
      close (nextInput.toList ++ stage.pendingDrains.map (·.2))
      setStage index { stage with pendingDrains := [] }
      return .error e
    | .ok () =>
      let stage ← commenceDrains index stage
      let waited ←
        if !stage.stage.waits || stage.child.isNone then pure (.ok exitSuccess)
        else await index stage
      match waited with
      | .error e =>
        close nextInput.toList
        return .error e
      | .ok code =>
        handOff index nextInput
        return .ok (.status code)

/-- Runs a stage. A single stage that names no program may still be one for a new instance, if
nobody waits for it. -/
def runStage (index : Nat) : PlanAction (Except EngineError StageResult) := do
  match ← stage? index with
  | none => return .ok (.status exitSuccess)
  | some stage =>
    let program := stage.stage.program
    match Builtin.ofName? program with
    | some b => runBuiltin index stage b
    | none =>
      let s ← session
      let target := if Launch.isUrl program then some program else s.findProgram program
      match target with
      | some target => runProgram index stage target
      | none =>
        let single := (← get).plan.stages.size == 1
        if single && !stage.stage.waits && !s.isSubshell then
          match ← ask fun s ↦ s.delegate stage.stage.text with
          | .ok _ => return .ok .delegated
          | .error e => return .error e
        else return .error (.notFound program)

end PlanAction

end ShellEngine
