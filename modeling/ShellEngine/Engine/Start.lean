import ShellEngine.Engine.Harvest
import ShellEngine.Process.Launch

/-!
# Starting stages

The ways in which a stage becomes a process, and the one in which it becomes none: the opener hands
a target to whatever owns it, so its own process says nothing about the stage.

A line that is not waited for may be handed to a new instance of the engine, which becomes a job.
-/

namespace ShellEngine

open Machine

namespace Session

/-- Runs a process that is left to itself from now on; gives its end, unless that does not come
before the limit. The clock stays where it is. -/
def runBeside (s : Session) (p : Process) (limit : Option Nat) : Option Fate × Session :=
  let start := s.now
  let (ending, host) := s.host.run p limit
  let time := host.world.clock
  let isKilled := (limit.map fun limit ↦ decide (limit ≤ time)).getD false
  let fate : Fate := { time, status := some (.process ending.how) }
  (if isKilled then none else some fate,
    { s with host := { host with world := { host.world with clock := start } } })

/-- Starts a child. -/
def startChild (s : Session) (p : Process) (waits : Bool) : Nat × Session :=
  let (pid, s) := s.newPid
  let origin := if waits then some (p, s.host.world) else none
  let (fate, s) := s.runBeside p s.backgroundLimit
  s.addChild { pid, fate, origin }

/-- Starts a program as the child of a stage. A stage that is not waited for is asked to end before
it is forced to. -/
def spawn (s : Session) (stage : RunningStage) (program : String) (args : List String) :
    Except EngineError Unit × RunningStage × Session :=
  let waits := stage.stage.waits
  let stage :=
    if waits then stage else { stage with stage := { stage.stage with graceful := true } }
  match s.host.prepare program args !waits with
  | .error e => (.error (.launch program e), stage, s)
  | .ok process =>
    let (child, s) := s.startChild process waits
    let pid := (s.child? child).map Child.pid
    (.ok (), { stage with child := some child }, s.modifyRecord stage.record (·.setPid pid))

/-- Hands a target to the opener. -/
def openTarget (s : Session) (stage : RunningStage) (target : String) :
    Except EngineError Unit × RunningStage × Session :=
  match s.host.prepare s.settings.launch.opener [target] true with
  | .error e => (.error (.opener target (e.number?.getD exitFailure) e.message), stage, s)
  | .ok process =>
    let (_, s) := s.runBeside process s.backgroundLimit
    (.ok (), stage, s.modifyRecord stage.record fun r ↦ { r with suppressCompletion := true })

/-- The program that nested instances of the engine are started from. -/
def subshellProgram (s : Session) : Except EngineError String :=
  match s.settings.subshell.program with
  | some program => .ok program
  | none =>
    match s.host.environment.get? subshellVariable with
    | some program => if program.isEmpty then .error .noSubshell else .ok program
    | none => .error .noSubshell
where
  subshellVariable : String := "SHEXSPEC"

/-- Starts a script through its interpreter. A stage that is waited for is harvested if it can be,
and runs plainly otherwise. -/
def startScript (s : Session) (stage : RunningStage) (script : String) :
    Except EngineError Unit × RunningStage × Session :=
  let (program, args) :=
    Launch.batchCommand s.settings.harvest.interpreter script stage.stage.arguments
  if stage.stage.waits then
    let capture (value : Bool) (s : Session) : Session :=
      s.modifyRecord stage.record fun r ↦ { r with capture := value }
    match (capture true s).startHarvested program args stage.record with
    | (.ok (child, harvester), s) =>
      (.ok (), { stage with child := some child, harvester := some harvester }, s)
    | (.error _, s) => (capture false s).spawn stage program args
  else s.spawn stage program args

/-- Starts what a stage names. A program that may not be executed is handed to the opener. -/
def launch (s : Session) (stage : RunningStage) (target : String) :
    Except EngineError Unit × RunningStage × Session :=
  match Launch.classify target s.settings with
  | .opener => s.openTarget stage target
  | .shellScript =>
    match s.subshellProgram with
    | .error e => (.error e, stage, s)
    | .ok program => s.spawn stage program (target :: stage.stage.arguments)
  | .batch => s.startScript stage target
  | .direct =>
    match s.spawn stage target stage.stage.arguments with
    | (.error e, stage, s) =>
      if e.isPermissionDenied then s.openTarget stage target else (.error e, stage, s)
    | started => started

/-- Hands a text to a new instance of the engine, which becomes a job. -/
def delegate (s : Session) (text : String) : Except EngineError Nat × Session :=
  match s.subshellProgram with
  | .error e => (.error e, s)
  | .ok program =>
    match s.host.prepare program [s.settings.subshell.switch, text] true with
    | .error e => (.error (.launch program e), s)
    | .ok process =>
      let (child, s) := s.startChild process false
      let (id, jobs) := s.jobs.register text (some child) none
      (.ok id, { s with jobs })

/-- The program of a command name. A name with a directory in it is a path, and only has to be
there. -/
def findProgram (s : Session) (name : String) : Option String :=
  let cs := name.toList
  let names := (Launch.components cs).length
  let startsHere := cs = ['.'] || "./".toList.isPrefixOf cs
  if cs.head? = some '/' || 1 < names + (if startsHere then 1 else 0) then
    if s.host.pathExists name then some name else none
  else s.host.which name

end Session

end ShellEngine
