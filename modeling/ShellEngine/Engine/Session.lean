import ShellEngine.Config.Settings
import ShellEngine.Console.Source
import ShellEngine.Engine.Redirect
import ShellEngine.Environment.Aliases
import ShellEngine.Process.Buffer
import ShellEngine.Process.Jobs
import ShellEngine.Process.Tracing

/-!
# Sessions

All that the engine keeps from line to line, together with the host it works on. Children,
harvesters, buffers and what stages share with harvesters lie in tables; the rest of the engine
refers to them by their keys, which never change.

A child runs from its start to its end as soon as it is started. When that end comes is its *fate*:
until the clock has reached it, the engine does not know of it.

Each pump of a buffer is a thread that can always be had: that the system refuses one is left out.
-/

namespace ShellEngine

open Machine

/-- How a child ends, and when. -/
structure Fate where
  time : Nat
  /-- Nobody may be left to tell how. -/
  status : Option StageStatus

/-- A child of the engine. -/
structure Child where
  pid : Int
  /-- Whether its end is told by a harvester, rather than seen by the engine itself. -/
  traced : Bool := false
  /-- A child without a fate never ends. -/
  fate : Option Fate := none
  /-- What was started, and in which world, in case that it is killed before its end. -/
  origin : Option (Process × World) := none

namespace Child

def hasEnded (c : Child) (now : Nat) : Bool :=
  match c.fate with
  | some fate => fate.time ≤ now
  | none => false

/-- How the child ended, if that is known. -/
def status? (c : Child) (now : Nat) : Option StageStatus :=
  if c.hasEnded now then c.fate.bind Fate.status else none

def isRunning (c : Child) (now : Nat) : Bool := !c.hasEnded now

/-- The child as a job shows it: the process id of a child that the engine saw ending is gone. -/
def view (c : Child) (now : Nat) : ChildView :=
  { pid := if c.traced || c.isRunning now then some c.pid else none
    code := (c.status? now).map StageStatus.code }

end Child

/-- The thread that traces a stage. -/
structure Harvester where
  record : Nat
  child : Nat
  tracer : Tracer
  /-- What will be noticed, with the times. -/
  notices : List (Nat × Notice)
  /-- The environment block of the root, as it is right before the root exits. -/
  block : List Octets
  /-- The link to the directory of the root. -/
  directory : Octets
  /-- The file that the root was last started from. -/
  image : Octets
  /-- The aliases that scripts share, as they were before the stage was started. -/
  aliasesBefore : Option Aliases
  ended : Bool := false
  /-- Whether the plan that started it has waited for its end, so that nobody else has to. -/
  joined : Bool := false

/-- A pipe that is drained into a buffer. -/
structure Pump where
  buffer : Nat
  descriptor : Nat

/-- All that the engine keeps. -/
structure Session where
  settings : Settings
  host : Host
  cancellation : Cancellation := {}
  /-- When the cancellation signal will be raised. -/
  cancelAt : Option Nat := none
  /-- When stages that nobody waits for will be killed. What is waited for is cancelled by then, so
  nobody will see what it would do later. -/
  backgroundLimit : Option Nat := none
  aliases : Aliases := ∅
  /-- What the next looks at the aliases that scripts share will find; the last of them stays. -/
  sharedAliases : List Aliases := []
  console : Console := .absent
  jobs : JobTable := {}
  children : Array Child := #[]
  harvesters : Array Harvester := #[]
  records : Array StageRecord := #[]
  buffers : Array OutputBuffer := #[]
  pumps : List Pump := []
  level : Int := exitSuccess
  /-- Whether a task is running that cannot be sent to the background. -/
  synchronous : Bool := false
  /-- Whether another instance handed this one its line. -/
  isSubshell : Bool := false
  exitRequest : Option Int := none

/-- Something that the engine does; a fault ends it. -/
abbrev Action := ExceptT Crash (StateM Session)

namespace Session

def now (s : Session) : Nat := s.host.world.clock

def child? (s : Session) (key : Nat) : Option Child := s.children[key]?

def record (s : Session) (key : Nat) : StageRecord := s.records.getD key {}

def modifyRecord (s : Session) (key : Nat) (f : StageRecord → StageRecord) : Session :=
  { s with records := s.records.modify key f }

def buffer (s : Session) (key : Nat) : OutputBuffer := s.buffers.getD key {}

/-- What the job table can learn about children and harvesters. -/
def supervision (s : Session) : Supervision :=
  { child := fun key ↦ ((s.child? key).map (·.view s.now)).getD {}
    harvesterEnded := fun key ↦ ((s.harvesters[key]?).map Harvester.ended).getD true }

/-- Looks at the aliases that scripts share; without such a table there is nothing to find. -/
def lookAtSharedAliases (s : Session) : Option Aliases × Session :=
  match s.sharedAliases with
  | [] => (none, s)
  | [last] => (some last, s)
  | first :: rest => (some first, { s with sharedAliases := rest })

def addChild (s : Session) (c : Child) : Nat × Session :=
  (s.children.size, { s with children := s.children.push c })

def modifyChild (s : Session) (key : Nat) (f : Child → Child) : Session :=
  { s with children := s.children.modify key f }

def addRecord (s : Session) : Nat × Session :=
  (s.records.size, { s with records := s.records.push {} })

def addBuffer (s : Session) : Nat × Session :=
  (s.buffers.size, { s with buffers := s.buffers.push {} })

/-- A new process id. -/
def newPid (s : Session) : Int × Session :=
  (s.host.world.nextPid, { s with host := { s.host with
    world := { s.host.world with nextPid := s.host.world.nextPid + 1 } } })

/-- Makes tables for a plan that is about to run. -/
def begin (s : Session) (p : Plan) : RunningPlan × Session :=
  let (s, stages) := p.stages.foldl (fun (s, stages) stage ↦
    let (record, s) := s.addRecord
    (s, stages.push { stage, record })) (s, #[])
  ({ text := p.text, waits := p.waits, stages }, s)

/-! ## Buffers -/

/-- Starts to drain a pipe into a buffer. -/
def commence (s : Session) (buffer descriptor : Nat) : Session :=
  { s with
    buffers := s.buffers.modify buffer fun b ↦ b.commence (toString descriptor)
    pumps := s.pumps ++ [{ buffer, descriptor }] }

/-- Whether the engine itself holds the other end of a pipe. -/
def holdsWriter (s : Session) (reader : Nat) : Bool :=
  s.host.descriptors.table.any fun e ↦
    (s.host.world.file e.2).writes && some (s.host.world.file e.2).target = s.host.target? reader

/-- When the end of a pipe can be read. -/
def closingTime (s : Session) (descriptor : Nat) : Nat :=
  ((s.host.descriptors.file? descriptor).map s.host.world.closingTime).getD 0

/-- Lets a pump move what is in its pipe, and ends it if the pipe is closed. -/
def runPump (s : Session) (p : Pump) : Session :=
  let name := toString p.descriptor
  let (got, host) :=
    match (s.host.descriptors.file? p.descriptor).map s.host.world.readAll with
    | some (.ok (os, world)) => (os, { s.host with world })
    | _ => ([], s.host)
  let s :=
    { s with
      host
      buffers := s.buffers.modify p.buffer fun b ↦ (b.write name got.toBytes).2.settle }
  if s.now < s.closingTime p.descriptor || s.holdsWriter p.descriptor then s
  else
    { s with
      buffers := s.buffers.modify p.buffer fun b ↦ (b.close name).2.settle
      host := { s.host with descriptors := s.host.descriptors.close p.descriptor }
      pumps := s.pumps.filter (·.descriptor != p.descriptor) }

def runPumps (s : Session) : Session := s.pumps.foldl runPump s

/-- The contents of a buffer. -/
def contents (s : Session) (buffer : Nat) : Bytes := (s.buffer buffer).contents

end Session

namespace Action

/-- Does something with the session that cannot fail. -/
def change (f : Session → Session) : Action Unit := modify f

/-- Asks or changes the session. -/
def ask {α : Type} (f : Session → α × Session) : Action α := do
  let (a, s) := f (← get)
  set s
  return a

/-- Writes a text to one of the standard streams; what cannot be written is lost. -/
def say (fd : Nat) (text : String) : Action Unit :=
  change fun s ↦ { s with host := s.host.say fd text }

/-- Goes on, or ends the engine. -/
def orCrash {α : Type} (r : Except Crash α) : Action α :=
  match r with
  | .ok a => return a
  | .error c => throw c

/-- Writes a message to the standard error; the engine does not survive it if that fails. -/
def tell (text : String) : Action Unit := do
  let host ← orCrash (((← get).host.print 2 text).mapError .standardError)
  change fun s ↦ { s with host }

def setLevel (level : Int) : Action Unit := change fun s ↦ { s with level }

/-- Reports an error of a line. -/
def report (e : EngineError) : Action Unit := tell e.report

end Action

end ShellEngine
