import ShellEngine.Engine.Parameters
import ShellEngine.Engine.Session

/-!
# Harvesting

A harvester follows the root process of a stage. When the root is about to exit, its parameters
become those of the engine, unless the stage was sent to the background before. When everything is
gone that the root left behind, changes in the aliases that scripts share are taken over as well.

A fault in a harvester ends that harvester alone. The child that it traced is then lost: nobody can
tell how it ended.

The clock stands still while the engine is at work, and what is due is looked at only when it moves
(`Session.passUntil`). So the cancellation signal may rise during a wait, but not while a builtin
runs.
-/

namespace ShellEngine

open Machine

namespace Session

/-- The harvester learns that its child is lost, and ends. -/
def loseHarvester (s : Session) (key : Nat) : Session :=
  match s.harvesters[key]? with
  | none => s
  | some h =>
    let s := s.modifyChild h.child fun c ↦ { c with fate := some { time := s.now, status := none } }
    { s with harvesters := s.harvesters.set! key { h with notices := [], ended := true } }

/-- Does what a tracer asks for; a fault is one of the harvester. -/
def carryOut (s : Session) (key : Nat) (h : Harvester) : TraceAction → Option Crash × Session
  | .resume .. => (none, s)
  | .publish code =>
    (none, s.modifyChild h.child fun c ↦
      { c with fate := some { time := s.now, status := some (.traced code) } })
  | .takeOver =>
    match Parameters.read s.settings.harvest h.block h.image h.directory with
    | .error e => (some e, s)
    | .ok parameters =>
      let (crash, host) := parameters.apply s.host
      let harvesters := s.harvesters.modify key fun h ↦
        { h with tracer := { h.tracer with applied := !parameters.isEmpty } }
      (crash, { s with host, harvesters })

/-- Does all that a tracer asks for, up to the first fault. -/
def carryOutAll (s : Session) (key : Nat) (h : Harvester) :
    List TraceAction → Option Crash × Session
  | [] => (none, s)
  | a :: rest =>
    match s.carryOut key h a with
    | (none, s) => s.carryOutAll key h rest
    | (some e, s) => (some e, s)

/-- Takes over the changes in the aliases that scripts share, if parameters were taken over. -/
def mergeSharedAliases (s : Session) (h : Harvester) : Session :=
  if h.tracer.applied then
    let (after, s) := s.lookAtSharedAliases
    match h.aliasesBefore, after with
    | some before, some after => { s with aliases := s.aliases.merge before after }
    | _, _ => s
  else s

/-- The harvester of a stage of which nothing is left ends. -/
def finishHarvester (s : Session) (key : Nat) : Session :=
  match s.harvesters[key]? with
  | none => s
  | some h =>
    if h.tracer.isDone && !h.ended then
      let s := s.mergeSharedAliases h
      let s := s.modifyRecord h.record fun r ↦ { r with tracingEnded := true }
      { s with harvesters := s.harvesters.set! key { h with ended := true } }
    else s

/-- A harvester takes note of something. -/
def notice (s : Session) (key : Nat) (n : Notice) : Session :=
  match s.harvesters[key]? with
  | none => s
  | some h =>
    if h.ended then s
    else
      let (tracer, record, actions) := h.tracer.handle (s.record h.record) n
      let s := s.modifyRecord h.record fun _ ↦ record
      let s := { s with harvesters := s.harvesters.set! key { h with tracer } }
      match s.carryOutAll key h actions with
      | (none, s) => s.finishHarvester key
      | (some _, s) => s.loseHarvester key

/-- A harvester takes note of all that has happened. -/
def runHarvester (s : Session) (key : Nat) : Session :=
  match s.harvesters[key]? with
  | none => s
  | some h =>
    let (due, later) := h.notices.partition fun n ↦ n.1 ≤ s.now
    let s := { s with harvesters := s.harvesters.set! key { h with notices := later } }
    due.foldl (fun s n ↦ s.notice key n.2) s

/-- Joins a harvester that has ended or is about to. -/
def join (s : Session) (key : Nat) : Session :=
  { s with harvesters := s.harvesters.modify key fun h ↦ { h with joined := true } }

/-- Takes note of all that has happened by now. -/
def catchUp (s : Session) : Session :=
  let s :=
    match s.cancelAt with
    | some time =>
      if time ≤ s.now then { s with cancellation := s.cancellation.set, cancelAt := none } else s
    | none => s
  (List.range s.harvesters.size).foldl runHarvester s

/-- Lets time pass. -/
def passUntil (s : Session) (time : Nat) : Session :=
  { s with host := { s.host with
      world := { s.host.world with clock := max s.now time } } }.catchUp

/-- When a job is done, as far as that is settled. -/
def doneTime (s : Session) (j : Job) : Nat :=
  let ends := ((j.child.bind s.child?).bind Child.fate).map Fate.time
  let notices := (j.harvester.bind (s.harvesters[·]?)).map fun h ↦ h.notices.map (·.1)
  (ends.toList ++ notices.getD []).foldl max s.now

/-- Lets time pass until every job that ends has ended. -/
def settleJobs (s : Session) : Session :=
  s.passUntil ((s.jobs.jobs.map s.doneTime).foldl max s.now)

/-- What a tracer of a root will notice, with the times. The processes that the root leaves behind
have the process ids after that of the root. A root that is killed outright is gone before it can
be read. -/
def expectedNotices (root : Int) (start finish : Nat) (how : ProcessEnd) (orphans : List Nat) :
    List (Nat × Notice) :=
  let pid (i : Nat) : Int := root + 1 + i
  let forks := (List.range orphans.length).flatMap fun i ↦
    [(start, Notice.forked root (some (pid i))), (start, .stopped (pid i) Tracer.stopSignal)]
  let last :=
    match how with
    | .exited code => [(finish, Notice.exiting root), (finish, .exited root code)]
    | .signaled signal =>
      (if signal = World.killSignal then [] else [(finish, Notice.exiting root)]) ++
        [(finish, .killed root signal)]
    | .stopped => [(finish, .lost root)]
  let ends := orphans.zipIdx.map fun (time, i) ↦ (time, Notice.exited (pid i) 0)
  (start, Notice.stopped root Tracer.trapSignal) :: forks ++ last ++ ends

/-- The file that a program of this name is started from. -/
def imagePath (h : Host) (program : String) : Octets :=
  if program.toList.contains '/' then Octets.ofString program
  else ((h.which program).map Octets.ofString).getD (Octets.ofString program)

/-- Starts a command as the root of a stage that is harvested: the child and the harvester. -/
def startHarvested (s : Session) (program : String) (args : List String) (record : Nat) :
    Except EngineError (Nat × Nat) × Session :=
  let (before, s) := s.lookAtSharedAliases
  match s.host.prepare program args true with
  | .error e => (.error (.launch program e), s)
  | .ok process =>
    let (pid, s) := s.newPid
    let start := s.now
    let origin := (process, s.host.world)
    -- the root must not end before it is cancelled
    let (ending, host) := s.host.run process (s.backgroundLimit.map (· + 1000))
    let finish := host.world.clock
    let world := { host.world with
      clock := start, nextPid := host.world.nextPid + ending.orphans.length }
    let s := { s with host := { host with world } }
    let (child, s) := s.addChild { pid, traced := true, origin := some origin }
    let harvester : Harvester :=
      { record, child
        tracer := .start pid
        notices := expectedNotices pid start finish ending.how ending.orphans
        block := ending.block
        directory := host.linkTo ending.directory
        image := imagePath host program
        aliasesBefore := before }
    let key := s.harvesters.size
    let s := { s with harvesters := s.harvesters.push harvester }
    (.ok (child, key), (s.modifyRecord record fun r ↦ r.setPid (some pid)).catchUp)

end Session

end ShellEngine
