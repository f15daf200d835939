import ShellEngine.Engine.Harvest
import ShellEngine.Engine.Wait

/-!
# Foreground stages

The session as the surroundings of a wait: the clock goes on to whatever comes first, the raising of
the cancellation signal, the end of the child, new input, or the end of a delay. A child that is
killed before its end is run once more from its start, up to that moment.

The interrupt key is routed to the cancellation signal while the wait lasts. The routing from before
comes back when the wait ends, but not when the child is lost.
-/

namespace ShellEngine

open Machine

/-- The process that a notice is about. -/
def Notice.subject : Notice → Int
  | .stopped pid _ | .forked pid _ | .exiting pid | .passing pid | .exited pid _ | .killed pid _
  | .lost pid => pid

namespace Session

def killSignal : Nat := 9
def terminateSignal : Nat := 15

/-- How a child ended, if it has. -/
def ended? (s : Session) (child : Nat) : Option (Except IoError StageStatus) := do
  let c ← s.child? child
  if c.hasEnded s.now then
    match c.status? s.now with
    | some status => some (.ok status)
    | none => some (.error .childLost)
  else none

/-- When a child ends, as far as that is settled: its fate, or the time at which its harvester will
notice the end. -/
def endTime? (s : Session) (child : Nat) : Option Nat :=
  match (s.child? child).bind Child.fate with
  | some fate => some fate.time
  | none =>
    (s.harvesters.toList.find? (·.child == child)).bind fun h ↦
      ((h.notices.filter fun n ↦ n.2.subject == h.tracer.root).map (·.1)).max?

/-- Waits for the first of the things that a wait waits for. Without a delay nothing but the
cancellation signal and the end of the child are left once no input came. -/
def await (child : Nat) (listens : Bool) (delay : Option Nat) (s : Session) : Wake × Session :=
  let wake? (s : Session) : Option Wake :=
    if s.cancellation.signaled then some .cancelled else (s.ended? child).map .ended
  match wake? s with
  | some wake => (wake, s)
  | none =>
    let (came, console) := if listens then s.console.awaitInput else (false, s.console)
    let s := { s with console }
    if came then (.input, s)
    else
      let deadline := delay.map fun d ↦ s.now + d * 1000
      match (s.cancelAt.toList ++ (s.endTime? child).toList ++ deadline.toList).min? with
      | none => (.ended (.error .childLost), s)
      | some time =>
        let s := s.passUntil time
        ((wake? s).getD (if delay.isSome then .elapsed else .ended (.error .childLost)), s)

/-- Takes a look at the console. -/
def look (s : Session) : (List InputEvent × Bool) × Session :=
  let (events, console) := s.console.peek
  ((events, console.hasPending), { s with console })

def call (s : Session) (what : ConsoleCall) : Session :=
  { s with console := s.console.call what }

/-- The surroundings of a wait for a child. -/
def surroundings (child record : Nat) : Surroundings Session where
  await := await child
  isCancelled s := s.cancellation.signaled
  isSynchronous s := s.synchronous
  look := look
  detach s :=
    ((s.modifyRecord record fun r ↦ { r with capture := false }).call .discard).call .clear
  indicate s :=
    let r := s.record record
    let (shown, r) := r.displayCompletion
    if (s.record record).suppressCompletion then s
    else
      let s := s.modifyRecord record fun _ ↦ r
      if shown then s else s.call .show

/-- How many looks a wait may take: one for each list of events in a script; on a terminal, one for
each moment until the child ends. -/
def maxLooks (s : Session) (child : Nat) : Nat :=
  match s.console with
  | .absent => 0
  | .scripted frames _ => frames.length + 2
  | .terminal _ => (((s.endTime? child).getD s.now) - s.now) / 1000 + 2

/-- A child is killed now by a signal. With `reruns`, it is run again up to this moment. -/
def kill (s : Session) (child : Nat) (signal : Nat) (reruns : Bool) : Session :=
  match s.child? child with
  | none => s
  | some c =>
    if c.hasEnded s.now then s
    else
      let (ending, s) :=
        match reruns, c.origin with
        | true, some (process, world) =>
          let (ending, host) := { s.host with world }.run process (some s.now)
          let world := { host.world with clock := s.now }
          (some ending, { s with host := { host with world } })
        | _, _ => (none, s)
      if c.traced then
        let harvesters := s.harvesters.map fun h ↦
          if h.child = child then
            let root := h.tracer.root
            let before :=
              if signal = killSignal then [] else [(s.now, Notice.exiting root)]
            { h with
              block := (ending.map Ending.block).getD h.block
              directory := (ending.map fun e ↦ s.host.linkTo e.directory).getD h.directory
              notices := before ++ (s.now, Notice.killed root signal) ::
                h.notices.filter fun n ↦ n.2.subject != root }
          else h
        { s with harvesters }.catchUp
      else
        s.modifyChild child fun c ↦
          { c with fate := some { time := s.now, status := some (.process (.signaled signal)) } }

/-- Kills everything that a harvester still traces. -/
def killTraced (s : Session) (harvester record : Nat) : Session :=
  let kills := (s.record record).debugged.map fun pid ↦ (s.now, Notice.killed pid killSignal)
  { s with harvesters := s.harvesters.modify harvester fun h ↦ { h with notices := kills } }.catchUp

/-- Waits until everything was drained into some buffers. -/
def finalize (s : Session) (buffers : List Nat) : Session :=
  let pumps := s.pumps.filter fun p ↦ buffers.contains p.buffer
  let time := (pumps.map fun p ↦ s.closingTime p.descriptor).foldl max s.now
  (s.passUntil time).runPumps

/-- Waits for a stage in the foreground. -/
def waitForStage (s : Session) (stage : RunningStage) : Except IoError WaitOutcome × Session :=
  match stage.child with
  | none => (.ok (.completed (.builtin exitSuccess)), s)
  | some child =>
    let (before, cancellation) := s.cancellation.route true
    let s := { s with cancellation }
    let watch : GestureWatch := { settings := s.settings.monitor }
    match (surroundings child stage.record).wait (s.maxLooks child) watch none s with
    | (.error e, s) => (.error e, s)
    | (.ok outcome, s) =>
      let s :=
        match outcome with
        | .cancelled =>
          let signal := if stage.stage.graceful then terminateSignal else killSignal
          s.kill child signal true
        | _ => s
      let s := { s with cancellation := s.cancellation.restore before }
      let s :=
        match outcome with
        | .completed _ =>
          let s := if (s.record stage.record).completionDisplayed then s.call .clear else s
          s.finalize (stage.stdoutBuffer.toList ++ stage.stderrBuffer.toList)
        | _ => s
      (.ok outcome, s)

end Session

end ShellEngine
