import ShellEngine.Process.Record
import ShellEngine.Process.Status

/-!
# Tracing

A harvester traces the root process of a stage and everything that is forked below it. Each time it
waits for a tracee it learns something, a `Notice`, and has to let the tracee go on if it was
stopped. `handle` is that step: the new state of the tracer, the new state of what it shares with
the stage, and what is to be done.

A stop is passed on to the tracee as the signal it was, except for the two stops that tracing itself
brings about: the trap after the root was started, and the first stop of a forked process.
-/

namespace ShellEngine

/-- What waiting for a tracee tells. -/
inductive Notice
  | stopped (pid signal : Int)
  /-- A tracee forked; `none` if the new process cannot be identified. -/
  | forked (pid : Int) (child : Option Int)
  /-- A tracee is about to exit, and can still be read. -/
  | exiting (pid : Int)
  /-- An event or a stop that calls for nothing. -/
  | passing (pid : Int)
  | exited (pid : Int) (code : Int)
  | killed (pid signal : Int)
  /-- The tracee cannot be waited for any more. -/
  | lost (pid : Int)
  deriving DecidableEq, Repr

/-- What a tracer does about a notice. -/
inductive TraceAction
  /-- Lets a tracee go on, with a signal or without. -/
  | resume (pid : Int) (signal : Option Int)
  /-- Reads the parameters of the root and makes them those of the engine. -/
  | takeOver
  /-- Tells the exit code of the root. -/
  | publish (code : Int)
  deriving DecidableEq, Repr

/-- The state of a tracer. -/
structure Tracer where
  root : Int
  tracees : List Int
  /-- Forked tracees whose first stop has not been seen. -/
  fresh : List Int := []
  rootStarted : Bool := false
  /-- Whether parameters were taken over. -/
  applied : Bool := false
  deriving DecidableEq, Repr

namespace Tracer

def trapSignal : Int := 5
def stopSignal : Int := 19

/-- A tracer of a root that was just started. -/
def start (root : Int) : Tracer := { root, tracees := [root] }

/-- Forgets a tracee that is gone; for the root, tells its code. -/
def forget (t : Tracer) (r : StageRecord) (pid : Int) (code : Option Int) :
    Tracer × StageRecord × List TraceAction :=
  let t := { t with tracees := t.tracees.filter (· != pid), fresh := t.fresh.filter (· != pid) }
  if pid = t.root then (t, r, [.publish (code.getD exitFailure)])
  else (t, { r with debugged := r.debugged.filter (· != pid) }, [])

/-- Takes note of what waiting for a tracee told. -/
def handle (t : Tracer) (r : StageRecord) : Notice → Tracer × StageRecord × List TraceAction
  | .stopped pid signal =>
    if signal = trapSignal && pid = t.root && !t.rootStarted then
      ({ t with rootStarted := true }, r, [.resume pid none])
    else if signal = stopSignal && t.fresh.contains pid then
      ({ t with fresh := t.fresh.filter (· != pid) }, r, [.resume pid none])
    else (t, r, [.resume pid (some signal)])
  | .forked pid (some child) =>
    ({ t with tracees := t.tracees ++ [child], fresh := child :: t.fresh.filter (· != child) },
      r.addChild child, [.resume pid none])
  | .forked pid none => (t, r, [.resume pid none])
  | .exiting pid =>
    (t, r, if pid = t.root && r.capture then [.takeOver, .resume pid none]
      else [.resume pid none])
  | .passing pid => (t, r, [.resume pid none])
  | .exited pid code => t.forget r pid (some code)
  | .killed pid signal => t.forget r pid (some (signaledCode signal))
  | .lost pid => t.forget r pid none

/-- Whether nothing is left to trace. -/
def isDone (t : Tracer) : Bool := t.tracees.isEmpty

end Tracer

end ShellEngine
