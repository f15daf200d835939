import ShellEngine.Cancellation
import ShellEngine.Engine.RunningStage
import ShellEngine.Machine.Host

/-!
# Redirection

The streams of a stage are the standard streams of the engine itself for as long as it takes to
start the stage: a program inherits them, a builtin writes to them. `apply` puts them in place,
`revert` puts back what was there.

A `Snapshot` records what has to be put back. Whatever goes wrong on the way, the snapshot is
reverted, so that a redirection that fails leaves the standard streams and the routing of the
interrupt key as they were. The inputs of pipes are handed on: the one for the next stage is taken
out of the snapshot, those for buffers stay with the stage.
-/

namespace ShellEngine

open Machine

/-- What a redirection put in place, and what was there before. -/
structure Snapshot where
  /-- Copies of the standard streams; one that was closed has none. -/
  saved : List (Nat × Option Nat)
  /-- The standard streams that were replaced. -/
  overridden : List Nat := []
  /-- Whether one output stream was made a copy of the other. -/
  aliased : Bool := false
  /-- The descriptors that were opened for this. -/
  created : List Nat := []
  /-- The input of the pipe to the next stage. -/
  nextInput : Option Nat := none
  /-- The routing from before, once it was changed. -/
  routing : Option Bool := none

namespace Snapshot

/-- Takes copies of the standard streams. -/
def capture (h : Host) : Snapshot × Host :=
  let (in_, h) := h.duplicate 0
  let (out, h) := h.duplicate 1
  let (err, h) := h.duplicate 2
  ({ saved := [(0, in_), (1, out), (2, err)] }, h)

def isOverridden (s : Snapshot) (fd : Nat) : Bool := s.overridden.contains fd

/-- Takes the input of the pipe to the next stage out of the snapshot. -/
def takeNextInput (s : Snapshot) : Option Nat × Snapshot :=
  (s.nextInput, { s with nextInput := none })

/-- Puts back a standard stream. -/
def restoreStream (s : Snapshot) (h : Host) (fd : Nat) : Host :=
  if s.isOverridden fd then
    match (s.saved.lookup fd).getD none with
    | some copy => { h with descriptors := h.descriptors.replace copy fd }
    | none => { h with descriptors := h.descriptors.close fd }
  else h

/-- Puts back the standard streams, and closes all that was opened for the redirection. -/
def revertStreams (s : Snapshot) (h : Host) : Host :=
  let h := [0, 1, 2].foldl s.restoreStream h
  let opened := s.created ++ s.nextInput.toList ++ s.saved.filterMap (·.2)
  { h with descriptors := h.descriptors.closeAll opened }

/-- Puts back the routing of the interrupt key. -/
def revertRouting (s : Snapshot) (c : Cancellation) : Cancellation :=
  match s.routing with
  | some routed => c.restore routed
  | none => c

end Snapshot

/-- A redirection in the making. -/
structure Redirecting where
  host : Host
  stage : RunningStage
  snapshot : Snapshot
  /-- The key of the next new buffer. -/
  nextBuffer : Nat

/-- A step of a redirection. -/
abbrev Redirect := ExceptT EngineError (StateM Redirecting)

namespace Redirect

/-- Does something with the host; an error is one in redirecting to `target`. -/
def attempt {α : Type} (target : String) (f : Host → Except Errno α × Host) : Redirect α := do
  let r ← get
  let (result, host) := f r.host
  set { r with host }
  match result with
  | .ok a => return a
  | .error e => throw (.redirect target (.os e))

/-- The path of the null device. -/
def nullDevice : String := "/dev/null"

/-- Opens the file at a path. -/
def openPath (path : String) (mode : OpenMode) : Redirect Nat := do
  match Host.pathBytes path with
  | .error e => throw (.redirect path e)
  | .ok os => attempt path fun h ↦ h.openWith fun w s ↦ w.openPath s os mode

def openInput (path : String) : Redirect Nat := openPath path .input

def openOutput (path : String) (appends : Bool) : Redirect Nat := openPath path (.output appends)

def close (fds : List Nat) : Redirect Unit :=
  modify fun r ↦
    { r with host := { r.host with descriptors := r.host.descriptors.closeAll fds } }

/-- Makes a standard stream a copy of a descriptor; if that fails, the descriptor is closed, and
with it those in `others`. -/
def install (fd stream : Nat) (target : String) (others : List Nat) : Redirect Unit := do
  try
    attempt target fun h ↦ h.duplicateTo fd stream
  catch e =>
    close (fd :: others)
    throw e
  modify fun r ↦
    { r with snapshot := { r.snapshot with
        overridden := r.snapshot.overridden ++ [stream]
        created := r.snapshot.created ++ [fd] } }

/-- Makes one output stream a copy of the other. -/
def copyStream (source target : Nat) : Redirect Unit := do
  attempt ("&" ++ toString source) fun h ↦ h.duplicateTo source target
  modify fun r ↦
    { r with snapshot := { r.snapshot with
        overridden := r.snapshot.overridden ++ [target], aliased := true } }

/-- Puts the input in place. The output of a stage that never ran is empty. -/
def placeInput : Redirect Unit := do
  match (← get).stage.stage.stdin with
  | .inherit => return
  | .file path => install (← openInput path) 0 path []
  | .null => install (← openInput nullDevice) 0 nullDevice []
  | .pipe =>
    match (← get).stage.pipedInput with
    | some reader =>
      modify fun r ↦ { r with stage := { r.stage with pipedInput := none } }
      install reader 0 "pipe" []
    | none => install (← openInput nullDevice) 0 nullDevice []

/-- The buffer of an output stream, which is made if the stage has none. -/
def bufferOf (stream : Nat) : Redirect Nat := do
  let r ← get
  let old := if stream = 1 then r.stage.stdoutBuffer else r.stage.stderrBuffer
  match old with
  | some key => return key
  | none =>
    let key := r.nextBuffer
    let stage :=
      if stream = 1 then { r.stage with stdoutBuffer := some key }
      else { r.stage with stderrBuffer := some key }
    set { r with stage, nextBuffer := key + 1 }
    return key

/-- Puts an output in place. Only standard output can be piped to the next stage. -/
def placeOutput (target : Output) (stream : Nat) : Redirect Unit := do
  match target with
  | .inherit | .same => return
  | .overwrite path => install (← openOutput path false) stream path []
  | .append path => install (← openOutput path true) stream path []
  | .null => install (← openOutput nullDevice true) stream nullDevice []
  | .pipe =>
    if stream = 1 then
      let (reader, writer) ← attempt "pipe" Host.pipe
      install writer stream "pipe" [reader]
      modify fun r ↦ { r with snapshot := { r.snapshot with nextInput := some reader } }
  | .buffer =>
    let (reader, writer) ← attempt "pipe" Host.pipe
    install writer stream "buffer" [reader]
    let key ← bufferOf stream
    modify fun r ↦
      { r with stage := { r.stage with
          pendingDrains := r.stage.pendingDrains ++ [(key, reader)] } }

/-- Puts all streams in place. Two outputs that are each the same as the other are left alone. -/
def placeStreams : Redirect Unit := do
  placeInput
  let stage := (← get).stage.stage
  match stage.stdout, stage.stderr with
  | .same, .same => return
  | .same, stderr =>
    placeOutput stderr 2
    copyStream 2 1
  | stdout, .same =>
    placeOutput stdout 1
    copyStream 1 2
  | stdout, stderr =>
    placeOutput stdout 1
    placeOutput stderr 2

/-- What comes of a redirection. -/
structure Outcome where
  result : Except EngineError Snapshot
  stage : RunningStage
  host : Host
  cancellation : Cancellation
  nextBuffer : Nat

/-- Puts the streams of a stage in place, and routes the interrupt key or not. -/
def apply (h : Host) (c : Cancellation) (stage : RunningStage) (nextBuffer : Nat)
    (routes : Bool) : Outcome :=
  let (snapshot, host) := Snapshot.capture h
  let (result, r) := (placeStreams.run { host, stage, snapshot, nextBuffer }).run
  match result with
  | .ok () =>
    let (before, c) := c.route routes
    { result := .ok { r.snapshot with routing := some before }
      stage := r.stage, host := r.host, cancellation := c, nextBuffer := r.nextBuffer }
  | .error e =>
    { result := .error e
      stage := r.stage, host := r.snapshot.revertStreams r.host
      cancellation := r.snapshot.revertRouting c, nextBuffer := r.nextBuffer }

end Redirect

end ShellEngine
