import ShellEngine.Machine.Script.Settings

/-!
# Commands for jobs and signals

To set traps, to send signals, and to wait for what was started in the background. Jobs have no
process groups of their own here, so none of them can be stopped, taken up again, or reached by its
number.
-/

namespace ShellEngine.Machine.Script

namespace Builtin

open Act

/-! ## Traps -/

def listTraps : Act Unit := do
  let traps := (← get).traps.mergeSort fun a b ↦ decide (a.1 ≤ b.1)
  for (signal, action) in traps do
    print ("trap -- ".toList ++ quotedValue action ++ ' ' :: (signalNames.getD signal "").toList ++
      ['\n'])

/-- Sets the trap of signals, or takes it away; the status is one behind a name of none. -/
def setTraps (action : Option Octets) : List Octets → Act Nat
  | [] => return 0
  | name :: rest => do
    match signal? 0 name with
    | none =>
      put 2 ("trap: ".toList ++ name ++ ": bad trap\n".toList)
      return 1
    | some signal =>
      modify fun s ↦
        let others := s.traps.filter (·.1 != signal)
        { s with traps :=
            match action with
            | some action => (signal, action) :: others
            | none => others }
      if signal != 0 then setSignal signal
      setTraps action rest

def trap : Builtin := fun _ args ↦ do
  let (_, args) ← letters "" args
  match args with
  | [] =>
    listTraps
    return 0
  | [name] => setTraps none [name]
  | action :: rest =>
    if (signalNumber? action).isSome then setTraps none args
    else setTraps (if action = ['-'] then none else some action) rest

/-! ## Sending signals -/

def killUsage {α : Type} : Act α :=
  fail ("Usage: kill [-s sigspec | -signum | -sigspec] [pid | job]... or\n" ++
    "kill -l [exitstatus]").toList

/-- The job that a text names; none names the current one. -/
def jobOf (name : Option Octets) : Act Job := do
  let jobs := (← get).jobs
  let missing {α : Type} (message : String) : Act α := fail message.toList
  match name.getD "%+".toList with
  | ['%'] | ['%', '+'] | ['%', '%'] =>
    match jobs with
    | j :: _ => return j
    | [] => missing "No current job"
  | ['%', '-'] =>
    match jobs with
    | _ :: j :: _ => return j
    | _ => missing "No previous job"
  | os =>
    let number := if os.head? = some '%' then readDecimal? (os.drop 1) else none
    match jobs.find? fun j ↦ some j.number = number with
    | some j => return j
    | none => fail ("No such job: ".toList ++ os)

/-- Sends a signal; false if nobody is there to get it. -/
def sendTo (pid signal : Nat) : Act Bool := do
  let isThere ← doing <| Doing.look fun w ↦
    w.tasks.any (·.1 == pid) || pid = 1 || pid = w.current.parent
  if isThere && signal != 0 then
    doing do
      Doing.alter fun w ↦ w.send pid signal
      Doing.spend 1
  return isThere

/-- Sends a signal to processes, and says which are not there. -/
def sendAll (signal : Nat) : List Octets → Act Nat
  | [] => return 0
  | name :: rest => do
    let isThere ←
      match name with
      | '%' :: _ => do
        let _ ← jobOf (some name)
        pure false
      | '-' :: group => do
        let _ ← number group
        pure false
      | _ => do sendTo (← number name) signal
    if !isThere then warn (Errno.text ⟨3⟩ ++ "\n").toList
    let status ← sendAll signal rest
    return if isThere then status else 1

def listSignals : List Octets → Act Nat
  | [] => do
    for name in "0" :: signalNames.drop 1 do
      print (name.toList ++ ['\n'])
    return 0
  | os :: _ => do
    let n ← number os
    let n := if 128 < n then n - 128 else n
    match signalNames[n]? with
    | some name =>
      if n != 0 then
        print (name.toList ++ ['\n'])
        return 0
    | none => pure ()
    fail ("invalid signal number or exit status: ".toList ++ os)

def kill : Builtin := fun _ args ↦ do
  let send (signal : Nat) (targets : List Octets) : Act Nat :=
    if targets.isEmpty then killUsage else sendAll signal targets
  match args with
  | [] => killUsage
  | ('-' :: name) :: rest =>
    match signal? 1 name with
    | some signal => send signal rest
    | none =>
      let (found, targets) ← letters "ls:" args
      let isList := found.any (·.1 == 'l')
      let rec wanted : List (Char × Octets) → Option Nat → Act (Option Nat)
        | [], signal => return signal
        | (c, name) :: rest, signal => do
          if c != 's' then wanted rest signal
          else
            match signal? 1 name with
            | some signal => wanted rest (some signal)
            | none => fail ("invalid signal number or name: ".toList ++ name)
      let signal ← wanted found none
      if isList then
        if signal.isSome && !targets.isEmpty then killUsage
        listSignals targets
      else send (signal.getD World.terminateSignal) targets
  | targets => send World.terminateSignal targets

/-! ## Waiting -/

/-- The status of a command that a signal with a trap cut short. -/
def calledStatus : Act Nat := return 128 + (← calls).getLast?.getD 0

/-- Waits until no job runs any more. -/
def waitForAll : Nat → Act Nat
  | 0 => return 0
  | fuel + 1 => do
    let _ ← collect
    if (← get).jobs.all Job.isOver then
      modify fun s ↦ { s with jobs := s.jobs.map fun j ↦ { j with isWaitedFor := true } }
      return 0
    if ← awaitMember true then waitForAll fuel else calledStatus

/-- Waits for jobs and for processes in the background; the status is that of the last one that is
known. -/
def waitForEach (status : Nat) : List Octets → Act Nat
  | [] => return status
  | name :: rest => do
    let job? ←
      if name.head? = some '%' then do
        pure (some (← jobOf (some name)))
      else do
        let pid ← number name
        pure ((← get).jobs.find? fun j ↦ (j.members.getLast?.map Member.pid) = some pid)
    match job? with
    | none => waitForEach status rest
    | some j =>
      if !(← awaitJob j.number true) then return ← calledStatus
      changeJob j.number fun j ↦ { j with isWaitedFor := true }
      let now ← Act.job? j.number
      waitForEach ((now.map Job.status).getD 0) rest

def wait : Builtin := fun _ args ↦ do
  let (_, names) ← letters "" args
  if names.isEmpty then waitForAll Doing.maxSteps else waitForEach 127 names

/-! ## The list of jobs -/

/-- How a job stands, in a word or two. -/
def stateOf (j : Job) : Octets :=
  if !j.isOver then "Running".toList
  else
    match j.members.getLast?.bind Member.ending with
    | some (.signaled signal) =>
      if signal = World.interruptSignal then "Interrupt".toList
      else if signal = World.pipeSignal then "Broken pipe".toList
      else signalText signal
    | some .stopped => "Stopped".toList
    | some (.exited 0) | none => "Done".toList
    | some (.exited code) => "Done(".toList ++ Octets.ofNat code ++ [')']

/-- The column in which the commands of jobs begin. -/
def commandColumn : Nat := 33

/-- Prints a job; one that is over is forgotten with that. -/
def showJob (mode : Option Char) (j : Job) : Act Unit := do
  let pids := j.members.map Member.pid
  match mode with
  | some 'p' => print (Octets.ofNat (pids.headD 0) ++ ['\n'])
  | _ =>
    let place := (← get).jobs.findIdx fun k ↦ k.number = j.number
    let sign := if place = 0 then '+' else if place = 1 then '-' else ' '
    let first := '[' :: Octets.ofNat j.number ++ [']', ' ', sign, ' ']
    let showsPids := mode = some 'l'
    let fill (line : Octets) (column : Nat) : Octets :=
      line ++ List.replicate (max 1 (commandColumn - column)) ' '
    let pid := if showsPids then Octets.ofNat (pids.headD 0) ++ [' '] else []
    let line := first ++ pid ++ stateOf j
    print (fill line line.length)
    if showsPids then
      for pid in pids.drop 1 do
        let line := " |\n".toList ++ List.replicate first.length ' ' ++ Octets.ofNat pid ++ [' ']
        print (fill line (line.length - 3))
    else print ((pids.drop 1).flatMap fun _ ↦ " | ".toList)
    print ['\n']
    if j.isOver then dropJob j.number

def jobs : Builtin := fun _ args ↦ do
  let (found, names) ← letters "lp" args
  let mode :=
    if found.any (·.1 == 'p') then some 'p' else if found.isEmpty then none else some 'l'
  let _ ← collect
  if names.isEmpty then
    for j in (← get).jobs do
      showJob mode j
  else
    for name in names do
      showJob mode (← jobOf (some name))
  return 0

/-- The jobs of a script cannot be taken to the foreground or the background. -/
def resume : Builtin := fun _ args ↦ do
  let (_, names) ← letters "" args
  let _ ← jobOf names.head?
  fail ("job ".toList ++ (names.head?.getD "(null)".toList) ++
    " not created under job control".toList)

end Builtin

end ShellEngine.Machine.Script
