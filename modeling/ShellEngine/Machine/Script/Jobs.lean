import ShellEngine.Machine.Image
import ShellEngine.Machine.Script.Redirection

/-!
# Jobs and signals

What the interpreter starts, it starts as the members of a job. It waits for those of its own
commands, and keeps in mind how the others ended until somebody asks.

A signal with a trap is noticed between two commands. A part of a script that runs on its own has
no traps, but goes on ignoring what was ignored.
-/

namespace ShellEngine.Machine.Script

/-- The names of the signals, by number. -/
def signalNames : List String :=
  ["EXIT", "HUP", "INT", "QUIT", "ILL", "TRAP", "ABRT", "BUS", "FPE", "KILL", "USR1", "SEGV",
   "USR2", "PIPE", "ALRM", "TERM", "16", "CHLD", "CONT", "STOP", "TSTP", "TTIN", "TTOU", "URG",
   "XCPU", "XFSZ", "VTALRM", "PROF", "WINCH", "IO", "PWR", "SYS", "32", "33", "RTMIN"] ++
  ((List.range 15).map fun n ↦ "RTMIN+" ++ toString (n + 1)) ++
  ((List.range 14).map fun n ↦ "RTMAX-" ++ toString (14 - n)) ++ ["RTMAX"]

/-- What is said of a process that a signal ended. -/
def signalTexts : List (Nat × String) :=
  [(1, "Hangup"), (3, "Quit"), (4, "Illegal instruction"), (5, "Trace/breakpoint trap"),
   (6, "Aborted"), (7, "Bus error"), (8, "Floating point exception"), (9, "Killed"),
   (10, "User defined signal 1"), (11, "Segmentation fault"), (12, "User defined signal 2"),
   (14, "Alarm clock"), (15, "Terminated"), (16, "Stack fault"), (24, "CPU time limit exceeded"),
   (25, "File size limit exceeded"), (26, "Virtual timer expired"),
   (27, "Profiling timer expired"), (29, "I/O possible"), (30, "Power failure"),
   (31, "Bad system call")]

def signalText (signal : Nat) : Octets :=
  match signalTexts.lookup signal with
  | some text => text.toList
  | none =>
    if 34 ≤ signal then "Real-time signal ".toList ++ Octets.ofNat (signal - 34)
    else "Unknown signal ".toList ++ Octets.ofNat signal

/-- The signal that a number names. -/
def signalNumber? (os : Octets) : Option Nat :=
  (readDecimal? os).filter (· < signalNames.length)

/-- The signal that a number or a name names, no less than `least`. -/
def signal? (least : Nat) (os : Octets) : Option Nat :=
  match signalNumber? os with
  | some n => some n
  | none =>
    let wanted := os.map Char.toUpper
    ((List.range signalNames.length).drop least).find? fun n ↦
      (signalNames.getD n "").toList == wanted

namespace Job

def isOver (j : Job) : Bool := j.members.all fun m ↦ m.ending.isSome

/-- The status of a job that is over, which is that of its last member. -/
def status (j : Job) : Nat :=
  match j.members.getLast?.bind Member.ending with
  | some (.exited code) => code
  | some (.signaled signal) => 128 + signal
  | _ => 0

end Job

namespace Act

/-! ## The table of jobs -/

/-- Takes a number for a new job. Jobs that were waited for make room. -/
def newJob (members : List Member) : Act Nat := do
  let s ← get
  let isTaken (n : Nat) : Bool := s.jobs.any fun j ↦
    j.number = n && !(j.isOver && j.isWaitedFor)
  let number := (((List.range (s.jobs.length + 1)).map (· + 1)).find? (!isTaken ·)).getD 1
  let job : Job := { number, members }
  -- the latest job comes first
  set { s with jobs := job :: s.jobs.filter (·.number != number) }
  return number

def job? (number : Nat) : Act (Option Job) := return (← get).jobs.find? (·.number = number)

def changeJob (number : Nat) (f : Job → Job) : Act Unit :=
  modify fun s ↦ { s with jobs := s.jobs.map fun j ↦ if j.number = number then f j else j }

def dropJob (number : Nat) : Act Unit :=
  modify fun s ↦ { s with jobs := s.jobs.filter (·.number != number) }

/-- The members of jobs whose end is not known yet. -/
def openMembers (s : Shell) : List Nat :=
  s.jobs.flatMap fun j ↦ (j.members.filter (·.ending.isNone)).map Member.pid

/-- Takes note of the ends of members that are over; gives them with their ends. -/
def collect : Act (List (Nat × ProcessEnd)) := do
  let pids := openMembers (← get)
  let ends ← doing <| Doing.change fun w ↦
    let ends := pids.filterMap fun pid ↦ ((w.task pid).ending).map (pid, ·)
    let tasks := w.tasks.filter fun e ↦ !(ends.any (·.1 == e.1))
    (ends, { w with tasks })
  if !ends.isEmpty then
    modify fun s ↦
      { s with jobs := s.jobs.map fun j ↦
          { j with members := j.members.map fun m ↦
              if m.ending.isSome then m else { m with ending := ends.lookup m.pid } } }
  return ends

/-- How long it takes an interpreter that waits to notice a signal, in microseconds. -/
def noticeTime : Nat := 200

/-- Waits until a member of a job is over; false if a signal with a trap came well before. -/
def awaitMember (listens : Bool) : Act Bool := do
  let pids := openMembers (← get)
  doing do
    let self ← Doing.self
    let isOver (w : World) : Bool := pids.any fun pid ↦ (w.task pid).ending.isSome
    let isCalled (w : World) : Bool := listens && World.isCalled (w.task self)
    Doing.await (fun w ↦ isOver w || isCalled w) none
    if ← Doing.look isOver then return true
    Doing.spend noticeTime
    Doing.look isOver

/-- Says how a process ended that was waited for, if a signal ended it. -/
def tellEnd (how : ProcessEnd) : Act Unit := do
  match how with
  | .signaled signal =>
    if signal != World.interruptSignal && signal != World.pipeSignal then
      put 2 (signalText signal ++ ['\n'])
  | _ => return

/-- Waits until a job is over; false if a signal with a trap came before. -/
def awaitJob (number : Nat) (listens : Bool) : Act Bool := go Doing.maxSteps
where
  go : Nat → Act Bool
    | 0 => return true
    | fuel + 1 => do
      let ends ← collect
      match ← job? number with
      | none => return true
      | some j =>
        for (pid, how) in ends do
          if j.members.any (·.pid == pid) then tellEnd how
        if j.isOver then return true
        if ← awaitMember listens then go fuel else return false

/-- Waits for a job of the interpreter's own, and forgets it. -/
def finishJob (number : Nat) : Act Nat := do
  let _ ← awaitJob number false
  match ← job? number with
  | none => return (← get).status
  | some j =>
    dropJob number
    return j.status

/-! ## Traps -/

/-- Whether the interpreter wants to hear of a signal, or ignores it. -/
def setSignal (signal : Nat) : Act Unit := do
  let s ← get
  if s.deaf.contains signal then return
  doing <| Doing.modifyTask fun t ↦
    let caught := t.caught.filter (· != signal)
    let ignored := t.ignored.filter (· != signal)
    match s.traps.lookup signal with
    | none => { t with caught, ignored }
    | some [] => { t with caught, ignored := signal :: ignored }
    | some _ => { t with caught := signal :: caught, ignored }

/-- Whether there is a trap that does something. -/
def hasTraps : Act Bool := return (← get).traps.any fun t ↦ !t.2.isEmpty

/-- The signals with traps that came, the lowest first. -/
def calls : Act (List Nat) := do
  let pending ← doing <| Doing.look fun w ↦
    let t := w.current
    t.pending.filter t.caught.contains
  return pending.mergeSort fun a b ↦ decide (a ≤ b)

/-- Does what the traps of signals say that came. -/
def attend (eval : Octets → Act Nat) : Act Unit := do
  let came ← calls
  if came.isEmpty then return
  let before := (← get).saved
  let status := before.getD (← get).status
  modify fun s ↦ { s with saved := some status }
  let rec all : List Nat → Act Unit
    | [] => return
    | signal :: rest => do
      if (← get).skip.isNone then
        doing <| Doing.modifyTask fun t ↦ { t with pending := t.pending.filter (· != signal) }
        match (← get).traps.lookup signal with
        | none => pure ()
        | some action =>
          let _ ← eval action
          if (← get).skip != some .return_ then setStatus status
        all rest
  all came
  modify fun s ↦ { s with saved := before }

/-- Forgets the traps that do something. -/
def forgetTraps : Act Unit := do
  let active := (← get).traps.filter fun t ↦ !t.2.isEmpty
  modify fun s ↦ { s with traps := s.traps.filter fun t ↦ t.2.isEmpty }
  for (signal, _) in active do
    if signal != 0 then setSignal signal

/-! ## Parts of a script that run on their own -/

/-- Makes the interpreter one that runs a part of the script on its own. -/
def standAlone : Act Unit := do
  modify fun s ↦
    { s with isPart := true, loops := 0, skip := none, saved := none, jobs := []
             printed := [], isLost := false, replaced := [] }
  forgetTraps

/-- Runs something to the end of the interpreter: whatever cuts it short, the trap for the end is
run. Gives the status. -/
def toEnd (eval : Octets → Act Nat) (act : Act Unit) : Act Nat := do
  let stop : Option Stop ←
    try
      act
      pure none
    catch stop => pure (some stop)
  flush
  let settle (stop : Option Stop) : Act Unit := do
    let s ← get
    match s.saved with
    | none => return
    | some status =>
      let applies := stop = some .exit || s.skip = some .plainReturn
      set { s with status := if applies then status else s.status, saved := none }
  settle stop
  let s ← get
  match s.traps.lookup 0 with
  | none => return s.status
  | some action =>
    set { s with traps := s.traps.filter (·.1 != 0), skip := none, saved := some s.status }
    let stop : Option Stop ←
      try
        let _ ← eval action
        modify fun s ↦ { s with skip := some .plainReturn }
        pure none
      catch stop => pure (some stop)
    flush
    settle stop
    return (← get).status

/-- Starts a part of the script as a process of its own. -/
def fork (eval : Octets → Act Nat) (child : Act Unit) : Act Nat := do
  let s ← get
  doing <| Doing.fork do
    let whole : Act Nat := do
      standAlone
      toEnd eval child
    let (result, _) ← StateT.run (ExceptT.run whole) s
    match result with
    | .ok status => return .exited (status % 256)
    | .error _ => return .exited 2

/-! ## Programs -/

/-- Lets a program take the place of the interpreter. -/
def become {α : Type} (programs : Programs) (image : Image) (name : Octets) (args : List Octets)
    (env : List Octets) : Act α := do
  doing do
    Doing.setStreams fun streams ↦ streams.filter (·.1 < firstCopy)
    Doing.modifyTask fun t ↦ { t with block := env, caught := [], unwritten := none }
    let how ← programs image.tool
      { name := image.name.getD name, args := image.front ++ args, env }
    Doing.finish how

/-- The program of the interpreter itself. -/
def ownPath : Octets := "/bin/sh".toList

/-- Tries to let the program at a path take the place of the interpreter. A file that names no
interpreter is a script for this one. -/
def tryProgram (programs : Programs) (path name : Octets) (args : List Octets) (env : List Octets) :
    Act Errno := do
  let find (path : Octets) (args : List Octets) : Act (Except Errno Image) :=
    doing <| Doing.look fun w ↦ Image.ofPath w.tree w.current.cwd { args, env } path
  match ← find path (name :: args) with
  | .ok image => become programs image name args env
  | .error e =>
    if e != .execFormat then return e
    match ← find ownPath (ownPath :: path :: args) with
    | .ok image => become programs image ownPath (path :: args) env
    | .error e => return e

/-- Lets a program take the place of the interpreter. A name without a slash is looked for on a
search path, from a place on it on. -/
def replace {α : Type} (programs : Programs) (searchPath : Octets) (from_ : Nat) (name : Octets)
    (args : List Octets) : Act α := do
  let env ← environment
  let isMissing (e : Errno) : Bool := e = .noEntry || e = .notDirectory
  let rec tryAll (found : Errno) : List Octets → Act Errno
    | [] => return found
    | path :: rest => do
      let e ← tryProgram programs path name args env
      tryAll (if isMissing e then found else e) rest
  let e ←
    if name.contains '/' then tryProgram programs name name args env
    else tryAll .noEntry ((Image.candidates searchPath name).drop from_)
  let status := if isMissing e || e = .tooManyLinks || e = .nameTooLong then 127 else 126
  let text := if isMissing e then "not found".toList else e.text.toList
  fail (name ++ ": ".toList ++ text) status .over

end Act

end ShellEngine.Machine.Script
