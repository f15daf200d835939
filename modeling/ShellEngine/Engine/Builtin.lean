import ShellEngine.Engine.Session
import ShellEngine.Text.Numeral

/-!
# Builtins

The commands that the engine runs itself. They write to the standard streams of the engine, which
are those of the stage while it runs, and end with a code.
-/

namespace ShellEngine

open Machine

/-- The commands that the engine runs itself. -/
inductive Builtin
  | alias
  | cd
  | exit
  | jobs
  | pwd
  | set
  deriving DecidableEq, Repr

namespace Builtin

def name : Builtin → String
  | .alias => "alias"
  | .cd => "cd"
  | .exit => "exit"
  | .jobs => "jobs"
  | .pwd => "pwd"
  | .set => "set"

def all : List Builtin := [.alias, .cd, .exit, .jobs, .pwd, .set]

/-- The builtin of a name. -/
def ofName? (name : String) : Option Builtin := all.find? fun b ↦ b.name == name

/-- A text before and after its first equals sign. -/
def splitAssignment (arg : String) : Option (String × String) :=
  let cs := arg.toList
  match cs.dropWhile (· != '=') with
  | _ :: value => some (String.ofList (cs.takeWhile (· != '=')), String.ofList value)
  | [] => none

/-- Reports what went wrong, and fails. -/
def fail (b : Builtin) (message : String) : Action Int := do
  .say 2 (b.name ++ ": " ++ message ++ "\n")
  return exitFailure

/-- Writes to the standard output, and goes on unless that fails. -/
def print (b : Builtin) (text : String) (next : Action Int) : Action Int := do
  let s ← get
  match s.host.print 1 text with
  | .ok host =>
    .change fun s ↦ { s with host }
    next
  | .error e => b.fail e.message

def succeed : Action Int := return exitSuccess

/-! ## Aliases -/

/-- Lists all aliases, shows one, defines one, or removes it. -/
def runAlias (args : List String) : Action Int := do
  if args.isEmpty then
    let aliases := (← get).aliases.entries
    Builtin.alias.print (String.join (aliases.map fun e ↦ e.1 ++ "=" ++ e.2 ++ "\n")) succeed
  else go exitSuccess args
where
  go (status : Int) : List String → Action Int
    | [] => return status
    | arg :: rest => do
      match splitAssignment arg with
      | some (name, value) =>
        if name.isEmpty then Builtin.alias.fail (arg ++ ": missing name")
        else
          .change fun s ↦ { s with
            aliases := if value.isEmpty then s.aliases.erase name else s.aliases.insert name value }
          go status rest
      | none =>
        match (← get).aliases.get? arg with
        | some value => Builtin.alias.print (arg ++ "=" ++ value ++ "\n") (go status rest)
        | none => go exitFailure rest

/-! ## Directories -/

/-- Where `cd` leads to: home without an argument, back to the last directory with a dash. -/
def destination (v : Variables) : Option String → Option String
  | none | some "~" => v.get? "HOME"
  | some "-" => v.get? "OLDPWD"
  | some path => some path

/-- Sets a variable, or ends the engine. -/
def setVariable (name value : String) : Action Unit := do
  let environment ← Action.orCrash ((← get).host.environment.set name value)
  .change fun s ↦ { s with host := { s.host with environment } }

/-- The absolute path without links of a destination. -/
def resolve (h : Host) (path : String) : Except IoError Octets := do
  let here ← h.currentDirectory
  if path.isEmpty then return here else h.canonicalPath path

/-- Changes the current directory. -/
def runCd (args : List String) : Action Int := do
  let host := (← get).host
  match destination host.environment args.head? with
  | none => cd.fail "no directory given and HOME/OLDPWD unset"
  | some target =>
    match resolve host target with
    | .error e => cd.fail (target ++ ": " ++ e.message)
    | .ok path =>
      match host.enterDirectory path with
      | .error e => cd.fail (path.toText ++ ": " ++ e.message)
      | .ok entered =>
        .change fun s ↦ { s with host := entered }
        match host.currentDirectory with
        | .ok previous => setVariable "OLDPWD" previous.toText
        | .error _ => pure ()
        setVariable "PWD" path.toText
        return exitSuccess

/-- Tells the current directory. -/
def runPwd : Action Int := do
  match (← get).host.currentDirectory with
  | .ok path => pwd.print (path.toText ++ "\n") succeed
  | .error e => pwd.fail e.message

/-! ## The end of the session -/

/-- The largest exit code. -/
def maxExit : Nat := 2147483647

/-- Asks for the end of the session, with a code or with the current level. -/
def runExit (args : List String) : Action Int := do
  let request (code : Int) : Action Int := do
    .change fun s ↦ { s with exitRequest := some code }
    return code
  match args.head? with
  | none => request (← get).level
  | some arg =>
    match Text.readInt 10 maxExit arg.toList with
    | .ok code => request code
    | .error _ => exit.fail (arg ++ ": numeric argument required")

/-! ## Jobs -/

/-- A text in a column, to the right or to the left of blanks. -/
def padLeft (width : Nat) (text : String) : String :=
  String.ofList (List.replicate (width - text.length) ' ') ++ text

def padRight (width : Nat) (text : String) : String :=
  text ++ String.ofList (List.replicate (width - text.length) ' ')

def jobLine (j : JobSummary) : String :=
  let state :=
    match j.exit with
    | some code => "done(" ++ toString code ++ ")"
    | none => "running"
  let pid := (j.pid.map toString).getD ""
  "[" ++ toString j.id ++ "] " ++ padLeft 7 pid ++ " " ++ padRight 10 state ++ " " ++ j.text ++ "\n"

/-- Lists the jobs. -/
def runJobs : Action Int := do
  let listed ← Action.ask fun s ↦
    let (listed, table) := s.jobs.look s.supervision
    (listed, { s with jobs := table })
  jobs.print (String.join (listed.map jobLine)) succeed

/-! ## Variables -/

/-- Lists all variables, shows one, sets one, or removes it. -/
def runSet (args : List String) : Action Int := do
  if args.isEmpty then
    let lines := (← get).host.environment.entries.map fun e ↦ e.1 ++ "=" ++ e.2 ++ "\n"
    set.print (String.join (lines.mergeSort fun a b ↦ !(b < a))) succeed
  else go args
where
  go : List String → Action Int
    | [] => return exitSuccess
    | arg :: rest => do
      match splitAssignment arg with
      | some (name, value) =>
        if name.isEmpty || name.toList.contains '\x00' then
          set.fail (arg ++ ": invalid variable name")
        else if value.isEmpty then
          let environment ← Action.orCrash ((← get).host.environment.remove name)
          .change fun s ↦ { s with host := { s.host with environment } }
          go rest
        else
          setVariable name value
          go rest
      | none =>
        match (← get).host.environment.get? arg with
        | some value => set.print (arg ++ "=" ++ value ++ "\n") (go rest)
        | none => return exitFailure

/-- Runs a builtin. -/
def run : Builtin → List String → Action Int
  | .alias, args => runAlias args
  | .cd, args => runCd args
  | .exit, args => runExit args
  | .jobs, _ => runJobs
  | .pwd, _ => runPwd
  | .set, args => runSet args

end Builtin

end ShellEngine
