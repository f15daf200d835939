import ShellEngine.Config.Load
import ShellEngine.Config.LogFilter
import ShellEngine.Engine.Expression
import ShellEngine.Environment.EnvFile
import ShellEngine.Machine.Installation

/-!
# The engine as a program

What the engine does from its start to its end: it sets variables from a file, loads its settings,
and then runs one line, a script, or lines from its standard input behind a prompt.

The engine is itself one of the programs of the machine, and may be started from a line. How deep
instances may be nested is bounded.
-/

namespace ShellEngine.CommandLine

open Machine

/-- What the arguments ask for. -/
inductive Request
  | interactive
  | line (text : String)
  | script (path : String)
  deriving DecidableEq, Repr

/-- What the arguments ask for. Arguments behind the path of a script are not used. -/
def Request.ofArguments (settings : Settings) : List String → Request
  | [] => .interactive
  | first :: rest =>
    if first = "-c" || first = settings.subshell.switch then .line (" ".intercalate rest)
    else .script first

/-- Why the engine ends before its time. -/
inductive Failure
  | settings (e : SettingsError)
  | engine (e : EngineError)
  | input (e : IoError)

/-- The path of the engine's own program. -/
def ownProgram : String := "/usr/local/bin/shex"

/-- The code of an engine that failed, that of one that crashed, and that of one that cannot tell
that it crashed. -/
def failureCode : Int := 1
def crashCode : Int := 101
def abortCode : Int := signaledCode 6

/-! ## Variables from a file -/

def variablesFile : String := ".env"

/-- The paths at which the file is looked for: in a directory, then in those above it. -/
def variablesPaths (names : List Octets) : List Octets :=
  (List.range (names.length + 1)).map fun up ↦
    (names.take (names.length - up)).flatMap (fun name ↦ '/' :: name) ++
      '/' :: variablesFile.toList

/-- The first file at one of some paths. A path that cannot be followed ends the search. -/
def firstFile (h : Host) (paths : List Octets) : Option Octets :=
  paths.findSome? (fun path ↦
    match h.isFile path with
    | .ok true => some (some path)
    | .ok false | .error .noEntry => none
    | .error _ => some none) |>.join

/-- The text before the first line that is none. -/
def readableText (os : Octets) : String :=
  match Octets.toText? os with
  | some text => text
  | none =>
    let lines := (Octets.lines os).takeWhile fun l ↦ (Octets.toText? l).isSome
    String.join (lines.map Octets.toText)

/-- Sets the variables of the nearest file with variables. -/
def setVariables (h : Host) : Except Crash Host := do
  let names := (h.currentDirectory.toOption.map FileTree.names).getD []
  match firstFile h (variablesPaths names) with
  | none => return h
  | some path =>
    match h.world.slurp h.cwd path with
    | .error _ => return h
    | .ok os =>
      return { h with environment := ← EnvFile.apply (readableText os).toList h.environment }

/-! ## The log -/

/-- The path of the log file: an absolute name stands for itself. -/
def logPath (settings : LogSettings) : Octets :=
  let directory := Octets.ofString settings.directory
  let name := Octets.ofString settings.fileName
  if name.head? = some '/' || directory.isEmpty then name
  else if directory.getLast? = some '/' then directory ++ name
  else directory ++ '/' :: name

/-- Makes the log file if it is not there, with the directories above it if it cannot be made
without; `none` if it cannot be made at all. -/
def openLog (settings : LogSettings) (h : Host) : Option Host := do
  let path := logPath settings
  if path.contains '\x00' then none
  let make (tree : FileTree) : Except Errno FileTree :=
    (tree.openOutput h.cwd path false).map (·.2)
  let tree ←
    match make h.world.tree with
    | .ok tree => some tree
    | .error _ => do
      let above := FileTree.parentPath path
      (make (← (h.world.tree.makeDirectories h.cwd above).toOption)).toOption
  return { h with world := { h.world with tree } }

/-! ## Lines from the standard input -/

/-- The size of the blocks in which the standard input is read. -/
def blockSize : Nat := 8192

/-- Reads a line; `none` at the end of the input. What was read beyond the line is kept. -/
def readLine : Nat → Octets → Action (Octets × Octets)
  | 0, kept => return (kept, [])
  | blocks + 1, kept => do
    if kept.contains '\n' then return Octets.splitLine kept
    match (← get).host.read 0 blockSize with
    | .ok ([], _) | .error _ => return (kept, [])
    | .ok (block, host) =>
      .change fun s ↦ { s with host }
      readLine blocks (kept ++ block)

/-- Tells which jobs are done, and forgets them. -/
def reportJobs : Action Unit := do
  let done ← Action.ask fun s ↦
    let (done, jobs) := s.jobs.reap s.supervision
    (done, { s with jobs })
  for j in done do
    let exit := j.exit.getD 0
    .tell ("[" ++ toString j.id ++ "] done (" ++ toString exit ++ ") " ++ j.text ++ "\n")

def prompt : Action (Except Failure Unit) := do
  let s ← get
  let here := (s.host.currentDirectory.toOption.map Octets.toText).getD ""
  match s.host.print 1 (here ++ " $ ") with
  | .error e => return .error (.input e)
  | .ok host => return .ok (← .change fun s ↦ { s with host })

/-- Runs lines from the standard input until it ends or a line asks for the end. -/
def interact : Nat → Octets → Action (Except Failure Int)
  | 0, _ => return .ok (← Action.exitCode)
  | lines + 1, kept => do
    reportJobs
    if let .error e ← prompt then return .error e
    let (line, kept) ← readLine (lines + 1) kept
    if line.isEmpty then return .ok (← Action.exitCode)
    match Octets.toText? line with
    | none => return .error (.input .notText)
    | some text =>
      .change fun s ↦ { s with cancellation := s.cancellation.reset }
      let typed ← Action.ask fun s ↦
        let (typed, console) := s.console.takeTypeahead
        (typed, { s with console })
      let body := (text.toList.reverse.dropWhile Line.isLineBreak).reverse
      let line := Text.decodeLossy typed ++ body
      if (Text.trim line).isEmpty then interact lines kept
      else
        let _ ← Action.runLine (String.ofList line)
        match (← get).exitRequest with
        | some code => return .ok code
        | none => interact lines kept

/-! ## From the start to the end -/

/-- The most lines that are read from the standard input. -/
def maxLines : Nat := 1000000

/-- Does what the arguments ask for. -/
def serve : Request → Action (Except Failure Int)
  | .interactive => interact maxLines []
  | .line text => do
    .change fun s ↦ { s with isSubshell := true }
    let _ ← Action.runLine text
    return .ok (← Action.exitCode)
  | .script path => return (← Action.runScript path).mapError .engine

def Failure.message : Failure → String
  | .settings e => e.message?.getD "invalid config"
  | .engine e => e.message
  | .input e => e.message

/-- The host of an instance that does not come to an end. -/
def unending (h : Host) : Host :=
  { h with world := { h.world with clock := h.world.clock + Tools.forEver } }

/-- Runs the engine; gives its code. -/
def run (args : List String) (h : Host) : Int × Host :=
  let failed (f : Failure) (h : Host) : Int × Host :=
    (failureCode, h.say 2 ("Error: " ++ f.message ++ "\n"))
  match setVariables h with
  | .error _ => (crashCode, h)
  | .ok h =>
    match Settings.load h with
    | .error e => failed (.settings e) h
    | .ok settings =>
      match openLog settings.log h with
      | none => (crashCode, h)
      | some h =>
        let filter := (h.environment.get? LogFilter.variableName).getD ""
        let complained := (LogFilter.complaints filter).foldlM (fun h line ↦ h.print 2 (line ++ "\n")) h
        match complained with
        | .error _ => (crashCode, h)
        | .ok h =>
          let h := { h with environment := h.environment.put "SHEXSPEC" ownProgram }
          let (result, s) := ((serve (.ofArguments settings args)).run { settings, host := h }).run
          match result with
          | .error .unfinished => (failureCode, unending s.host)
          | .error _ => (if (s.host.print 2 "\n").isOk then crashCode else abortCode, s.host)
          | .ok (.error f) => failed f s.host
          | .ok (.ok code) => (code, s.host)

/-! ## Nested instances -/

/-- The variables in an environment. -/
def variablesOf (env : List Octets) : Variables :=
  env.foldl (fun v e ↦
    match e with
    | [] => v
    | first :: rest =>
      let name := first :: rest.takeWhile (· != '=')
      if name.length < e.length then
        v.put (Octets.toText name) (Octets.toText (e.drop (name.length + 1)))
      else v) {}

/-- The host of an instance that was started as a program. -/
def hostOf (nested : Nested) (i : Invocation) (world : World) : Host :=
  let t := world.current
  { world
    cwd := t.cwd
    environment := variablesOf i.env
    descriptors :=
      { table := t.streams, next := t.streams.foldl (fun next s ↦ max next (s.1 + 1)) 3 }
    nested }

/-- An instance as a program, above a number of further ones. -/
def program : Nat → Nested
  | 0 => fun _ w ↦ (failureCode.toNat, w)
  | depth + 1 => fun i w ↦
    let (code, h) := run (i.args.map Octets.toText) (hostOf (program depth) i w)
    ((code % 256).toNat, h.world)

/-- How deep instances may be nested. -/
def maxInstances : Nat := 50

/-- The host with the engine among its programs. -/
def install (h : Host) : Host :=
  { h with
    world := { h.world with tree := h.world.tree.withNode ownProgram (.program .engine) 0o755 }
    nested := program maxInstances }

end ShellEngine.CommandLine
