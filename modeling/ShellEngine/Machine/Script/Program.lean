import ShellEngine.Machine.Script.Interpreter

/-!
# The script interpreter as a program

How it is started: with a text of commands, with a script, or with commands on its input. From the
environment it takes variables, but never how it separates fields or how far it has come in its
arguments.
-/

namespace ShellEngine.Machine.Script

namespace Interpreter

open Act

/-! ## The state at the start -/

/-- The variables that every interpreter has. -/
def firstVariables : List (Octets × Variable) :=
  [("IFS", some " \t\n"), ("MAIL", none), ("MAILPATH", none), ("PATH", some
    "/usr/local/sbin:/usr/local/bin:/usr/sbin:/usr/bin:/sbin:/bin"), ("PS1", some "# "),
   ("PS2", some "> "), ("PS4", some "+ "), ("OPTIND", some "1")].map fun (name, value) ↦
    (name.toList, { value := value.map String.toList, isFixed := true })

/-- Takes variables from the environment. -/
def takeEnvironment (env : List Octets) : Act Unit := do
  for entry in env do
    let (name, value) := splitAssignment entry
    if isName name && value.isSome then setValue name value { exported := true }
  setValue "IFS".toList (some " \t\n".toList)
  setValue "OPTIND".toList (some ['1'])
  let parent ← doing <| Doing.look fun w ↦ w.current.parent
  setValue "PPID".toList (some (Octets.ofNat parent))

/-- Finds out by which path the current directory was entered. -/
def takeDirectory : Act Unit := do
  let path? ← valueOf "PWD"
  let isHere ← doing <| Doing.look fun w ↦
    let target (path : Octets) : Option Target :=
      (w.status w.current.toStanding path true).toOption.map FileStatus.target
    match path? with
    | some ('/' :: path) => target ('/' :: path) == some (Target.node w.current.cwd)
    | _ => false
  setDirectory (if isHere then path? else none) false

/-! ## Commands that are typed -/

/-- Runs commands that somebody types, with a text before each line. An error ends nothing but the
command and what was typed along with it. -/
def converse (run : Runner) (feed : Feed) : Nat → Act Unit
  | 0 => return
  | fuel + 1 => do
    put 2 (← promptText run "PS1")
    let step : Act (Option Feed) := do
      let before := feed.source
      let (found, after) ← feedCommand feed Doing.maxSteps
      for _ in List.range (after.source.line - before.line - 1) do
        put 2 (← promptText run "PS2")
      if found.isOver then
        put 2 ['\n']
        return none
      let _ ← run found.body {}
      if (← get).skip.isSome then
        modify fun s ↦ { s with skip := none }
        return none
      return some after
    let next? ←
      try step
      catch stop =>
        if stop != .error || (← get).isPart then throw stop
        modify fun s ↦ { s with skip := none, loops := 0 }
        let line := (← get).reached
        pure (some { feed with source := { characters := [], line, isWhole := false } })
    match next? with
    | none => return
    | some feed => converse run feed fuel

/-- How often an interpreter that is not to be left by the end of its input looks for more. -/
def patience : Nat := 50

/-- Says how to leave an interpreter that is not left by the end of its input. -/
def insist : Act Unit := do
  if ← hasOption "ignoreeof" then
    put 2 (List.replicate patience "\nUse \"exit\" to leave shell.\n".toList).flatten

/-! ## The start -/

/-- What an interpreter was started to run. -/
structure Purpose where
  text : Option Octets := none
  /-- The descriptor of the script. -/
  fd : Nat := 0
  isLogin : Bool := false

/-- Reads the arguments of the program. -/
def takeArguments (name : Octets) (args : List Octets) : Act Purpose := do
  let chosen ← Builtin.choose true (args.length + 1) args
  let isText := chosen.letters.contains 'c'
  let isLogin := name.head? = some '-' || chosen.letters.contains 'l'
  if chosen.rest.isEmpty then
    if isText then fail "-c requires an argument".toList
    setOption "stdin" true
  if ← hasOption "interactive" then setOption "monitor" true
  let nameAfter (args : List Octets) : Act Unit := do
    match args with
    | [] => return
    | name :: rest => modify fun s ↦ { s with name, positional := rest }
  let purpose : Purpose ←
    match chosen.rest with
    | first :: rest =>
      if isText then
        nameAfter rest
        pure { text := some first, isLogin }
      else if ← hasOption "stdin" then
        modify fun s ↦ { s with positional := chosen.rest }
        pure { isLogin }
      else do
        let fd ← openScript first
        nameAfter chosen.rest
        pure { fd, isLogin }
    | [] => pure { isLogin }
  Builtin.settleOptions
  return purpose

/-- Runs a file of settings, if it is there. -/
def evalProfile (run : Runner) (path : Octets) : Act Unit := do
  let isThere ← doing <| Doing.look fun w ↦
    (w.status w.current.toStanding path true).isOk
  if !path.isEmpty && isThere then
    let _ ← evalFile run path false

/-- Does what the program was started for. -/
def start (run : Runner) (i : Invocation) : Act Unit := do
  takeEnvironment i.env
  takeDirectory
  modify fun s ↦ { s with name := i.name }
  let purpose ← takeArguments i.name i.args
  let isTyped ← hasOption "interactive"
  if purpose.isLogin then
    evalProfile run (((← valueOf "HOME").getD []) ++ "/.profile".toList)
  if isTyped then evalProfile run ((← valueOf "ENV").getD [])
  let fromInput ← hasOption "stdin"
  let goesOn : Bool ←
    match purpose.text with
    | none => pure true
    | some text =>
      try
        let _ ← evalText run text { isLast := !fromInput }
        pure fromInput
      catch stop =>
        if !isTyped || stop != .error then throw stop
        pure true
  modify fun s ↦ { s with reached := 1 }
  if goesOn && (← get).skip.isNone then
    if isTyped then converse run { fd := purpose.fd } Doing.maxSteps
    else
      let _ ← evalInput run 0 { fd := purpose.fd } Doing.maxSteps
    insist

end Interpreter

open Interpreter in
/-- The script interpreter. -/
def program (programs : Programs) (i : Invocation) : Doing ProcessEnd := do
  let pid ← Doing.self
  let ignored := (← Doing.task).ignored
  let run := runner programs maxDepth
  -- before it has read its arguments, the interpreter does not know its name
  let shell : Shell := { name := "sh".toList, pid, deaf := ignored, bindings := firstVariables }
  let (result, _) ← StateT.run (ExceptT.run (Act.toEnd (trapAction run) (start run i))) shell
  match result with
  | .ok status => return .exited (status % 256)
  | .error _ => return .exited 2

end ShellEngine.Machine.Script
