import ShellEngine.Machine.Script.Condition
import ShellEngine.Machine.Script.Directories
import ShellEngine.Machine.Script.Input
import ShellEngine.Machine.Script.Lookup
import ShellEngine.Machine.Script.Printing
import ShellEngine.Machine.Script.Signals

/-!
# Running commands

A command is run with some knowledge of its place: whether its failure is looked at, and whether
anything comes after it. What comes last may take the place of the interpreter instead of being a
child of it; it ends by throwing `Stop.over`.

Commands run other commands through `Interpreter.run`, which goes one level deeper. `runner` ties
the levels together.
-/

namespace ShellEngine.Machine.Script

/-- What an interpreter runs commands with. -/
structure Interpreter where
  programs : Programs
  run : Runner

namespace Interpreter

open Act

/-! ## Texts as scripts -/

/-- A part of a script that is read from an input of its own. -/
def reading (source : Source) : Act Reading := do
  let s ← get
  return { source, aliases := s.aliases, nextDocument := s.nextDocument }

/-- Keeps what the reading of a command found besides it. -/
def keepReading (r : Reading) : Act Unit :=
  modify fun s ↦
    { s with reached := r.source.line, nextDocument := r.nextDocument
             documents := r.documents ++ s.documents }

/-- Complains about a script that cannot be read. -/
def wrongAt {α : Type} (line : Nat) (message : String) : Act α := do
  modify fun s ↦ { s with place := line }
  fail ("Syntax error: " ++ message).toList

/-- Reads a command; gives it with the source behind it, and tells whether that is empty. -/
def readCommand (source : Source) : Act (Reader.ListEnd × Source × Bool) := do
  match StateT.run Reader.line (← reading source) with
  | .ok (found, r) =>
    keepReading r
    return (found, r.source, r.isBack && r.last = .endOfFile)
  | .error (.wrong line message) => wrongAt line message
  | .error .short => wrongAt source.line "end of file unexpected"

/-- Goes back to reading what was read before, however the act ends. -/
def returning {α : Type} (act : Act α) : Act α := do
  let reached := (← get).reached
  try
    let a ← act
    modify fun s ↦ { s with reached }
    return a
  catch stop =>
    modify fun s ↦ { s with reached }
    throw stop

/-- Runs a text as a script; gives the status of its last command. -/
def evalText (run : Runner) (text : Octets) (flow : Flow) : Act Nat := returning do
  modify fun s ↦ { s with reached := 1 }
  go 0 { characters := text } Doing.maxSteps
where
  go (status : Nat) (source : Source) : Nat → Act Nat
    | 0 => return status
    | fuel + 1 => do
      let (found, source, isEnd) ← readCommand source
      if found.isOver then return status
      let now ← run found.body { flow with isLast := flow.isLast && isEnd }
      let status := if found.body.isSome then now else status
      if (← get).skip.isSome then return status
      go status source fuel

/-! ## Children -/

/-- What a child does that runs one command. -/
def only (run : Runner) (body : Option Command) (isTested : Bool) : Act Unit := do
  let _ ← run body { isTested, isLast := true }

/-- The actions of traps. -/
def trapAction (run : Runner) (action : Octets) : Act Nat := evalText run action {}

/-- A new pipe: the descriptors to read from and to write to. -/
def openPipe : Act (Nat × Nat) :=
  doing <| Doing.change fun w ↦
    let ((reader, writer), w) := w.pipe (some Doing.blockSize)
    let streams := w.current.streams
    let r := Doing.freeDescriptor streams 0
    let streams := (r, reader) :: streams
    let f := Doing.freeDescriptor streams 0
    ((r, f), w.setStreams w.self ((f, writer) :: streams))

/-- Makes a descriptor another name of `fd`, which is closed. -/
def moveDescriptor (fd target : Nat) : Act Unit :=
  doing do
    if fd = target then return
    match ← Doing.stream? fd with
    | some f =>
      Doing.bind target f
      Doing.close fd
    | none => return

/-- Runs an embedded command; gives its output. -/
def capture (run : Runner) (body : Option Command) : Act Octets := do
  if body.isNone then return []
  let (reader, writer) ← openPipe
  let pid ← fork (trapAction run) do
    doing (Doing.close reader)
    moveDescriptor writer 1
    only run body false
  doing (Doing.close writer)
  let job ← newJob [{ pid }]
  let output ← doing do
    match ← Doing.readAll reader with
    | .ok os => return os
    | .error _ => return []
  doing (Doing.close reader)
  let embedded ← finishJob job
  modify fun s ↦ { s with embedded }
  return output

/-- Gives a command in the background no input, and lets it ignore the keys of a terminal. -/
def toBackground (isFirst : Bool) : Act Unit := do
  let keys := [World.interruptSignal, World.quitSignal]
  modify fun s ↦ { s with deaf := keys ++ s.deaf }
  doing do
    Doing.modifyTask fun t ↦ { t with ignored := keys ++ t.ignored }
    if isFirst then
      Doing.close 0
      match ← Doing.openPath "/dev/null".toList .input with
      | .ok f => Doing.bind 0 f
      | .error _ => return

/-! ## Loops -/

/-- What is being left, seen from the end of a loop. -/
def leaveLoop : Act (Option Skip) := do
  let s ← get
  match s.skip with
  | some .break_ | some .continue_ =>
    let skipCount := s.skipCount - 1
    if skipCount = 0 then
      set { s with skipCount, skip := none }
      return s.skip
    else
      set { s with skipCount }
      return some .break_
  | skip => return skip

/-- Runs something as the body of a loop. -/
def inLoop (act : Act Nat) : Act Nat := do
  modify fun s ↦ { s with loops := s.loops + 1 }
  let status ← act
  modify fun s ↦ { s with loops := s.loops - 1 }
  return status

def isLeaving (skip : Option Skip) : Bool := skip.isSome && skip != some .continue_

/-- Runs a body for each of some values. -/
def eachLoop (run : Runner) (flow : Flow) (name : Octets) (body : Option Command) (status : Nat) :
    List Octets → Act Nat
  | [] => return status
  | value :: rest => do
    assign name (some value)
    let status ← run body flow
    if isLeaving (← leaveLoop) then return status
    eachLoop run flow name body status rest

/-- Runs a body as long as a test says so. -/
def testLoop (run : Runner) (flow : Flow) (whileFails : Bool) (test body : Option Command)
    (status : Nat) : Nat → Act Nat
  | 0 => return status
  | fuel + 1 => do
    let tested ← run test { isTested := true }
    let skip ← leaveLoop
    let status := if skip = some .return_ then tested else status
    if skip.isSome then
      if isLeaving skip then return status
      else testLoop run flow whileFails test body status fuel
    else if (tested != 0) != whileFails then return status
    else
      let status ← run body flow
      if isLeaving (← leaveLoop) then return status
      testLoop run flow whileFails test body status fuel

/-- Runs the first arm of which a pattern matches. -/
def chooseArm (i : Interpreter) (text : Octets) (flow : Flow) :
    List (List Word × Option Command) → Act Nat
  | [] => return 0
  | (patterns, body) :: rest => do
    let rec matchesOne : List Word → Act Bool
      | [] => return false
      | w :: more => do
        if Pattern.isMatch (← patternOf (capture i.run) w) text then return true
        matchesOne more
    if ← matchesOne patterns then
      if body.isSome && (← get).skip.isNone then i.run body flow else return 0
    else chooseArm i text flow rest

/-! ## Commands of the interpreter that run commands -/

/-- How many bytes of a script are read at a time. -/
def scriptBlock : Nat := 8192

/-- The characters of an input that are not read yet, and whether there may be more. -/
structure Feed where
  fd : Nat
  source : Source := { characters := [], isWhole := false }

/-- Reads a command from an input, with as much of the input as it takes. Everything has to be there
at once before an attempt is worth it; what failed for lack of text is tried again with more. -/
def feedCommand (feed : Feed) : Nat → Act (Reader.ListEnd × Feed)
  | 0 => return ({ body := none, isOver := true }, feed)
  | fuel + 1 => do
    let source := feed.source
    let echo (after : Octets) : Act Unit := do
      if ← hasOption "verbose" then
        put 2 (source.characters.take (source.characters.length - after.length))
    match StateT.run Reader.line (← reading source) with
    | .ok (found, r) =>
      let after := ((r.source.inserted.getLast?).map Inserted.rest).getD r.source.characters
      echo after
      keepReading r
      return (found, { feed with source := { r.source with left := [] } })
    | .error (.wrong line message) =>
      let lines := (Octets.splitOn '\n' source.characters).drop (line + 1 - source.line)
      echo ((List.intersperse ['\n'] lines).flatten)
      wrongAt line message
    | .error .short =>
      let block ← doing (Doing.read feed.fd scriptBlock)
      let more := (block.toOption.getD []).filter (· != '\x00')
      let isOver := (block.toOption.getD []).isEmpty
      let source := { source with characters := source.characters ++ more, isWhole := isOver }
      feedCommand { feed with source } fuel

/-- Runs the commands of an input to its end. -/
def evalInput (run : Runner) (status : Nat) (feed : Feed) : Nat → Act Nat
  | 0 => return status
  | fuel + 1 => do
    let (found, feed) ← feedCommand feed Doing.maxSteps
    if found.isOver then return status
    let now ← run found.body {}
    let status := if found.body.isSome then now else status
    match (← get).skip with
    | none => evalInput run status feed fuel
    | some skip =>
      if skip = .return_ || skip = .plainReturn then modify fun s ↦ { s with skip := none }
      return status

/-- Opens a script under a descriptor that no script can name. -/
def openScript (path : Octets) : Act Nat := do
  match ← doing (Doing.openPath path .input) with
  | .error e => fail ("cannot open ".toList ++ path ++ ": ".toList ++ openMessage false e)
  | .ok f =>
    doing <| Doing.change fun w ↦
      let fd := Doing.freeDescriptor w.current.streams firstCopy
      (fd, w.setStreams w.self (Doing.bound fd f w.current.streams))

/-- Runs the script at a path. -/
def evalFile (run : Runner) (path : Octets) (named : Bool) : Act Nat := returning do
  let fd ← openScript path
  if named then modify fun s ↦ { s with command := some path }
  modify fun s ↦ { s with reached := 1 }
  try
    let status ← evalInput run 0 { fd } Doing.maxSteps
    doing (Doing.close fd)
    return status
  catch stop =>
    doing (Doing.close fd)
    throw stop

/-- The file that `.` names, which may be on the search path. -/
def sourced (name : Octets) : Act Octets := do
  if name.contains '/' then return name
  let paths := Image.candidates (← searchPath) name
  let found ← doing <| Doing.look fun w ↦ paths.find? fun path ↦
    ((w.status w.current.toStanding path true).toOption.map fun s ↦
      decide (s.kind = .regular)).getD false
  match found with
  | some path => return path
  | none => fail (name ++ ": not found".toList)

def dot (run : Runner) : Builtin := fun _ args ↦ do
  let (_, args) ← letters "" args
  match args with
  | [] => return 0
  | name :: _ => evalFile run (← sourced name) true

def eval (run : Runner) (flow : Flow) : Builtin := fun _ args ↦ do
  if args.isEmpty then return 0
  evalText run ((List.intersperse [' '] args).flatten) { isTested := flow.isTested }

def exec (programs : Programs) : Builtin := fun _ args ↦ do
  match args with
  | [] => return 0
  | name :: rest => replace programs (← searchPath) 0 name rest

def exit : Builtin := fun _ args ↦ do
  if let os :: _ := args then
    let status ← number os
    modify fun s ↦ { s with saved := some status }
  throw .exit

def return_ : Builtin := fun _ args ↦ do
  match args with
  | [] =>
    modify fun s ↦ { s with skip := some .plainReturn }
    return (← get).status
  | os :: _ =>
    let status ← number os
    modify fun s ↦ { s with skip := some .return_ }
    return status

/-- Leaves loops, or goes on with their next round. -/
def leave (skip : Skip) : Builtin := fun _ args ↦ do
  let n ←
    match args with
    | [] => pure 1
    | os :: _ =>
      let n ← number os
      if n = 0 then badNumber os else pure n
  let s ← get
  let n := min n s.loops
  if 0 < n then set { s with skip := some skip, skipCount := n }
  return 0

/-- The commands of the interpreter by their names. -/
def builtins (i : Interpreter) (flow : Flow) : List (String × Builtin) :=
  [(":", fun _ _ ↦ return 0), ("true", fun _ _ ↦ return 0), ("false", fun _ _ ↦ return 1),
   ("echo", Builtin.echo), ("printf", Builtin.printf), ("[", Builtin.test),
   ("test", Builtin.test), ("read", Builtin.read), ("cd", Builtin.cd), ("chdir", Builtin.cd),
   ("pwd", Builtin.pwd), ("set", Builtin.set_), ("shift", Builtin.shift),
   ("export", Builtin.export_), ("readonly", Builtin.readonly), ("local", Builtin.local_),
   ("unset", Builtin.unset), ("getopts", Builtin.getopts), ("alias", Builtin.alias_),
   ("unalias", Builtin.unalias), ("umask", Builtin.umask), ("ulimit", Builtin.ulimit),
   ("times", Builtin.times), ("type", Builtin.type), ("command", Builtin.command),
   ("hash", Builtin.hash), ("trap", Builtin.trap), ("kill", Builtin.kill),
   ("wait", Builtin.wait), ("jobs", Builtin.jobs), ("fg", Builtin.resume),
   ("bg", Builtin.resume), ("eval", eval i.run flow), (".", dot i.run),
   ("exec", exec i.programs), ("exit", exit), ("return", return_), ("break", leave .break_),
   ("continue", leave .continue_)]

/-- Runs a command of the interpreter. What it printed is written when it is over. -/
def runBuiltin (i : Interpreter) (flow : Flow) (name : Octets) (args : List Octets) :
    Act (Option Stop) := do
  let before := (← get).command
  modify fun s ↦ { s with command := some name }
  let stop? : Option Stop ←
    try
      match (i.builtins flow).find? fun b ↦ b.1.toList == name with
      | none => pure ()
      | some (_, builtin) =>
        let status ← builtin name args
        flush
        let isLost := (← get).isLost
        if isLost then warn (name ++ ": I/O error".toList)
        setStatus (if isLost then status ||| 1 else status)
      pure none
    catch stop => pure (some stop)
  modify fun s ↦ { s with command := before, isLost := false }
  return stop?

/-- The most functions that may be run inside each other. -/
def maxFunctions : Nat := 1000

/-- Runs a function with arguments of its own. -/
def callFunction (run : Runner) (body : Command) (args : List Octets) (flow : Flow) :
    Act (Option Stop) := do
  let before ← get
  if maxFunctions ≤ before.depth then
    fail "Maximum function recursion depth (1000) reached".toList
  set { before with
    positional := args, optionIndex := 1, optionOffset := none, loops := 0
    depth := before.depth + 1 }
  let stop? : Option Stop ←
    try
      let _ ← run (some body) { isTested := flow.isTested }
      pure none
    catch stop => pure (some stop)
  modify fun s ↦
    { s with
      positional := before.positional, optionIndex := before.optionIndex
      optionOffset := before.optionOffset, loops := before.loops, depth := before.depth
      skip := if s.skip = some .return_ || s.skip = some .plainReturn then none else s.skip }
  return stop?

/-! ## Simple commands -/

/-- The name of a simple command with what is known about it, and its arguments as far as they are
expanded. -/
structure Called where
  /-- What stands before the name of the command that is run. -/
  front : List Octets := []
  args : List Octets
  rest : List Word
  meaning : Meaning := .builtin .regular
  /-- Whether the command is special; not known before it is looked up. -/
  isSpecial : Option Bool := none
  /-- Whether its assignments end with it. -/
  hides : Bool := false
  isExec : Bool := false
  /-- Whether its arguments may be assignments. -/
  assigns : Bool := false
  functions : Bool := true
  path : Option Octets := none

/-- Expands words until one of them comes to something. -/
def firstFields (run : Runner) : List Word → Act (List Octets × List Word)
  | [] => return ([], [])
  | w :: rest => do
    let fields ← fieldsOf (capture run) w
    if fields.isEmpty then firstFields run rest else return (fields, rest)

/-- Skips the options of `command`, of which some are skipped; false if it is not to run one. -/
def commandOptions (run : Runner) (skipped : List Octets) : Nat → Called → Act (Called × Bool)
  | 0, c => return (c, false)
  | fuel + 1, c => do
    let (args, rest) ← if c.args.isEmpty then firstFields run c.rest else pure (c.args, c.rest)
    let whole : Called := { c with args := skipped ++ args, rest }
    match args with
    | [] => return (whole, false)
    | ['-', '-'] :: more =>
      let (more, rest) ← if more.isEmpty then firstFields run rest else pure (more, rest)
      if more.isEmpty then return ({ whole with rest }, false)
      return ({ c with front := c.front ++ skipped ++ [['-', '-']], args := more, rest }, true)
    | ('-' :: letter :: letters) :: more =>
      if !(letter :: letters).all (· == 'p') then return (whole, false)
      commandOptions run (skipped ++ ['-' :: letter :: letters]) fuel
        { c with args := more, rest, path := some standardPath }
    | args => return ({ c with front := c.front ++ skipped, args, rest }, true)

/-- Looks up the name of a command as far as it may be one of the interpreter. -/
def resolve (run : Runner) : Nat → Called → Act Called
  | 0, c => return c
  | fuel + 1, c => do
    let name := c.args.headD []
    let meaning ← lookup name { onlyOwn := true, functions := c.functions }
    let c := { c with meaning, hides := true }
    match meaning with
    | .builtin rank =>
      let c := { c with assigns := takesAssignments name, isExec := name = "exec".toList }
      let c :=
        match c.isSpecial with
        | none => { c with isSpecial := some (rank = .special), hides := rank != .special }
        | some _ => c
      if name != "command".toList then return c
      let (c, found) ← commandOptions run [name] (c.args.length + c.rest.length + 1)
        { c with args := c.args.drop 1 }
      if found then resolve run fuel { c with functions := false }
      else return { c with functions := true }
    | _ => return c

/-- Expands the words of a simple command. -/
def called (run : Runner) (words : List Word) : Act Called := do
  let (args, rest) ← firstFields run words
  if args.isEmpty then return { args, rest }
  let c ← resolve run (words.length + args.length + 1) { args, rest }
  let rec more : List Word → Act (List Octets)
    | [] => return []
    | w :: rest => do
      let fields ←
        if c.assigns && Word.isAssignment w then
          pure [← textOf (capture run) { isAssignment := true } w]
        else fieldsOf (capture run) w
      return fields ++ (← more rest)
  return { c with args := c.args ++ (← more c.rest) }

/-- The text that stands in front of each line of a trace, or before a line that is to be typed. -/
def promptText (run : Runner) (name : String) : Act Octets := do
  let raw := (← valueOf name).getD []
  let commands : Reader (Option Command) := return (← Reader.list Reader.maxDepth .any).body
  let read : Reader Unit := do
    let _ ← Reader.text commands .prompt .inDouble (← Reader.nextJoined)
  match StateT.run read (← reading { characters := raw }) with
  | .error _ => return raw
  | .ok ((), r) =>
    let options := (← get).options
    setOption "xtrace" false
    let text ←
      try textOf (capture run) { isQuoted := true } r.word
      catch stop => if stop = .error then pure raw else throw stop
    modify fun s ↦ { s with options }
    return text

/-- Writes a command as it is run, if that is wanted. -/
def trace (run : Runner) (isRedirected : Bool) (words : List Octets) : Act Unit := do
  if !(← hasOption "xtrace") then return
  let before ← promptText run "PS4"
  let replaced := (← get).replaced
  let level := if isRedirected then replaced.headD [] else []
  let fd := ((level.lookup 2).bind id).getD 2
  put fd (before ++ (List.intersperse [' '] words).flatten ++ ['\n'])

/-- Puts back what was hidden down to a depth. -/
def revealDown (depth : Nat) : Nat → Act Unit
  | 0 => return
  | fuel + 1 => do
    if depth < (← get).hidden.length then
      reveal
      revealDown depth fuel

/-- Starts a program, and waits for it. -/
def launch (i : Interpreter) (c : Called) (place : Option Nat) (flow : Flow) : Act Unit := do
  let path ←
    match c.path with
    | some path => pure path
    | none => searchPath
  let name := c.args.headD []
  let become : Act Unit := replace i.programs path (place.getD 0) name (c.args.drop 1)
  if flow.isLast && !(← hasTraps) then become
  else
    let pid ← fork (trapAction i.run) become
    let job ← newJob [{ pid }]
    setStatus (← finishJob job)

/-- Runs what the name of a command stands for; gives why the command was cut short. -/
def perform (i : Interpreter) (c : Called) (flow : Flow) : Act (Option Stop) := do
  let name := c.args.headD []
  let meaning ←
    match c.meaning with
    | .builtin .plain | .function .. | .program _ | .unknown =>
      lookup name { functions := c.functions, complains := true, path := c.path }
    | meaning => pure meaning
  match meaning with
  | .unknown =>
    setStatus 127
    flush
    return none
  | .program place =>
    launch i c place flow
    return none
  | .function _ body => callFunction i.run body (c.args.drop 1) flow
  | .builtin _ =>
    let stop? ← runBuiltin i flow name (c.args.drop 1)
    return if stop? = some .error && c.isSpecial != some true then none else stop?

/-- Makes the assignments of a command; gives them as they are traced. -/
def makeAssignments (run : Runner) (c : Called) : List Word → Act (List Octets)
  | [] => return []
  | w :: rest => do
    let os ← textOf (capture run) { isAssignment := true } w
    if c.hides then hide os { exported := true }
    else
      let (name, value) := splitAssignment os
      setValue name value { exported := c.isExec && 1 < c.args.length }
    return os :: (← makeAssignments run c rest)

/-- Runs a simple command. -/
def simple (i : Interpreter) (line : Nat) (assignments words : List Word)
    (redirections : List Redirection) (flow : Flow) : Act Nat := do
  doing (Doing.spend stepTime)
  modify fun s ↦ { s with place := line, embedded := 0 }
  let c ← called i.run words
  let start ← get
  let shown := c.front ++ c.args
  if c.hides then modify fun s ↦ { s with hidden := [] :: s.hidden }
  let prepared ← prepare (capture i.run) redirections
  if !redirections.isEmpty then pushReplaced
  let finish : Act Nat := do
    if !redirections.isEmpty then popReplaced c.isExec
    unwindReplaced start.replaced.length
    let hidden := (← get).hidden.length
    revealDown start.hidden.length hidden
    return (← get).status
  if !(← redirectSafely (capture i.run) prepared) then
    setStatus 2
    if c.isSpecial = some true then throw .error
    return ← finish
  let assigned ← makeAssignments i.run c assignments
  trace i.run (!redirections.isEmpty) (assigned ++ shown)
  if c.args.isEmpty then
    let embedded := (← get).embedded
    setStatus embedded
  else
    match ← perform i c flow with
    | some stop => throw stop
    | none => pure ()
  finish

/-! ## Commands that are made of others -/

/-- Runs commands joined by pipes. -/
def pipeline (i : Interpreter) (inBackground : Bool) (parts : List Command) (flow : Flow) :
    Act Nat := do
  let rec start (source : Option Nat) (members : List Member) : List Command → Act (List Member)
    | [] => return members
    | c :: rest => do
      if let .simple _ _ (w :: _) _ := c then
        let name := (Word.literal? w).getD []
        if isName name then let _ ← lookup name {}
      let ends ←
        if rest.isEmpty then pure none
        else do
          let ends ← openPipe
          pure (some ends)
      let pid ← fork (trapAction i.run) do
        if inBackground then toBackground members.isEmpty
        if let some (reader, _) := ends then doing (Doing.close reader)
        if let some fd := source then moveDescriptor fd 0
        if let some (_, writer) := ends then moveDescriptor writer 1
        only i.run (some c) flow.isTested
      if let some fd := source then doing (Doing.close fd)
      if let some (_, writer) := ends then doing (Doing.close writer)
      start (ends.map (·.1)) (members ++ [{ pid }]) rest
  let members ← start none [] parts
  let job ← newJob members
  if inBackground then
    modify fun s ↦ { s with lastBackground := (members.getLast?.map Member.pid).getD 0 }
    return 0
  finishJob job

/-- Runs a part of the script on its own. -/
def apart (i : Interpreter) (line : Nat) (inBackground : Bool) (body : Option Command)
    (redirections : List Redirection) (flow : Flow) : Act Nat := do
  modify fun s ↦ { s with place := line }
  let prepared ← prepare (capture i.run) redirections
  let inside (isTested : Bool) : Act Unit := do
    modify fun s ↦ { s with replaced := [] }
    redirectAll (capture i.run) prepared
    only i.run body isTested
  if !inBackground && flow.isLast && !(← hasTraps) then
    modify fun s ↦ { s with loops := 0, skip := none, jobs := [], isPart := true }
    inside flow.isTested
    return (← get).status
  let pid ← fork (trapAction i.run) do
    if inBackground then toBackground true
    inside (flow.isTested && !inBackground)
  let job ← newJob [{ pid }]
  if inBackground then
    modify fun s ↦ { s with lastBackground := pid }
    return 0
  finishJob job

/-- Runs a command under redirections. -/
def redirected (i : Interpreter) (line : Nat) (body : Command) (redirections : List Redirection)
    (flow : Flow) : Act Nat := do
  modify fun s ↦ { s with place := line }
  let prepared ← prepare (capture i.run) redirections
  if !redirections.isEmpty then pushReplaced
  let status ←
    if ← redirectSafely (capture i.run) prepared then
      i.run (some body) { isTested := flow.isTested }
    else pure 2
  if !redirections.isEmpty then popReplaced false
  return status

/-- Defines a function. Where a program of its name was found is forgotten. -/
def define (line : Nat) (name : Octets) (body : Command) : Act Unit := do
  locate name none
  modify fun s ↦
    { s with functions := (name, line, body) :: s.functions.filter (·.1 != name) }

/-- What is done behind a command: traps, and the end of what is over. -/
def settle (i : Interpreter) (flow : Flow) (isChecked : Bool) (status : Nat) : Act Nat := do
  attend (trapAction i.run)
  if isChecked && !flow.isTested && status != 0 && (← hasOption "errexit") then throw .over
  if flow.isLast then throw .over
  return (← get).status

/-- Runs a command with everything in it. -/
def command (i : Interpreter) (body : Option Command) (flow : Flow) : Act Nat := do
  let settles (status : Nat) (isChecked : Bool := false) : Act Nat := do
    setStatus status
    settle i flow isChecked status
  match body with
  | none => settle i flow false 0
  | some c =>
    if ← hasOption "noexec" then return ← settle i flow false 0
    attend (trapAction i.run)
    match c with
    | .simple line assignments words redirections =>
      settles (← simple i line assignments words redirections flow) true
    | .pipeline inBackground parts => settles (← pipeline i inBackground parts flow) true
    | .subshell line body redirections =>
      settles (← apart i line false body redirections flow) true
    | .background line body redirections =>
      settles (← apart i line true (some body) redirections flow) true
    | .redirected line body redirections => settles (← redirected i line body redirections flow)
    | .negated body =>
      let status ← i.run (some body) { isTested := true }
      settles (if (← get).skip.isSome then status else if status = 0 then 1 else 0)
    | .both left right =>
      let status ← i.run (some left) { isTested := true }
      if status != 0 || (← get).skip.isSome then settle i flow false status
      else settles (← i.run (some right) flow)
    | .either left right =>
      let status ← i.run (some left) { isTested := true }
      if status = 0 || (← get).skip.isSome then settle i flow false status
      else settles (← i.run (some right) flow)
    | .sequence left right =>
      let status ← i.run (some left) { isTested := flow.isTested }
      if (← get).skip.isSome then settle i flow false status
      else settles (← i.run (some right) flow)
    | .branch test success failure =>
      let status ← i.run test { isTested := true }
      if (← get).skip.isSome then settle i flow false status
      else if status = 0 then settles (← i.run success flow)
      else if failure.isSome then settles (← i.run failure flow)
      else settles 0
    | .loop whileFails test body =>
      settles (← inLoop
        (testLoop i.run { isTested := flow.isTested } whileFails test body 0 Doing.maxSteps))
    | .each line name words body =>
      modify fun s ↦ { s with place := line }
      let rec all : List Word → Act (List Octets)
        | [] => return []
        | w :: rest => return (← fieldsOf (capture i.run) w) ++ (← all rest)
      let values ← all words
      settles (← inLoop (eachLoop i.run { isTested := flow.isTested } name body 0 values))
    | .choose line word arms =>
      modify fun s ↦ { s with place := line }
      let text ← textOf (capture i.run) { tilde := true } word
      settles (← chooseArm i text flow arms)
    | .define line name body =>
      define line name body
      settles 0

/-- How deep commands may be run inside each other. -/
def maxDepth : Nat := 1000000

/-- Runs commands, down to a depth. -/
def runner (programs : Programs) : Nat → Runner
  | 0 => fun _ _ ↦ throw .error
  | depth + 1 => command { programs, run := runner programs depth }

end Interpreter

end ShellEngine.Machine.Script
