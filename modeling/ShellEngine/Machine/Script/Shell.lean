import ShellEngine.Machine.FileStatus
import ShellEngine.Machine.Script.Arithmetic
import ShellEngine.Machine.Script.Grammar
import ShellEngine.Machine.Script.Pattern
import ShellEngine.Machine.Tools.Options

/-!
# The state of the script interpreter

An interpreter has variables, functions, options, jobs, and the status of the last command. It acts
on the world like any program. What it does may be cut short by an error, or by the wish to end.

Loops and functions are left in another way: `skip` says what is being left, and everything that
runs commands looks at it.
-/

namespace ShellEngine.Machine.Script

/-- A variable. It may have marks without having a value. -/
structure Variable where
  value : Option Octets
  exported : Bool := false
  readOnly : Bool := false
  /-- Whether it stays known when it is unset. -/
  isFixed : Bool := false
  deriving Inhabited

/-- What a function hides for the time it runs, to be put back behind it. -/
inductive Hidden
  | variable (name : Octets) (old : Option Variable)
  | options (names : List String)

/-- What is being left. -/
inductive Skip
  | break_
  | continue_
  /-- A function or a sourced script, by a command that gives a status. -/
  | return_
  /-- The same by a command that gives none. -/
  | plainReturn
  deriving DecidableEq

/-- A process of a job. -/
structure Member where
  pid : Nat
  ending : Option ProcessEnd := none

/-- Processes that were started together. -/
structure Job where
  number : Nat
  members : List Member
  /-- Whether somebody waited for it. -/
  isWaitedFor : Bool := false

/-- The limits of programs, each with the one that it cannot be raised above. -/
def usualLimits : List (Char × Option Nat × Option Nat) :=
  [('t', none, none), ('f', none, none), ('d', none, none), ('s', some 8192, none),
   ('c', some 0, none), ('m', none, none), ('l', some 8192, some 8192),
   ('p', some 128604, some 128604), ('n', some 20000, some 20000), ('v', none, none),
   ('w', none, none), ('r', some 0, some 0)]

/-- An interpreter at work. -/
structure Shell where
  /-- The name of the interpreter, or of the script. -/
  name : Octets
  positional : List Octets := []
  /-- Which argument `getopts` looks at next, and where in it. -/
  optionIndex : Nat := 1
  optionOffset : Option Nat := none
  bindings : List (Octets × Variable) := []
  functions : List (Octets × (Nat × Command)) := []
  aliases : List (Octets × Octets) := []
  /-- Where on the search path commands were found, and whether that is to be looked up again. -/
  located : List (Octets × (Nat × Bool)) := []
  /-- The options that are on. -/
  options : List String := []
  status : Nat := 0
  /-- The status of the last embedded command. -/
  embedded : Nat := 0
  /-- The status before a trap, while one is run. -/
  saved : Option Nat := none
  pid : Nat
  lastBackground : Nat := 0
  /-- The line of the command that is being run. -/
  place : Nat := 0
  /-- The line up to which the script was read. -/
  reached : Nat := 0
  /-- How many functions are being run. -/
  depth : Nat := 0
  loops : Nat := 0
  skip : Option Skip := none
  skipCount : Nat := 0
  /-- The command that is to be named in messages. -/
  command : Option Octets := none
  /-- What is hidden, by each command that may hide variables. -/
  hidden : List (List Hidden) := []
  /-- What each redirection replaced: for a descriptor its copy, if it was open. -/
  replaced : List (List (Nat × Option Nat)) := []
  jobs : List Job := []
  /-- What is run when a signal comes; signal 0 is the end of the script. -/
  traps : List (Nat × Octets) := []
  /-- Signals that were ignored from the start. -/
  deaf : List Nat := []
  /-- The path by which the current directory was entered. -/
  directory : Octets := []
  limits : List (Char × Option Nat × Option Nat) := usualLimits
  /-- The path without links. -/
  physical : Option Octets := none
  /-- The texts that commands have as their input. -/
  documents : List (Nat × Document) := []
  nextDocument : Nat := 0
  /-- What a command of the interpreter printed, in reverse; and whether some of it was lost. -/
  printed : List Octets := []
  isLost : Bool := false
  /-- Whether this is a part of a script that runs on its own. -/
  isPart : Bool := false

/-- Why a script does not go on. -/
inductive Stop
  | error
  /-- The script asked for its end. -/
  | exit
  /-- A part of the script is over, or a program could not take its place. -/
  | over
  deriving DecidableEq

/-- What a script does. -/
abbrev Act := ExceptT Stop (StateT Shell Doing)

/-- What is known about the place of a command. -/
structure Flow where
  /-- Whether its failure is no failure of the script. -/
  isTested : Bool := false
  /-- Whether nothing comes after it. -/
  isLast : Bool := false

/-- How commands are run. -/
abbrev Runner := Option Command → Flow → Act Nat

namespace Act

/-- Does something that any program can do. -/
def doing {α : Type} (d : Doing α) : Act α := d

def setStatus (status : Nat) : Act Unit := modify fun s ↦ { s with status }

def hasOption (name : String) : Act Bool := return (← get).options.contains name

def setOption (name : String) (on : Bool) : Act Unit :=
  modify fun s ↦
    let others := s.options.filter (· != name)
    { s with options := if on then name :: others else others }

/-- How long a command of the interpreter takes, in microseconds. -/
def stepTime : Nat := 10

/-! ## Messages -/

def put (fd : Nat) (os : Octets) : Act Unit := Doing.put fd os

/-- Prints something, which is written when the command is over. -/
def print (os : Octets) : Act Unit := modify fun s ↦ { s with printed := os :: s.printed }

/-- Writes what was printed. -/
def flush : Act Unit := do
  let s ← get
  if s.printed.isEmpty then return
  set { s with printed := [] }
  match ← doing (Doing.write 1 s.printed.reverse.flatten) with
  | .ok () => return
  | .error _ => modify fun s ↦ { s with isLost := true }

/-- Writes a message with the place in the script. -/
def warn (message : Octets) : Act Unit := do
  let s ← get
  let command := (s.command.map (· ++ ": ".toList)).getD []
  let place := s.name ++ ": ".toList ++ Octets.ofNat s.place ++ ": ".toList
  put 2 (place ++ command ++ message ++ ['\n'])

/-- Ends what is being done with a message. -/
def fail {α : Type} (message : Octets) (status : Nat := 2) (stop : Stop := .error) : Act α := do
  setStatus status
  warn message
  throw stop

def badNumber {α : Type} (os : Octets) : Act α := fail ("Illegal number: ".toList ++ os)

/-- A whole number that is not negative. -/
def number (os : Octets) : Act Nat := do
  match Calculator.numberOf (some 10) os with
  | .ok n => if 0 ≤ n && n ≤ 2147483647 then return n.toNat else badNumber os
  | .error _ => badNumber os

/-! ## Variables -/

def known? (name : Octets) : Act (Option Variable) :=
  return (← get).bindings.lookup name

/-- The value of a variable. -/
def value? (name : Octets) : Act (Option Octets) := do
  return (← known? name).bind Variable.value

def valueOf (name : String) : Act (Option Octets) := value? name.toList

/-- Puts a variable in the place of another one of its name, or behind all others. -/
def putVariable (name : Octets) (v : Variable) : Act Unit :=
  modify fun s ↦
    { s with bindings :=
        if s.bindings.any (·.1 == name) then
          s.bindings.map fun e ↦ if e.1 == name then (name, v) else e
        else s.bindings ++ [(name, v)] }

def dropVariable (name : Octets) : Act Unit :=
  modify fun s ↦ { s with bindings := s.bindings.filter (·.1 != name) }

/-- Forgets where commands were found. -/
def forgetLocations : Act Unit := modify fun s ↦ { s with located := [] }

/-- What follows from a new value of a variable. -/
def react (name : Octets) (value : Option Octets) : Act Unit := do
  if name = "PATH".toList then forgetLocations
  else if name = "OPTIND".toList then
    match value with
    | none => modify fun s ↦ { s with optionIndex := 1, optionOffset := none }
    | some os =>
      let n ← number os
      modify fun s ↦ { s with optionIndex := if n = 0 then 1 else n, optionOffset := none }

/-- The marks that a variable gets with its value. -/
structure Marks where
  exported : Bool := false
  readOnly : Bool := false
  isFixed : Bool := false

/-- Gives a variable a value, or takes it away. -/
def setValue (name : Octets) (value : Option Octets) (marks : Marks := {}) : Act Unit := do
  let all ← hasOption "allexport"
  let exported := marks.exported || all
  match ← known? name with
  | some old =>
    if old.readOnly then fail (name ++ ": is read only".toList)
    react name value
    if value.isNone && !exported && !marks.readOnly && !marks.isFixed && !old.isFixed then
      dropVariable name
    else
      putVariable name
        { value, exported := exported || old.exported, readOnly := marks.readOnly || old.readOnly
          isFixed := marks.isFixed || old.isFixed }
  | none =>
    if value.isSome || exported || marks.readOnly || marks.isFixed then
      putVariable name { value, exported, readOnly := marks.readOnly, isFixed := marks.isFixed }

/-- Gives a value to a variable whose name may be none. -/
def assign (name : Octets) (value : Option Octets) (marks : Marks := {}) : Act Unit := do
  if !isName name then
    fail (name.takeWhile (· != '=') ++ ": bad variable name".toList)
  setValue name value marks

/-- The name and the value of an assignment. -/
def splitAssignment (os : Octets) : Octets × Option Octets :=
  let name := os.takeWhile (· != '=')
  (name, if name.length < os.length then some (os.drop (name.length + 1)) else none)

/-- Hides a variable, or the options, until the command that hides it is over. -/
def hide (os : Octets) (marks : Marks := {}) : Act Unit := do
  let s ← get
  let note (h : Hidden) : Act Unit :=
    modify fun s ↦
      match s.hidden with
      | hs :: outer => { s with hidden := (h :: hs) :: outer }
      | [] => s
  if os = ['-'] then note (.options s.options)
  else
    let (name, value) := splitAssignment os
    match s.bindings.lookup name with
    | none =>
      let marks := { marks with isFixed := true }
      if value.isSome then setValue name value marks else assign name value marks
      note (.variable name none)
    | some old =>
      putVariable name { old with isFixed := true }
      if value.isSome then setValue name value marks
      note (.variable name (some old))

/-- Puts back what a command hid. -/
def reveal : Act Unit := do
  match (← get).hidden with
  | [] => return
  | hs :: hidden =>
    modify fun s ↦ { s with hidden }
    for h in hs do
      match h with
      | .options options => modify fun s ↦ { s with options }
      | .variable name none => dropVariable name
      | .variable name (some old) =>
        react name old.value
        putVariable name old

/-- The group of a name. Programs get the variables of one group after those of another. -/
def group (size : Nat) (name : Octets) : Nat :=
  name.foldl (fun n c ↦ n + c.toNat) ((name.head?.map Char.toNat).getD 0 * 16) % size

/-- The environment that programs are started with. -/
def environment : Act (List Octets) := do
  let s ← get
  let exported := s.bindings.filterMap fun e ↦
    match e.2.value with
    | some value => if e.2.exported then some (e.1, value) else none
    | none => none
  return (exported.mergeSort fun a b ↦ group 39 a.1 ≤ group 39 b.1).map fun e ↦ e.1 ++ '=' :: e.2

/-- The characters that separate fields. -/
def separators : Act Octets := return (← valueOf "IFS").getD [' ', '\t', '\n']

def searchPath : Act Octets := return (← valueOf "PATH").getD []

/-! ## Options -/

/-- The options with their letters, as they are listed. -/
def optionNames : List (String × Option Char) :=
  [("errexit", 'e'), ("noglob", 'f'), ("ignoreeof", 'I'), ("interactive", 'i'), ("monitor", 'm'),
   ("noexec", 'n'), ("stdin", 's'), ("xtrace", 'x'), ("verbose", 'v'), ("vi", 'V'),
   ("emacs", 'E'), ("noclobber", 'C'), ("allexport", 'a'), ("notify", 'b'), ("nounset", 'u'),
   ("privileged", 'p'), ("nolog", none), ("debug", none)]

/-- The letters of the options that are on. -/
def optionLetters : Act Octets := do
  let s ← get
  return optionNames.reverse.filterMap fun o ↦ if s.options.contains o.1 then o.2 else none

/-! ## Lists of values -/

/-- A value in the quotes that let it be read again. -/
def quotedValue (os : Octets) : Octets := go (os.length + 1) os
where
  go : Nat → Octets → Octets
    | 0, _ => []
    | fuel + 1, os =>
      let plain := os.takeWhile (· != '\'')
      let rest := os.drop plain.length
      let quotes := rest.takeWhile (· == '\'')
      let rest := rest.drop quotes.length
      let shown := '\'' :: plain ++ ['\'']
      if quotes.isEmpty then shown
      else
        shown ++ '"' :: quotes ++ ['"'] ++ if rest.isEmpty then [] else go fuel rest

/-- Prints variables in the order of their names. -/
def printVariables (before : Octets) (p : Variable → Bool) : Act Unit := do
  let s ← get
  let wanted := s.bindings.filter fun e ↦ p e.2
  for (name, _) in wanted.mergeSort fun a b ↦ !decide (b.1 < a.1) do
    let value ← value? name
    let shown :=
      match value with
      | some os => name ++ '=' :: quotedValue os
      | none => name
    print ((if before.isEmpty then [] else before ++ [' ']) ++ shown ++ ['\n'])

/-! ## Options of commands -/

/-- The letters of options in front of arguments, with the values of those that take one (their
letter is followed by a colon in `allowed`), and the other arguments. -/
def letters (allowed : String) (args : List Octets) :
    Act (List (Char × Octets) × List Octets) := go [] false args
where
  /-- `skips` tells that the first argument was the value of the option before it. -/
  go (found : List (Char × Octets)) (skips : Bool) :
      List Octets → Act (List (Char × Octets) × List Octets)
    | [] => return (found, [])
    | arg :: rest => do
      if skips then go found false rest
      else
        match arg with
        | ['-', '-'] => return (found, rest)
        | '-' :: c :: cs =>
          let (more, skips) ← inArgument rest.head? (c :: cs)
          go (found ++ more) skips rest
        | _ => return (found, arg :: rest)
  /-- The options in one argument, and whether the last one has the next argument for its value. -/
  inArgument (next : Option Octets) : Octets → Act (List (Char × Octets) × Bool)
    | [] => return ([], false)
    | c :: cs => do
      let spec := allowed.toList.dropWhile (· != c)
      if spec.isEmpty || c == ':' then fail ("Illegal option -".toList ++ [c])
      if spec[1]? = some ':' then
        if !cs.isEmpty then return ([(c, cs)], false)
        match next with
        | some value => return ([(c, value)], true)
        | none => fail ("No arg for -".toList ++ c :: " option".toList)
      else
        let (more, skips) ← inArgument next cs
        return ((c, []) :: more, skips)

end Act

end ShellEngine.Machine.Script
