import ShellEngine.Machine.Image
import ShellEngine.Machine.Quoting
import ShellEngine.Machine.Tools.Options

/-!
# The tool that changes the environment

`env` runs a program in an environment with some variables more or less, or lists that environment.
Its options may come together in one argument, which is then split into words.
-/

namespace ShellEngine.Machine.Tools

/-- What the arguments ask for. -/
structure EnvironmentRequest where
  isEmpty : Bool := false
  endsInNul : Bool := false
  isTold : Bool := false
  unwanted : List Octets := []
  directory : Option Octets := none
  operands : List Octets := []

namespace EnvironmentRequest

def options : List OptionSpec :=
  [.flag "ignore-environment" "i", .flag "null" "0", .valued "unset" "u", .valued "chdir" "C",
   .valued "split-string" "S", .flag "debug" "v", .perhaps "block-signal",
   .perhaps "default-signal", .perhaps "ignore-signal", .flag "list-signal-handling",
   { key := "blank", letters := " \t\n\x0b\x0c\r".toList }] ++ OptionSpec.standard

/-- The code of a failure before the program is run. -/
def failure : Nat := 125

/-! ## Words in one argument -/

/-- How far a text is split into words. -/
structure Splitting where
  words : List Octets := []
  /-- The word that is being read, the last character first. -/
  word : Option Octets := none
  inSingle : Bool := false
  inDouble : Bool := false

namespace Splitting

/-- Goes on with a word, or begins one. -/
def touch (s : Splitting) : Splitting := { s with word := some (s.word.getD []) }

def put (s : Splitting) (os : Octets) : Splitting :=
  { s with word := some (os.reverse ++ s.word.getD []) }

def endWord (s : Splitting) : Splitting :=
  { s with words := s.words ++ (s.word.map List.reverse).toList, word := none }

def isQuoted (s : Splitting) : Bool := s.inSingle || s.inDouble

/-- The name of a variable in braces at the start of a text. -/
def known? (os : Octets) : Option Octets :=
  match os with
  | '$' :: '\x7b' :: c :: rest =>
    let name := c :: rest.takeWhile fun c ↦ c.isAlphanum || c == '_'
    if (c.isAlpha || c == '_') && (rest.drop (name.length - 1)).head? = some '\x7d' then some name
    else none
  | _ => none

/-- The control characters that letters behind a backslash stand for. -/
def escapes : List (Char × Char) :=
  [('f', '\x0c'), ('n', '\n'), ('r', '\r'), ('t', '\t'), ('v', '\x0b')]

/-- Splits a text into words; the value of a variable does not depend on what it stands in. -/
def split (value : Octets → Option Octets) : Nat → Splitting → Octets → Except Octets (List Octets)
  | 0, s, _ => .ok s.endWord.words
  | fuel + 1, s, os =>
    let go := split value fuel
    let blanks := " \t\n\x0b\x0c\r".toList
    match os with
    | [] =>
      if s.isQuoted then .error "no terminating quote in -S string".toList
      else .ok s.endWord.words
    | '\'' :: rest =>
      if s.inDouble then go (s.put ['\'']) rest
      else go ({ s with inSingle := !s.inSingle }.touch) rest
    | '"' :: rest =>
      if s.inSingle then go (s.put ['"']) rest
      else go ({ s with inDouble := !s.inDouble }.touch) rest
    | '#' :: rest =>
      if s.word.isNone && !s.isQuoted then .ok s.words else go (s.put ['#']) rest
    | '\\' :: rest =>
      let next := rest.head?
      if s.inSingle && next != some '\\' && next != some '\'' then go (s.put ['\\']) rest
      else
        match rest with
        | [] => .error "invalid backslash at end of string in -S".toList
        | '_' :: rest => if s.inDouble then go (s.put [' ']) rest else go s.endWord rest
        | 'c' :: _ =>
          if s.inDouble then .error "'\\c' must not appear in double-quoted -S string".toList
          else .ok s.endWord.words
        | c :: rest =>
          if "\"#$'\\".toList.contains c then go (s.put [c]) rest
          else
            match escapes.lookup c with
            | some c => go (s.put [c]) rest
            | none => .error ("invalid sequence '\\".toList ++ c :: "' in -S".toList)
    | '$' :: rest =>
      if s.inSingle then go (s.put ['$']) rest
      else
        match known? os with
        | none =>
          .error ("only $\x7bVARNAME\x7d expansion is supported, error at: ".toList ++ os)
        | some name =>
          let s := (value name).elim s s.put
          go s (rest.drop (name.length + 2))
    | c :: rest =>
      if blanks.contains c && !s.isQuoted then go s.endWord rest else go (s.put [c]) rest

end Splitting

/-! ## The arguments -/

/-- Complains and ends the tool. -/
def refuse (i : Invocation) (message : Octets) : Doing (Except Nat EnvironmentRequest) := do
  i.complain message
  return .error failure

/-- Sorts the arguments out; a number is the code of a tool that is to do nothing more. -/
def read (i : Invocation) : Nat → EnvironmentRequest → List Octets →
    Doing (Except Nat EnvironmentRequest)
  | 0, r, _ => return .ok r
  | fuel + 1, r, args => do
    let take (found : List (String × Option Octets) × Bool × Option OptionError)
        (rest : List Octets) : Doing (Except Nat EnvironmentRequest) := do
      let rest := if found.2.1 then rest.drop 1 else rest
      let r := found.1.foldl (fun (r : EnvironmentRequest) o ↦
        match o with
        | ("ignore-environment", _) => { r with isEmpty := true }
        | ("null", _) => { r with endsInNul := true }
        | ("debug", _) => { r with isTold := true }
        | ("unset", some name) => { r with unwanted := r.unwanted ++ [name] }
        | ("chdir", directory) => { r with directory }
        | _ => r) r
      if found.1.any (·.1 == "blank") then
        let letters := (args.headD []).filter " \t\n\x0b\x0c\r".toList.contains
        i.complain ("invalid option -- '".toList ++ letters.take 1 ++ ['\''])
        return .error (← i.misuse "use -[v]S to pass options in shebang lines".toList failure)
      if found.1.any fun o ↦ o.1 == "help" || o.1 == "version" then return .error 0
      if let some fault := found.2.2 then return .error (← i.misuse fault.message failure)
      match found.1.find? (·.1 == "split-string") with
      | some (_, some text) =>
        match Splitting.split (variableIn? i.env) (text.length + 1) {} text with
        | .error message => refuse i message
        | .ok words =>
          if r.isTold then
            Doing.put 2 ("split -S:  ".toList ++ i.shown text ++ ['\n'])
            let rec tell (front : String) : List Octets → Doing Unit
              | [] => return
              | word :: rest => do
                Doing.put 2 (front.toList ++ i.shown word ++ ['\n'])
                tell "     &    " rest
            tell " into:    " words
          read i fuel r (words ++ rest)
      | _ => read i fuel r rest
    match args with
    | ['-', '-'] :: rest => return .ok { r with operands := rest }
    | ('-' :: '-' :: text) :: rest => take (Arguments.word options rest.head? text) rest
    | ('-' :: c :: cs) :: rest => take (Arguments.letters options rest.head? (c :: cs)) rest
    | args => return .ok { r with operands := args }

/-- Says what is being done, if that is wanted. -/
def tell (r : EnvironmentRequest) (message : Octets) : Doing Unit := do
  if r.isTold then Doing.put 2 (message ++ ['\n'])

end EnvironmentRequest

/-- Puts an entry in the place of another one of its name, or behind all others. -/
def withEntry (env : List Octets) (entry : Octets) : List Octets :=
  let nameOf (e : Octets) : Octets := e.takeWhile (· != '=')
  if env.any fun e ↦ nameOf e == nameOf entry then
    env.map fun e ↦ if nameOf e == nameOf entry then entry else e
  else env ++ [entry]

/-- Where programs are looked for in an environment without a search path. -/
def usualPath : Octets := "/bin:/usr/bin".toList

/-- Lets a program take the place of the tool; ends only if there is none. -/
def runInstead (programs : Programs) (i : Invocation) (env : List Octets) (name : Octets)
    (args : List Octets) : Doing Nat := do
  let path := (variableIn? env "PATH".toList).getD usualPath
  let luggage : Image.Luggage := { args := name :: args, env }
  let found ← Doing.look fun w ↦
    if name.isEmpty then .error Errno.noEntry
    else if name.contains '/' then
      (Image.ofPath w.tree w.current.cwd luggage name).map (name, ·)
    else Image.search w.tree w.current.cwd luggage path name
  let become (tool : Tool) (name : Octets) (args : List Octets) : Doing Nat := do
    Doing.modifyTask fun t ↦ { t with block := env }
    Doing.finish (← programs tool { name, args, env })
  match found with
  | .ok (_, image) => become image.tool (image.name.getD name) (image.front ++ args)
  | .error e =>
    if e = .execFormat then become .script "/bin/sh".toList (name :: args)
    else
      i.failWith (i.shown name) e
      if e != .noEntry then return 126
      if name.any fun c ↦ c == ' ' || c == '\t' then
        i.complain "use -[v]S to pass options in shebang lines".toList
      return 127

def environment (programs : Programs) (i : Invocation) : Doing Nat :=
  i.closing EnvironmentRequest.failure do
    match ← EnvironmentRequest.read i Doing.maxSteps {} i.args with
    | .error code => return code
    | .ok r =>
      let (isEmpty, operands) :=
        match r.operands with
        | ['-'] :: rest => (true, rest)
        | operands => (r.isEmpty, operands)
      if isEmpty then r.tell "cleaning environ".toList
      else
        for name in r.unwanted do
          r.tell ("unset:    ".toList ++ name)
      if !isEmpty then
        if let some name := r.unwanted.find? fun n ↦ n.isEmpty || n.contains '=' then
          i.failWith ("cannot unset ".toList ++ i.shown name) .invalid
          return EnvironmentRequest.failure
      let env :=
        if isEmpty then []
        else i.env.filter fun e ↦ !r.unwanted.contains (e.takeWhile (· != '='))
      let entries := operands.takeWhile fun os ↦ os.contains '='
      for entry in entries do
        r.tell ("setenv:   ".toList ++ entry)
      let env := entries.foldl withEntry env
      match operands.drop entries.length with
      | [] =>
        if r.directory.isSome then
          return ← i.misuse "must specify command with --chdir (-C)".toList
            EnvironmentRequest.failure
        let last := if r.endsInNul then '\x00' else '\n'
        Doing.out (env.flatMap fun e ↦ e ++ [last])
        return 0
      | name :: args =>
        if r.endsInNul then
          return ← i.misuse "cannot specify --null (-0) with command".toList
            EnvironmentRequest.failure
        if let some path := r.directory then
          r.tell ("chdir:    ".toList ++ i.shown path)
          let entered ← Doing.attempt fun w ↦ do
            let n ← w.tree.resolve w.current.cwd path
            if !w.tree.isDirectory n then throw .notDirectory
            return ((), w.modifyTask w.self fun t ↦ { t with cwd := n })
          if let .error e := entered then
            i.failWith ("cannot change directory to ".toList ++ i.quoted path) e
            return EnvironmentRequest.failure
        if r.isTold then
          r.tell ("executing: ".toList ++ name)
          for (arg, n) in (name :: args).zipIdx do
            r.tell ("   arg[".toList ++ Octets.ofNat n ++ "]= ".toList ++ i.shown arg)
        runInstead programs i env name args

end ShellEngine.Machine.Tools
