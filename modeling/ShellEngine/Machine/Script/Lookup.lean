import ShellEngine.Machine.Script.Settings

/-!
# Looking up commands

A name stands for a function, for a command of the interpreter, or for a program on the search path.
Where programs were found is remembered until the search path changes. When another directory is
entered, a place behind a relative one may be another; then the search begins again where the
program was found last.
-/

namespace ShellEngine.Machine.Script

/-- How much of the language a command of the interpreter is. -/
inductive Rank
  /-- Its errors end the script, and its assignments stay. -/
  | special
  | regular
  /-- It is there for speed only, and a program of its name would do the same. -/
  | plain
  deriving DecidableEq

/-- The commands of the interpreter. -/
def builtinRanks : List (String × Rank) :=
  [".", ":", "break", "continue", "eval", "exec", "exit", "export", "local", "readonly", "return",
    "set", "shift", "times", "trap", "unset"].map (·, .special) ++
  ["alias", "bg", "cd", "command", "false", "fg", "getopts", "jobs", "kill", "pwd", "read", "true",
    "type", "ulimit", "umask", "unalias", "wait"].map (·, .regular) ++
  ["[", "chdir", "echo", "hash", "printf", "test"].map (·, .plain)

def rankOf? (name : Octets) : Option Rank :=
  (builtinRanks.find? fun e ↦ e.1.toList == name).map (·.2)

/-- Whether the arguments of a command may be assignments. -/
def takesAssignments (name : Octets) : Bool :=
  ["alias", "export", "local", "readonly"].any fun s ↦ s.toList == name

/-- What a name stands for. -/
inductive Meaning
  | function (line : Nat) (body : Command)
  | builtin (rank : Rank)
  /-- A program at this place of the search path, or at the path that the name is. -/
  | program (place : Option Nat)
  | unknown

/-- How a name is looked up. -/
structure Seeking where
  /-- Whether programs are left aside. -/
  onlyOwn : Bool := false
  functions : Bool := true
  /-- Whether it is told that nothing was found. -/
  complains : Bool := false
  /-- Whether a path has to lead to something. -/
  checksPaths : Bool := false
  /-- The search path, if it is not the usual one. -/
  path : Option Octets := none

namespace Act

/-- The usual places of programs. -/
def standardPath : Octets := "/usr/local/sbin:/usr/local/bin:/usr/sbin:/usr/bin:/sbin:/bin".toList

/-- Remembers where on the search path a program is; none forgets it. -/
def locate (name : Octets) (place : Option Nat) : Act Unit :=
  modify fun s ↦
    { s with located :=
        match place with
        | none => s.located.filter (·.1 != name)
        | some n =>
          if s.located.any (·.1 == name) then
            s.located.map fun e ↦ if e.1 == name then (name, n, false) else e
          else s.located ++ [(name, n, false)] }

/-- Searches for a program in some places. Those before the one where it was found last are left
out, if they cannot have become others. -/
def searchPlaces (w : World) (paths : List Octets) (last : Option Nat) : Except Errno Nat :=
  go .noEntry 0 paths
where
  go (found : Errno) (place : Nat) : List Octets → Except Errno Nat
    | [] => .error found
    | path :: rest =>
      let isSettled := path.head? = some '/' && (last.map fun n ↦ decide (place ≤ n)).getD false
      if isSettled then
        if last = some place then .ok place else go found (place + 1) rest
      else
        match w.status w.current.toStanding path true with
        | .error e =>
          go (if e = .noEntry || e = .notDirectory then found else e) (place + 1) rest
        | .ok s =>
          if s.kind = .regular && s.isExecutable then .ok place
          else go .accessDenied (place + 1) rest

/-- The text of an error in running a program. -/
def runMessage (e : Errno) : Octets :=
  if e = .noEntry || e = .notDirectory then "not found".toList else e.text.toList

/-- Looks up a name that is no path. -/
def lookupName (name : Octets) (how : Seeking) : Act Meaning := do
  let s ← get
  match if how.functions then s.functions.lookup name else none with
  | some (line, body) => return .function line body
  | none =>
    -- a function that is left aside leaves no room for a place
    let remembers := how.path.isNone && (s.functions.lookup name).isNone
    let known := if remembers then s.located.lookup name else none
    match rankOf? name, known with
    | some rank, _ => return .builtin rank
    | none, some (place, false) => return if how.onlyOwn then .unknown else .program (some place)
    | none, known =>
      if how.onlyOwn then return .unknown
      let path ←
        match how.path with
        | some path => pure path
        | none => searchPath
      let last := known.map (·.1)
      let found ← doing <| Doing.look fun w ↦ searchPlaces w (Image.candidates path name) last
      match found with
      | .ok place =>
        if remembers then locate name (some place)
        return .program (some place)
      | .error e =>
        if remembers then locate name none
        if how.complains then warn (name ++ ": ".toList ++ runMessage e)
        return .unknown

/-- What a name stands for. -/
def lookup (name : Octets) (how : Seeking) : Act Meaning := do
  if !name.contains '/' then return ← lookupName name how
  if !how.checksPaths then return .program none
  let status ← doing <| Doing.look fun w ↦ w.status w.current.toStanding name true
  return if status.isOk then .program none else .unknown

/-- The path at a place of a search path. -/
def pathAt (searchPath name : Octets) (place : Nat) : Octets :=
  (Image.candidates searchPath name).getD place name

end Act

namespace Builtin

open Act

/-- Describes what a name stands for, in a sentence or so that it can be read again. -/
def describe (name : Octets) (path : Option Octets) (inSentence : Bool) : Act Nat := do
  let s ← get
  if inSentence then print name
  let say (sentence brief : Octets) : Act Nat := do
    print (if inSentence then sentence else brief)
    print ['\n']
    return 0
  if Token.keywords.any fun k ↦ k.1.toList == name then
    return ← say " is a shell keyword".toList name
  if let some text := s.aliases.lookup name then
    return ← say (" is an alias for ".toList ++ text)
      ("alias ".toList ++ name ++ '=' :: quotedValue text)
  let known := if path.isSome then none else s.located.lookup name
  let isTracked := known.isSome && (s.functions.lookup name).isNone
  let meaning ←
    if path.isNone && (s.functions.lookup name).isNone && isTracked then
      pure (.program (known.map (·.1)))
    else lookup name { checksPaths := true, path }
  match meaning with
  | .program place =>
    let searched ←
      match path with
      | some path => pure path
      | none => searchPath
    let found := (place.map (pathAt searched name)).getD name
    say ((if isTracked then " is a tracked alias for ".toList else " is ".toList) ++ found) found
  | .function .. => say " is a shell function".toList name
  | .builtin rank =>
    say ((if rank = .special then " is a special shell builtin" else " is a shell builtin").toList)
      name
  | .unknown =>
    if inSentence then print ": not found\n".toList
    return 127

def type : Builtin := fun _ args ↦ do
  let mut status := 0
  for name in args do
    if (← describe name none true) != 0 then status := 127
  return status

/-- What is left of `command` where it does not run one. -/
def command : Builtin := fun _ args ↦ do
  let (found, args) ← letters "pvV" args
  let path := if found.any (·.1 == 'p') then some standardPath else none
  let isLong := found.any (·.1 == 'V')
  match args with
  | name :: _ =>
    if isLong || found.any (·.1 == 'v') then return ← describe name path isLong
    return 0
  | [] => return 0

def hash : Builtin := fun _ args ↦ do
  let (found, names) ← letters "r" args
  if !found.isEmpty then
    forgetLocations
    return 0
  if names.isEmpty then
    let located := (← get).located.mergeSort fun a b ↦ group 31 a.1 ≤ group 31 b.1
    let path ← searchPath
    for (name, place, isDoubtful) in located do
      print (pathAt path name place ++ (if isDoubtful then ['*'] else []) ++ ['\n'])
    return 0
  let mut status := 0
  for name in names do
    if (← get).functions.all (·.1 != name) then locate name none
    match ← lookup name { complains := true } with
    | .unknown => status := 1
    | _ => pure ()
  return status

end Builtin

end ShellEngine.Machine.Script
