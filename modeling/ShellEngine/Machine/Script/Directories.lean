import ShellEngine.Machine.Script.Lookup

/-!
# The current directory of a script

The interpreter remembers the path by which it came to its directory. Names of links stay in it, and
to go up is to drop its last name. The path without links is asked for only when it is needed.
-/

namespace ShellEngine.Machine.Script

namespace Act

/-- The path of the current directory without links; empty, with a message, if it has none. -/
def physicalDirectory : Act Octets := do
  match ← doing <| Doing.look fun w ↦ w.tree.pathOf w.current.cwd with
  | some path => return path
  | none =>
    warn ("getcwd() failed: " ++ Errno.text .noEntry).toList
    return []

/-- Remembers the path of the current directory; without one, the path without links. -/
def setDirectory (path : Option Octets) (keepsOld : Bool) : Act Unit := do
  if keepsOld then
    setValue "OLDPWD".toList (some (← get).directory) { exported := true }
  let (directory, physical) ←
    match path with
    | some path => pure (path, none)
    | none => do
      let path ← physicalDirectory
      pure (path, if path.isEmpty then none else some path)
  modify fun s ↦ { s with directory, physical }
  setValue "PWD".toList (some directory) { exported := true }

/-- The path that a path leads to from a directory, without its `.` and `..`. -/
def pathFrom (directory path : Octets) : Octets :=
  let isAbsolute := path.head? = some '/'
  let isDouble (os : Octets) : Bool :=
    match os with
    | '/' :: '/' :: c :: _ => c != '/'
    | ['/', '/'] => true
    | _ => false
  -- two slashes in front are kept
  let root := if isDouble (if isAbsolute then path else directory) then ['/', '/'] else ['/']
  let above := if isAbsolute then [] else FileTree.names directory
  let step (names : List Octets) (name : Octets) : List Octets :=
    if name = ['.'] then names
    else if name = ['.', '.'] then names.drop 1
    else name :: names
  let names := ((FileTree.names path).foldl step above.reverse).reverse
  root ++ (List.intersperse ['/'] names).flatten

/-- Enters a directory. -/
def enter (path : Octets) (isPhysical : Bool) : Act Bool := do
  let s ← get
  let isKnown := path.head? = some '/' || !s.directory.isEmpty
  let shown := if isPhysical || !isKnown then none else some (pathFrom s.directory path)
  let entered ← doing <| Doing.change fun w ↦
    let found := w.tree.resolve w.current.cwd (shown.getD path)
    match found with
    | .ok n =>
      if w.tree.isDirectory n then (true, w.modifyTask w.self fun t ↦ { t with cwd := n })
      else (false, w)
    | .error _ => (false, w)
  if entered then
    setDirectory shown true
    modify fun s ↦ { s with located := s.located.map fun (name, n, _) ↦ (name, n, true) }
  return entered

/-- Whether a path leads to a directory. -/
def isDirectoryAt (path : Octets) : Act Bool := do
  let status ← doing <| Doing.look fun w ↦ w.status w.current.toStanding path true
  return (status.toOption.map fun s ↦ decide (s.kind = .directory)).getD false

end Act

namespace Builtin

open Act

/-- Whether the last of the options `-L` and `-P` asks for paths without links. -/
def wantsPhysical (found : List (Char × Octets)) : Bool := (found.getLast?.map (·.1)) = some 'P'

/-- Whether a path says itself from where it leads. -/
def isAnchored (path : Octets) : Bool :=
  match path with
  | '/' :: _ | ['.'] | '.' :: '/' :: _ | ['.', '.'] | '.' :: '.' :: '/' :: _ => true
  | _ => false

/-- The first of the usual places with a directory of this name, and whether it is to be told. -/
def placeOf (path : Octets) : List Octets → Act (Option (Octets × Bool))
  | [] => return none
  | place :: rest => do
    let found := Image.join place path
    if ← isDirectoryAt found then return some (found, !place.isEmpty)
    placeOf path rest

def cd : Builtin := fun _ args ↦ do
  let (found, args) ← letters "LP" args
  let isPhysical := wantsPhysical found
  let (path, tells) ←
    match args.head? with
    | none => pure ((← valueOf "HOME").getD [], false)
    | some ['-'] => pure ((← valueOf "OLDPWD").getD [], true)
    | some path => pure (path, false)
  let (path, goal, tells) ←
    if isAnchored path then pure (path, path, tells)
    else do
      let path := if path.isEmpty then ['.'] else path
      match ← valueOf "CDPATH" with
      | none => pure (path, path, tells)
      | some places =>
        match ← placeOf path (Octets.splitOn ':' places) with
        | some (goal, isTold) => pure (path, goal, tells || isTold)
        | none => pure (path, path, tells)
  if !(← enter goal isPhysical) then fail ("can't cd to ".toList ++ path)
  if tells then print ((← get).directory ++ ['\n'])
  return 0

def pwd : Builtin := fun _ args ↦ do
  let (found, _) ← letters "LP" args
  if wantsPhysical found then
    let s ← get
    match s.physical with
    | some path => print (path ++ ['\n'])
    | none =>
      let path ← physicalDirectory
      modify fun s ↦ { s with physical := if path.isEmpty then none else some path }
      setValue "PWD".toList (some s.directory) { exported := true }
      print (path ++ ['\n'])
  else print ((← get).directory ++ ['\n'])
  return 0

end Builtin

end ShellEngine.Machine.Script
