import ShellEngine.Machine.Script.Expansion

/-!
# Redirections of commands

All words of the redirections are expanded before the first file is opened. A descriptor that is
redirected is moved before, to a number that no script can name, and put back behind the command;
programs do not get the copies. What goes wrong while the standard error is moved is told nobody.
-/

namespace ShellEngine.Machine.Script

/-- A redirection with its words expanded. -/
inductive Prepared
  | file (fd : Nat) (use : FileUse) (path : Octets)
  | copy (fd source : Nat)
  | closing (fd : Nat)
  | document (fd number : Nat)

namespace Act

/-- How commands that are embedded in words are run. -/
abbrev Capture := Option Command → Act Octets

/-- Complains about the script while it is being run. -/
def wrongScript {α : Type} (message : String) : Act α := do
  modify fun s ↦ { s with place := s.reached }
  fail ("Syntax error: " ++ message).toList

/-- Expands the words of redirections. -/
def prepare (capture : Capture) : List Redirection → Act (List Prepared)
  | [] => return []
  | r :: rest => do
    let p ←
      match r with
      | .file fd use path => pure (.file fd use (← textOf capture { tilde := true } path))
      | .document fd number => pure (.document fd number)
      | .copy fd _ source =>
        match ← textOf capture { tilde := true } source with
        | ['-'] => pure (.closing fd)
        | [d] =>
          if d.isDigit then pure (.copy fd (d.toNat - '0'.toNat))
          else wrongScript "Bad fd number"
        | _ => wrongScript "Bad fd number"
    return p :: (← prepare capture rest)

/-- The first number of the copies of descriptors. -/
def firstCopy : Nat := 10

/-- Moves a descriptor away before it is redirected: it is closed until it leads elsewhere. -/
def saveDescriptor (fd : Nat) : Act Unit := do
  match (← get).replaced with
  | [] => return
  | level :: outer =>
    if level.any (·.1 == fd) then return
    let copy? ← doing <| Doing.change fun w ↦
      let streams := w.current.streams
      match streams.lookup fd with
      | none => (none, w)
      | some f =>
        let copy := Doing.freeDescriptor streams firstCopy
        (some copy, w.setStreams w.self ((copy, f) :: Doing.unbound fd streams))
    modify fun s ↦ { s with replaced := ((fd, copy?) :: level) :: outer }

/-- Prepares to put back what redirections replace. -/
def pushReplaced : Act Unit := modify fun s ↦ { s with replaced := [] :: s.replaced }

/-- Puts back what redirections replaced, or with `keeps` leaves the redirections in place. -/
def popReplaced (keeps : Bool) : Act Unit := do
  match (← get).replaced with
  | [] => return
  | level :: replaced =>
    modify fun s ↦ { s with replaced }
    let copies := level.filterMap (·.2)
    doing <| Doing.setStreams fun streams ↦
      let restored := level.foldl (fun found (e : Nat × Option Nat) ↦
        if keeps then found
        else
          match e.2.bind fun copy ↦ streams.lookup copy with
          | some f => Doing.bound e.1 f found
          | none => Doing.unbound e.1 found) streams
      restored.filter fun s ↦ !copies.contains s.1

/-- Puts back what was replaced down to a depth. -/
def unwindReplaced (depth : Nat) : Act Unit := do go (← get).replaced.length
where
  go : Nat → Act Unit
    | 0 => return
    | fuel + 1 => do
      if depth < (← get).replaced.length then
        popReplaced false
        go fuel

/-- The text of an error in opening. -/
def openMessage (creates : Bool) (e : Errno) : Octets :=
  if e = .noEntry || e = .notDirectory then
    (if creates then "Directory nonexistent" else "No such file").toList
  else e.text.toList

/-- How a file is opened. -/
def modeOf : FileUse → OpenMode
  | .input => .input
  | .output | .overwriting => .output false
  | .append => .output true
  | .both => { reads := true, writes := true, creates := true }

/-- Opens the file of a redirection. -/
def openFile (use : FileUse) (path : Octets) : Act Nat := do
  let mode := modeOf use
  let cannot {α : Type} (creates : Bool) (e : Errno) : Act α :=
    let verb := if creates then "cannot create " else "cannot open "
    fail (verb.toList ++ path ++ ": ".toList ++ openMessage creates e)
  let open_ (mode : OpenMode) (creates : Bool) : Act Nat := do
    match ← doing (Doing.openPath path mode) with
    | .ok f => return f
    | .error e => cannot creates e
  if use = .output && (← hasOption "noclobber") then
    let status ← doing <| Doing.look fun w ↦ w.status w.current.toStanding path true
    match status with
    | .error _ => open_ { mode with exclusive := true } true
    | .ok s =>
      if s.kind = .regular then cannot true .exists_
      open_ { writes := true } false
  else open_ mode mode.creates

/-- The open file with a document in it. -/
def openDocument (capture : Capture) (number : Nat) : Act Nat := do
  let text ←
    match (← get).documents.lookup number with
    | none => pure []
    | some d =>
      if d.expands then textOf capture { isQuoted := true } d.text
      else pure (Word.characters d.text)
  doing <| Doing.change fun w ↦
    let ((reader, writer), w) := w.pipe (some Doing.blockSize)
    (reader, (w.write writer text).toOption.getD w)

/-- Does one redirection. -/
def redirectOne (capture : Capture) (p : Prepared) : Act Unit := do
  let install (fd file : Nat) : Act Unit := do
    saveDescriptor fd
    doing (Doing.bind fd file)
  match p with
  | .file fd use path => install fd (← openFile use path)
  | .document fd number => install fd (← openDocument capture number)
  | .closing fd =>
    saveDescriptor fd
    doing (Doing.close fd)
  | .copy fd source =>
    if fd = source then return
    saveDescriptor fd
    match ← doing (Doing.stream? source) with
    | some file => doing (Doing.bind fd file)
    | none => fail (Octets.ofNat source ++ ": ".toList ++ (Errno.text .badDescriptor).toList)

def redirectAll (capture : Capture) (ps : List Prepared) : Act Unit :=
  ps.forM (redirectOne capture)

/-- Does redirections; false if one of them failed, which was told. -/
def redirectSafely (capture : Capture) (ps : List Prepared) : Act Bool := do
  try
    redirectAll capture ps
    return true
  catch stop =>
    if stop = .error then return false
    throw stop

end Act

end ShellEngine.Machine.Script
