import ShellEngine.Environment.Variables
import ShellEngine.Machine.Descriptors
import ShellEngine.Machine.Execution
import ShellEngine.Machine.Schedule

/-!
# The host of the engine

The machine as the engine sees it, which is one of its processes: with an environment, a current
directory, and descriptors. The paths and texts of the engine are Unicode; here they become bytes.
-/

namespace ShellEngine.Machine

/-- The machine with the engine's own process. -/
structure Host where
  world : World
  cwd : Nat
  environment : Variables := {}
  descriptors : Descriptors
  /-- How a nested instance of the engine runs. -/
  nested : Nested := fun _ w ↦ (1, w)

/-- A program that is ready to run. -/
structure Process where
  tool : Tool
  invocation : Invocation
  standing : Standing

namespace Host

/-! ## Paths -/

/-- A path as bytes; a NUL cannot be part of one. -/
def pathBytes (path : String) : Except IoError Octets :=
  if path.toList.contains '\x00' then .error .nulInPath else .ok (Octets.ofString path)

/-- Takes an error number for an error of input and output. -/
def lift {α : Type} (r : Except Errno α) : Except IoError α := r.mapError .os

def pathExists (h : Host) (path : String) : Bool :=
  match pathBytes path with
  | .ok os => (h.world.tree.resolve h.cwd os).isOk
  | .error _ => false

/-- The absolute path of the current directory. -/
def currentDirectory (h : Host) : Except IoError Octets :=
  match h.world.tree.pathOf h.cwd with
  | some path => .ok path
  | none => .error (.os .noEntry)

/-- The absolute path without links. -/
def canonicalPath (h : Host) (path : String) : Except IoError Octets := do
  lift (h.world.tree.canonical h.cwd (← pathBytes path))

def enterDirectory (h : Host) (path : Octets) : Except IoError Host := do
  let n ← lift (h.world.tree.resolve h.cwd path)
  if h.world.tree.isDirectory n then return { h with cwd := n } else throw (.os .notDirectory)

/-- Where the link to the current directory of a process points: a directory that was removed is
still named, with a mark behind the path it had. -/
def linkTo (h : Host) (dir : Nat) : Octets :=
  match h.world.tree.pathOf dir, h.world.tree.content dir with
  | some path, _ => path
  | none, .directory _ _ (some former) => former ++ " (deleted)".toList
  | none, _ => []

/-- Reads a text file. -/
def readText (h : Host) (path : String) : Except IoError String := do
  let contents ← lift (h.world.slurp h.cwd (← pathBytes path))
  match Octets.toText? contents with
  | some text => return text
  | none => throw .notText

/-- Whether a path leads to a file, or the error in following it. -/
def isFile (h : Host) (path : Octets) : Except Errno Bool := do
  let n ← h.world.tree.resolve h.cwd path
  match h.world.tree.content n with
  | .file _ | .program _ => return true
  | _ => return false

/-! ## Programs -/

/-- The value of a variable as bytes. -/
def valueOf? (h : Host) (name : String) : Option Octets :=
  (h.environment.get? name).map Octets.ofString

/-- The home directory; the administrator has one that no variable need name. -/
def home (h : Host) : Octets :=
  match h.valueOf? "HOME" with
  | some path => if path.isEmpty then "/root".toList else path
  | none => "/root".toList

/-- A directory of the search path, with the home directory in the place of a tilde. -/
def searched (h : Host) (directory : Octets) : Octets :=
  match FileTree.names directory with
  | ['~'] :: below =>
    if directory.head? = some '/' then directory
    else (h.home :: below.filter (· != ['.'])).foldl Image.join []
  | _ => directory

/-- The program of a name in the directories of the search path. -/
def which (h : Host) (name : String) : Option String :=
  if name.isEmpty || name.toList.contains '/' || name.toList.contains '\x00' then none
  else do
    let searchPath ← h.valueOf? "PATH"
    let paths := (Octets.splitOn ':' searchPath).map fun dir ↦
      Image.join (h.searched dir) (Octets.ofString name)
    let found ← paths.find? fun path ↦
      match h.world.tree.resolve h.cwd path with
      | .ok n => h.world.tree.isExecutable n
      | .error _ => false
    Octets.toText found

/-- The environment as entries `NAME=value`. -/
def environmentEntries (h : Host) : List Octets :=
  h.environment.entries.map fun e ↦ Octets.ofString e.1 ++ '=' :: Octets.ofString e.2

/-- Where a program is searched without a search path. -/
def defaultSearchPath : Octets := "/bin:/usr/bin".toList

/-- From where the programs that the engine starts look at the file tree. -/
def standing (h : Host) : Standing :=
  { cwd := h.cwd
    streams := [0, 1, 2].filterMap fun fd ↦ (h.descriptors.file? fd).map (fd, ·) }

/-- Prepares to run a program. A text file that names no interpreter is handed to the script
interpreter with `fallsBack`, and is refused otherwise. -/
def prepare (h : Host) (program : String) (args : List String) (fallsBack : Bool) :
    Except IoError Process := do
  if (program :: args).any fun s ↦ s.toList.contains '\x00' then throw .nulInArgument
  let name := Octets.ofString program
  let args := args.map Octets.ofString
  let tree := h.world.tree
  let luggage : Image.Luggage := { args := name :: args, env := h.environmentEntries }
  let found : Except Errno Image :=
    if name.isEmpty then .error .noEntry
    else if name.contains '/' then Image.ofPath tree h.cwd luggage name
    else
      let searchPath := (h.valueOf? "PATH").getD defaultSearchPath
      (Image.search tree h.cwd luggage searchPath name).map (·.2)
  let process (tool : Tool) (name : Octets) (args : List Octets) : Process :=
    { tool, invocation := { name, args, env := h.environmentEntries }, standing := h.standing }
  match found with
  | .ok image => return process image.tool (image.name.getD name) (image.front ++ args)
  | .error e =>
    if e = .execFormat && fallsBack then return process .script "/bin/sh".toList (name :: args)
    else throw (.os e)

/-- Runs a process from its start to its end, or to the limit at which it is killed. The clock of
the machine goes along. -/
def run (h : Host) (p : Process) (limit : Option Nat) : Ending × Host :=
  let program := Execution.execute h.nested p.tool p.invocation
  let (ending, world) := h.world.run p.standing p.invocation.env program limit
  (ending, { h with world })

/-! ## Descriptors -/

/-- Opens a file and gives it a descriptor. -/
def openWith (h : Host) (f : World → Standing → Except Errno (Nat × World)) :
    Except Errno Nat × Host :=
  let (refusal, descriptors) := h.descriptors.call
  let h := { h with descriptors }
  match refusal with
  | some e => (.error e, h)
  | none =>
    match f h.world h.standing with
    | .error e => (.error e, h)
    | .ok (file, world) =>
      let (fd, descriptors) := h.descriptors.give file
      (.ok fd, { h with world, descriptors })

/-- Makes a pipe: the descriptor to read from and the one to write to. -/
def pipe (h : Host) : Except Errno (Nat × Nat) × Host :=
  let (refusal, descriptors) := h.descriptors.call
  let h := { h with descriptors }
  match refusal with
  | some e => (.error e, h)
  | none =>
    let ((reader, writer), world) := h.world.pipe
    let (r, descriptors) := h.descriptors.give reader
    let (w, descriptors) := descriptors.give writer
    (.ok (r, w), { h with world, descriptors })

/-- Makes one descriptor a copy of another. -/
def duplicateTo (h : Host) (source target : Nat) : Except Errno Unit × Host :=
  let (refusal, descriptors) := h.descriptors.call
  match refusal with
  | some e => (.error e, { h with descriptors })
  | none => (.ok (), { h with descriptors := descriptors.replace source target })

/-- Gives a second descriptor to what is behind a descriptor, if anything is. -/
def duplicate (h : Host) (fd : Nat) : Option Nat × Host :=
  match h.descriptors.file? fd with
  | none => (none, h)
  | some file =>
    let (copy, descriptors) := h.descriptors.give file
    (some copy, { h with descriptors })

/-- Writes to a descriptor. -/
def write (h : Host) (fd : Nat) (text : Octets) : Except IoError Host :=
  if text.isEmpty then .ok h
  else
    match h.descriptors.file? fd with
    | none => .error (.os .badDescriptor)
    | some file =>
      if h.world.isBroken file then .error (.os .brokenPipe)
      else (lift (h.world.write file text)).map fun world ↦ { h with world }

/-- Writes to one of the standard streams; one that is not open takes everything. -/
def print (h : Host) (fd : Nat) (text : String) : Except IoError Host :=
  match h.write fd (Octets.ofString text) with
  | .error (.os .badDescriptor) => .ok h
  | written => written

/-- Writes to one of the standard streams; what cannot be written is lost. -/
def say (h : Host) (fd : Nat) (text : String) : Host := (h.print fd text).toOption.getD h

/-- Reads up to `count` bytes from a descriptor. -/
def read (h : Host) (fd count : Nat) : Except IoError (Octets × Host) :=
  match h.descriptors.file? fd with
  | none => .error (.os .badDescriptor)
  | some file => (lift (h.world.read file count)).map fun (os, world) ↦ (os, { h with world })

/-- What is behind a descriptor. -/
def target? (h : Host) (fd : Nat) : Option Target :=
  (h.descriptors.file? fd).map fun file ↦ (h.world.file file).target

/-- How long the last bytes of a program may be on their way, in microseconds. -/
def arrivalTime : Nat := 10000

/-- Takes what waits in the channel of an outer stream. -/
def takeOutput (h : Host) (channel : Nat) : Octets × Host :=
  let ch := h.world.channel channel
  let (os, ch) := ch.takePut (h.world.clock + arrivalTime) ch.size
  (os, { h with world := h.world.modifyChannel channel fun _ ↦ ch })

end Host

end ShellEngine.Machine
