import ShellEngine.Error
import ShellEngine.Machine.Tool
import ShellEngine.Text.Octets

/-!
# The file tree

Directories, files, symbolic links, programs and devices, as nodes that refer to each other by
number; the root is node zero. A path is resolved name by name. A link on the way is replaced by its
target, at most `maxLinks` times, which is why resolution ends.

Whoever works on the machine is its administrator: permissions keep nobody from reading or writing,
and only decide what may be executed.
-/

namespace ShellEngine.Machine

/-- A device. -/
inductive Device
  | null
  | zero
  /-- It takes nothing. -/
  | full
  | noise
  | terminal
  /-- Whatever a process has under a descriptor. -/
  | descriptor (fd : Nat)
  deriving DecidableEq, Inhabited

/-- What a node is. -/
inductive Content
  /-- A directory that was removed remembers the path it had. -/
  | directory (entries : List (Octets × Nat)) (parent : Nat) (removed : Option Octets)
  | file (contents : Octets)
  | link (target : Octets)
  | program (tool : Tool)
  | device (d : Device)
  deriving Inhabited

/-- A node with the permission bits of its mode. The times are microseconds of the calendar. -/
structure Node where
  content : Content
  mode : Nat
  modified : Int := 0
  accessed : Int := 0
  deriving Inhabited

/-- All nodes that were ever made. -/
structure FileTree where
  nodes : Array Node
  /-- The time that changes are stamped with. -/
  now : Int := 0

/-- What a path leads to: the last name on it with the directory that holds it, and the node of
that name, if there is one. A path that ends in no name, such as `/`, leads to a directory with an
empty name. -/
structure Place where
  directory : Nat
  name : Octets
  node : Option Nat

namespace FileTree

def root : Nat := 0

/-- How many links may be followed on one path. -/
def maxLinks : Nat := 40

/-- The length of the longest name. -/
def maxName : Nat := 255

/-- The length of the longest path. -/
def maxPath : Nat := 4095

/-- The modes of what is made where nothing else is said. -/
def fileMode : Nat := 0o644
def directoryMode : Nat := 0o755
def linkMode : Nat := 0o777

/-- The tree that holds nothing but its root. -/
def empty : FileTree :=
  { nodes := #[{ content := .directory [] root none, mode := directoryMode }] }

def node (t : FileTree) (n : Nat) : Node := t.nodes.getD n default

def content (t : FileTree) (n : Nat) : Content := (t.node n).content

def mode (t : FileTree) (n : Nat) : Nat := (t.node n).mode

def modifyNode (t : FileTree) (n : Nat) (f : Node → Node) : FileTree :=
  { t with nodes := t.nodes.modify n f }

def setContent (t : FileTree) (n : Nat) (c : Content) : FileTree :=
  let now := t.now
  t.modifyNode n fun node ↦ { node with content := c, modified := now }

def isDirectory (t : FileTree) (n : Nat) : Bool :=
  match t.content n with
  | .directory .. => true
  | _ => false

/-- Whether a node is a file that may be executed. -/
def isExecutable (t : FileTree) (n : Nat) : Bool :=
  match t.content n with
  | .program _ => true
  | .file _ => t.mode n &&& 0o111 != 0
  | _ => false

/-! ## Paths -/

/-- The names of a path. -/
def names (path : Octets) : List Octets := (Octets.splitOn '/' path).filter fun part ↦ !part.isEmpty

/-- A path from names. -/
def joinNames (parts : List Octets) : Octets :=
  if parts.isEmpty then ['/'] else parts.flatMap fun part ↦ '/' :: part

/-- The path of the directory that holds what a path leads to. -/
def parentPath (path : Octets) : Octets :=
  let above := (List.intersperse ['/'] ((names path).filter (· != ['.'])).dropLast).flatten
  if path.head? = some '/' then '/' :: above else above

/-- Follows names from a directory, up to a link that is to be followed: `jump` goes on from there.
With `follow`, a link at the end is followed too. -/
def walkTo (t : FileTree) (follow : Bool) (jump : Nat → List Octets → Except Errno Place)
    (dir : Nat) : List Octets → Except Errno Place
  | [] => if t.isDirectory dir then .ok ⟨dir, [], some dir⟩ else .error .notDirectory
  | name :: rest =>
    match t.content dir with
    | .directory entries parent _ =>
      if name = ['.'] then t.walkTo follow jump dir rest
      else if name = ['.', '.'] then t.walkTo follow jump parent rest
      else if name.length > maxName then .error .nameTooLong
      else
        match entries.lookup name with
        | none => if rest.isEmpty then .ok ⟨dir, name, none⟩ else .error .noEntry
        | some n =>
          match t.content n with
          | .link target =>
            if rest.isEmpty && !follow then .ok ⟨dir, name, some n⟩
            else jump (if target.head? = some '/' then root else dir) (names target ++ rest)
          | _ => if rest.isEmpty then .ok ⟨dir, name, some n⟩ else t.walkTo follow jump n rest
    | _ => .error .notDirectory

/-- Follows names from a directory, and so many links on the way. -/
def walk (t : FileTree) (follow : Bool) : Nat → Nat → List Octets → Except Errno Place
  | 0 => t.walkTo follow fun _ _ ↦ .error .tooManyLinks
  | links + 1 => t.walkTo follow (t.walk follow links)

/-- Whether a path insists on a directory. -/
def endsInSlash (path : Octets) : Bool := path.getLast? = some '/'

/-- Where the names of a path lead, seen from the directory `cwd`. -/
def reach (t : FileTree) (cwd : Nat) (path : Octets) (follow : Bool) : Except Errno Place := do
  if path.isEmpty then throw .noEntry
  if path.length > maxPath then throw .nameTooLong
  let start := if path.head? = some '/' then root else cwd
  t.walk follow maxLinks start (names path)

/-- What a path leads to, seen from the directory `cwd`. -/
def place (t : FileTree) (cwd : Nat) (path : Octets) (follow : Bool) : Except Errno Place := do
  let found ← t.reach cwd path (follow || endsInSlash path)
  match found.node with
  | some n => if endsInSlash path && !t.isDirectory n then throw .notDirectory else return found
  | none => return found

/-- The node that a path leads to; `follow` tells whether a link at its end is followed. -/
def nodeAt (t : FileTree) (cwd : Nat) (path : Octets) (follow : Bool) : Except Errno Nat := do
  match (← t.place cwd path follow).node with
  | some n => return n
  | none => throw .noEntry

/-- The node that a path leads to, links followed. -/
def resolve (t : FileTree) (cwd : Nat) (path : Octets) : Except Errno Nat := t.nodeAt cwd path true

/-- Whether a path leads to a directory. -/
def leadsToDirectory (t : FileTree) (cwd : Nat) (path : Octets) : Bool :=
  match t.resolve cwd path with
  | .ok n => t.isDirectory n
  | .error _ => false

/-- The name of a node in a directory. -/
def nameIn (t : FileTree) (dir n : Nat) : Option Octets :=
  match t.content dir with
  | .directory entries .. => (entries.find? (·.2 == n)).map (·.1)
  | _ => none

/-- The names that lead from the root to a directory; `none` if it was removed. -/
def namesOf (t : FileTree) : Nat → Nat → List Octets → Option (List Octets)
  | 0, _, _ => none
  | depth + 1, n, below =>
    if n = root then some below
    else
      match t.content n with
      | .directory _ parent _ => do t.namesOf depth parent ((← t.nameIn parent n) :: below)
      | _ => none

/-- The absolute path of a directory; `none` if it was removed. -/
def pathOf (t : FileTree) (dir : Nat) : Option Octets :=
  (t.namesOf (t.nodes.size + 1) dir []).map joinNames

/-- The absolute path without links of a place. -/
def pathOfPlace (t : FileTree) (p : Place) : Option Octets :=
  match p.node with
  | some n =>
    if t.isDirectory n then t.pathOf n
    else (t.namesOf (t.nodes.size + 1) p.directory []).map fun parts ↦ joinNames (parts ++ [p.name])
  | none =>
    (t.namesOf (t.nodes.size + 1) p.directory []).map fun parts ↦ joinNames (parts ++ [p.name])

/-- The absolute path without links that leads to the same node. -/
def canonical (t : FileTree) (cwd : Nat) (path : Octets) : Except Errno Octets := do
  let found ← t.place cwd path true
  match found.node, t.pathOfPlace found with
  | some _, some path => return path
  | _, _ => throw .noEntry

/-! ## Changes -/

/-- Enters a node in a directory under a new name. -/
def enter (t : FileTree) (dir : Nat) (name : Octets) (n : Nat) : Except Errno FileTree :=
  match t.content dir with
  | .directory entries parent none =>
    .ok (t.setContent dir (.directory (entries ++ [(name, n)]) parent none))
  | _ => .error .noEntry

/-- Makes a node under a new name. -/
def create (t : FileTree) (dir : Nat) (name : Octets) (content : Content) (mode : Nat) :
    Except Errno (Nat × FileTree) := do
  let n := t.nodes.size
  let node := { content, mode, modified := t.now, accessed := t.now }
  return (n, ← { t with nodes := t.nodes.push node }.enter dir name n)

/-- Makes something at a path where nothing is. -/
def createAt (t : FileTree) (cwd : Nat) (path : Octets) (content : Nat → Content) (mode : Nat) :
    Except Errno FileTree := do
  let found ← t.place cwd path false
  match found.node with
  | some _ => throw .exists_
  | none => return (← t.create found.directory found.name (content found.directory) mode).2

/-- Makes a directory with a mode. -/
def makeDirectoryWith (t : FileTree) (cwd : Nat) (path : Octets) (mode : Nat) :
    Except Errno FileTree :=
  t.createAt cwd path (fun parent ↦ .directory [] parent none) mode

/-- Makes a directory. -/
def makeDirectory (t : FileTree) (cwd : Nat) (path : Octets) : Except Errno FileTree :=
  t.makeDirectoryWith cwd path directoryMode

/-- Makes a directory and those above it that are not there. -/
def makeDirectories (t : FileTree) (cwd : Nat) (path : Octets) : Except Errno FileTree :=
  let start := if path.head? = some '/' then ['/'] else ['.', '/']
  let step (acc : Octets × FileTree) (name : Octets) : Except Errno (Octets × FileTree) := do
    let path := acc.1 ++ name
    match acc.2.resolve cwd path with
    | .ok n => if acc.2.isDirectory n then return (path ++ ['/'], acc.2) else throw .notDirectory
    | .error _ => return (path ++ ['/'], ← acc.2.makeDirectory cwd path)
  ((names path).foldlM step (start, t)).map (·.2)

/-- Makes a symbolic link. No link has a path that insists on a directory. -/
def makeLink (t : FileTree) (cwd : Nat) (target path : Octets) : Except Errno FileTree := do
  if target.isEmpty then throw .noEntry
  if endsInSlash path then
    match (← t.place cwd path false).node with
    | some _ => throw .exists_
    | none => throw .noEntry
  t.createAt cwd path (fun _ ↦ .link target) linkMode

/-- Gives a second name to what a path leads to. -/
def makeName (t : FileTree) (cwd : Nat) (source path : Octets) (follow : Bool) :
    Except Errno FileTree := do
  let n ← t.nodeAt cwd source follow
  let found ← t.place cwd path false
  if found.node.isSome then throw .exists_
  if t.isDirectory n then throw .notPermitted
  t.enter found.directory found.name n

/-- Removes an empty directory. -/
def removeDirectory (t : FileTree) (cwd : Nat) (path : Octets) : Except Errno FileTree := do
  let last := (names path).getLast?
  let found ← if endsInSlash path then t.reach cwd path false else t.place cwd path false
  if last = some ['.'] then throw .invalid
  if last = some ['.', '.'] then throw .notEmpty
  match found.node with
  | none => throw .noEntry
  | some n =>
    match t.content n with
    | .directory [] parent none =>
      if n = root then throw .busy
      match t.content parent with
      | .directory entries above removed =>
        let former := t.pathOf n
        let t := t.setContent parent
          (.directory (entries.filter fun e ↦ e.2 != n) above removed)
        return t.setContent n (.directory [] parent (some (former.getD [])))
      | _ => throw .notDirectory
    | .directory [] .. => throw .noEntry
    | .directory .. => throw (if n = root then .busy else .notEmpty)
    | _ => throw .notDirectory

/-- Takes a name out of a directory. -/
def unlink (t : FileTree) (cwd : Nat) (path : Octets) : Except Errno FileTree := do
  let found ← t.place cwd path false
  match found.node, t.content found.directory with
  | some n, .directory entries parent removed =>
    if t.isDirectory n then throw .isDirectory
    return t.setContent found.directory
      (.directory (entries.filter fun e ↦ e.1 != found.name) parent removed)
  | _, _ => throw .noEntry

/-- Moves a name that is no directory to another place; what was there is gone. -/
def rename (t : FileTree) (cwd : Nat) (source path : Octets) : Except Errno FileTree := do
  let n ← t.nodeAt cwd source false
  let found ← t.place cwd path false
  match found.node with
  | some old =>
    if old = n then return t
    if t.isDirectory old then throw .isDirectory
    let t ← t.unlink cwd path
    (← t.unlink cwd source).enter found.directory found.name n
  | none => (← t.unlink cwd source).enter found.directory found.name n

/-- How a file is to be opened for writing. -/
structure Opening where
  /-- A file that is not there is made, with this mode. -/
  creates : Option Nat := some fileMode
  /-- Nothing may be there before. -/
  exclusive : Bool := false
  truncates : Bool := false

/-- Finds a file to write to, which is made if it is not there. No file has a path that insists on a
directory, whether it is there or not. -/
def openWith (t : FileTree) (cwd : Nat) (path : Octets) (o : Opening) :
    Except Errno (Nat × FileTree) := do
  if endsInSlash path && o.creates.isSome then
    let _ ← t.reach cwd path false
    throw .isDirectory
  let found ← t.place cwd path !o.exclusive
  match found.node, o.creates with
  | none, none => throw .noEntry
  | none, some mode => t.create found.directory found.name (.file []) mode
  | some n, _ =>
    if o.exclusive then throw .exists_
    match t.content n with
    | .directory .. => throw .isDirectory
    | .file _ => return (n, if o.truncates then t.setContent n (.file []) else t)
    | _ => return (n, t)

/-- Finds a file to write to, which is made if it is not there. -/
def openOutput (t : FileTree) (cwd : Nat) (path : Octets) (truncate : Bool) :
    Except Errno (Nat × FileTree) :=
  t.openWith cwd path { truncates := truncate }

/-- Puts something with a mode at a path, making the directories above it. -/
def install (t : FileTree) (cwd : Nat) (path : Octets) (content : Content) (mode : Nat) :
    Except Errno FileTree := do
  let parts := names path
  let start := if path.head? = some '/' then ['/'] else []
  let above := start ++ (List.intersperse ['/'] parts.dropLast).flatten
  let t ← if parts.length ≤ 1 then pure t else t.makeDirectories cwd above
  let found ← t.place cwd path true
  match found.node with
  | none => return (← t.create found.directory found.name content mode).2
  | some n => return (t.setContent n content).modifyNode n fun node ↦ { node with mode }

/-- Everything below a directory that is no directory, with its path from there and its contents,
in the order of the entries. Links are followed, as far as they may be; what cannot be read is
empty. -/
def filesBelow (t : FileTree) (top : Nat) : Nat → Nat → Octets → List (Octets × Octets)
  | 0, _, _ => []
  | depth + 1, dir, path =>
    match t.content dir with
    | .directory entries .. => entries.flatMap fun e ↦
      let path := if path.isEmpty then e.1 else path ++ '/' :: e.1
      match t.resolve top path with
      | .error _ => [(path, [])]
      | .ok n =>
        match t.content n with
        | .file contents => [(path, contents)]
        | .directory .. => t.filesBelow top depth n path
        | _ => [(path, [])]
    | _ => []

end FileTree

end ShellEngine.Machine
