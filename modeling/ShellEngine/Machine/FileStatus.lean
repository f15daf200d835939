import ShellEngine.Machine.World

/-!
# What is known of a file

The answers to questions about the file at a path: what kind of file it is, how long, with which
permissions, and when it was changed. A device that stands for a descriptor is whatever is behind
that descriptor.
-/

namespace ShellEngine.Machine

/-- The kinds of files. -/
inductive FileKind
  | regular
  | directory
  | link
  | device
  | pipe
  deriving DecidableEq

/-- What is known of a file. -/
structure FileStatus where
  kind : FileKind
  mode : Nat
  size : Nat := 0
  modified : Int := 0
  accessed : Int := 0
  /-- What the file is; two paths may lead to the same. -/
  target : Target

namespace FileStatus

/-- What is known of a node. -/
def ofNode (t : FileTree) (n : Nat) : FileStatus :=
  let node := t.node n
  let (kind, size) : FileKind × Nat :=
    match node.content with
    | .directory .. => (.directory, 4096)
    | .file contents => (.regular, contents.length)
    | .link target => (.link, target.length)
    | .program _ => (.regular, 65536)
    | .device _ => (.device, 0)
  { kind, size, mode := node.mode, modified := node.modified, accessed := node.accessed
    target := .node n }

/-- What is known of an open file. -/
def ofOpenFile (w : World) (f : Nat) : FileStatus :=
  match (w.file f).target with
  | .node n => ofNode w.tree n
  | .channel c =>
    { kind := .pipe, mode := 0o600, modified := w.now, accessed := w.now, target := .channel c }

/-- Whether the administrator may execute a file, or search it. -/
def isExecutable (s : FileStatus) : Bool := s.kind = .directory || s.mode &&& 0o111 != 0

end FileStatus

/-- What is known of the file at a path; `follow` tells whether a link at its end is followed. -/
def World.status (w : World) (s : Standing) (path : Octets) (follow : Bool) :
    Except Errno FileStatus := do
  let n ← w.tree.nodeAt s.cwd path follow
  match w.tree.content n with
  | .device (.descriptor fd) =>
    if !follow then return .ofNode w.tree n
    match s.streams.lookup fd with
    | some f => return .ofOpenFile w f
    | none => throw .noEntry
  | _ => return .ofNode w.tree n

end ShellEngine.Machine
