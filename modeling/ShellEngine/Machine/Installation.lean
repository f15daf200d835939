import ShellEngine.Machine.Host

/-!
# A machine to start from

The directories that every machine has, with the tools under `/usr/bin`, where `/bin` leads as well,
the devices that programs expect to find, and a place for temporary files. The standard input of the
engine is empty, and its two outputs are channels of their own.
-/

namespace ShellEngine.Machine

namespace FileTree

/-- The tree with something under a path; without it if that cannot be. -/
def withNode (t : FileTree) (path : String) (content : Content) (mode : Nat) : FileTree :=
  (t.install root (Octets.ofString path) content mode).toOption.getD t

/-- The directories that every machine has. -/
def usualDirectories : List String :=
  ["/dev", "/etc", "/home", "/proc", "/root", "/tmp", "/usr/bin", "/usr/lib", "/usr/sbin", "/var"]

/-- The devices that every machine has, with their modes. -/
def usualDevices : List (String × Device) :=
  [("null", .null), ("zero", .zero), ("full", .full), ("random", .noise), ("urandom", .noise),
   ("tty", .terminal)]

/-- The names of descriptors among the devices. -/
def descriptorLinks : List (String × String) :=
  [("/dev/fd", "/proc/self/fd"), ("/dev/stdin", "/proc/self/fd/0"),
   ("/dev/stdout", "/proc/self/fd/1"), ("/dev/stderr", "/proc/self/fd/2")]

/-- The tree of a machine nobody has worked on. -/
def installed : FileTree :=
  let t := usualDirectories.foldl (fun t path ↦
    (t.makeDirectories root path.toList).toOption.getD t) empty
  let t := Tool.installed.foldl
    (fun t e ↦ t.withNode ("/usr/bin/" ++ e.1) (.program e.2) 0o755) t
  let t := [("/bin", "usr/bin"), ("/sbin", "usr/sbin"), ("/lib", "usr/lib")].foldl
    (fun t e ↦ t.withNode e.1 (.link e.2.toList) linkMode) t
  let t := usualDevices.foldl (fun t e ↦ t.withNode ("/dev/" ++ e.1) (.device e.2) 0o666) t
  let t := (List.range 10).foldl (fun t fd ↦
    t.withNode ("/proc/self/fd/" ++ toString fd) (.device (.descriptor fd)) 0o600) t
  let t := descriptorLinks.foldl (fun t e ↦ t.withNode e.1 (.link e.2.toList) linkMode) t
  match t.resolve root "/tmp".toList with
  | .ok n => t.modifyNode n fun node ↦ { node with mode := 0o1777 }
  | .error _ => t

end FileTree

/-- The channels of the outer streams. -/
def outputChannel : Nat := 0
def errorChannel : Nat := 1

namespace Host

/-- The engine on a machine that nobody has worked on, in the root directory. -/
def fresh : Host :=
  let world : World := { tree := .installed }
  let outside : Standing := { cwd := FileTree.root, streams := [] }
  let (input, world) := ((world.openInput outside "/dev/null".toList).toOption).getD
    (world.openFile { target := .node FileTree.root, writes := false })
  let (out, world) := world.openChannel {}
  let (err, world) := world.openChannel {}
  let (outFile, world) := world.openFile { target := .channel out, reads := false }
  let (errFile, world) := world.openFile { target := .channel err, reads := false }
  { world, cwd := FileTree.root
    descriptors := { table := [(0, input), (1, outFile), (2, errFile)] } }

/-- The engine with a text waiting on its standard input. -/
def withInput (h : Host) (text : Octets) : Host :=
  let (channel, world) := h.world.openChannel (.ofOctets text)
  let (file, world) := world.openFile { target := .channel channel, writes := false }
  let table := (0, file) :: h.descriptors.table.filter (·.1 != 0)
  { h with world, descriptors := { h.descriptors with table } }

/-- Puts a file at a path, seen from the current directory. -/
def putFile (h : Host) (path : String) (contents : Octets) (mode : Nat) : Host :=
  match h.world.stamped.tree.install h.cwd (Octets.ofString path) (.file contents) mode with
  | .ok tree => { h with world := { h.world with tree } }
  | .error _ => h

/-- Makes a directory with all those above it. -/
def putDirectory (h : Host) (path : String) : Host :=
  match h.world.stamped.tree.makeDirectories h.cwd (Octets.ofString path) with
  | .ok tree => { h with world := { h.world with tree } }
  | .error _ => h

/-- The files below a directory with their paths from there. -/
def filesBelow (h : Host) (directory : Nat) : List (Octets × Octets) :=
  h.world.tree.filesBelow directory (h.world.tree.nodes.size + 1) directory []

end Host

end ShellEngine.Machine
