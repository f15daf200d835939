import ShellEngine.Machine.FileTree
import ShellEngine.Process.Status

/-!
# The world of the programs

What all programs of the machine share: the file tree, the open files, the channels between them,
the table of tasks, and a clock.

A channel is a queue of parcels, each with the time at which it was put in; nobody sees a parcel
before that time. The channels that a task makes for its children hold a bounded number of bytes,
and end when no task can write to them any more. The others belong to the engine. They take what
they are given, and know when the last writer is done; whoever reads one to its end has to wait that
long. A program that never stops writing to such a channel leaves there what is to be repeated.
-/

namespace ShellEngine.Machine

/-! ## Channels -/

/-- Bytes that were written together. -/
structure Parcel where
  time : Nat
  octets : Octets
  deriving Inhabited

/-- A pipe, or one of the outer streams. -/
structure Channel where
  /-- The parcels to be read next, the oldest first. -/
  early : List Parcel := []
  /-- The parcels behind those, the newest first. -/
  late : List Parcel := []
  /-- The time of the newest parcel. -/
  newest : Nat := 0
  /-- How many bytes there are. -/
  size : Nat := 0
  /-- How many bytes it may hold; the channels of the engine have no bound. -/
  capacity : Option Nat := none
  /-- What a writer that never stops goes on to write, over and over. -/
  endless : Octets := []
  /-- When the last writer of a channel of the engine is done. -/
  closes : Nat := 0
  deriving Inhabited

namespace Channel

/-- A channel with bytes in it. -/
def ofOctets (os : Octets) : Channel := { early := [⟨0, os⟩], size := os.length }

/-- Puts a parcel where its time wants it, among parcels of which the newest come first. -/
def insertParcel (p : Parcel) : List Parcel → List Parcel
  | [] => [p]
  | q :: rest => if p.time < q.time then q :: insertParcel p rest else p :: q :: rest

/-- Puts bytes in. -/
def push (c : Channel) (time : Nat) (os : Octets) : Channel :=
  if os.isEmpty then c
  else
    let c := { c with size := c.size + os.length }
    if c.newest ≤ time then { c with late := ⟨time, os⟩ :: c.late, newest := time }
    else { c with early := [], late := insertParcel ⟨time, os⟩ (c.late ++ c.early.reverse) }

/-- The bytes of the first parcels up to a time, at most `count`, and the parcels that are left. -/
def takeParcels (now : Nat) : Nat → List Parcel → List Octets × List Parcel
  | _, [] => ([], [])
  | 0, ps => ([], ps)
  | count + 1, p :: rest =>
    if now < p.time then ([], p :: rest)
    else
      let got := p.octets.take (count + 1)
      if got.length < p.octets.length then
        ([got], ⟨p.time, p.octets.drop (count + 1)⟩ :: rest)
      else
        let (more, rest) := takeParcels now (count + 1 - got.length) rest
        (got :: more, rest)

/-- Takes up to `count` bytes of what was put in, as far as it is there at a time. -/
def takePut (c : Channel) (now count : Nat) : Octets × Channel :=
  let (got, early) := takeParcels now count c.early
  let got := got.flatten
  if early.isEmpty && got.length < count then
    let (more, early) := takeParcels now (count - got.length) c.late.reverse
    let got := got ++ more.flatten
    (got, { c with early, late := [], size := c.size - got.length })
  else (got, { c with early, size := c.size - got.length })

/-- Takes up to `count` bytes that are there at a time. -/
def take (c : Channel) (now count : Nat) : Octets × Channel :=
  let (got, c) := c.takePut now count
  if got.length = count || c.endless.isEmpty || 0 < c.size then (got, c)
  else
    let wanted := count - got.length
    let times := wanted / c.endless.length + 1
    let more := ((List.replicate times c.endless).flatten).take wanted
    let surplus := wanted % c.endless.length
    (got ++ more, { c with endless := c.endless.drop surplus ++ c.endless.take surplus })

/-- The time of the first parcel. -/
def nextTime? (c : Channel) : Option Nat :=
  match c.early with
  | p :: _ => some p.time
  | [] => (c.late.getLast?).map Parcel.time

end Channel

/-! ## Open files -/

/-- What an open file refers to. -/
inductive Target
  | node (n : Nat)
  | channel (c : Nat)
  deriving DecidableEq, Inhabited

/-- An open file. Every descriptor made from another one shares its position. -/
structure OpenFile where
  target : Target
  offset : Nat := 0
  /-- Whether writing always happens at the end. -/
  appends : Bool := false
  reads : Bool := true
  writes : Bool := true
  deriving Inhabited

/-- From where somebody looks at the file tree. -/
structure Standing where
  cwd : Nat
  /-- The open file behind each descriptor. -/
  streams : List (Nat × Nat)
  /-- The permissions that new files go without. -/
  umask : Nat := 0o022

/-- How a path is to be opened. -/
structure OpenMode where
  reads : Bool := false
  writes : Bool := false
  appends : Bool := false
  creates : Bool := false
  exclusive : Bool := false
  truncates : Bool := false

namespace OpenMode

def input : OpenMode := { reads := true }

def output (appends : Bool) : OpenMode :=
  { writes := true, appends, creates := true, truncates := !appends }

end OpenMode

/-! ## Tasks -/

/-- A program at work, or one that ended and was not looked after yet. -/
structure Task extends Standing where
  parent : Nat
  /-- The environment that the program was last started with, as entries `NAME=value`. -/
  block : List Octets := []
  /-- Signals that do nothing. -/
  ignored : List Nat := []
  /-- Signals that the program wants to hear of. -/
  caught : List Nat := []
  /-- Signals that came and were not attended to. -/
  pending : List Nat := []
  ending : Option ProcessEnd := none
  /-- Why something could not be written to the standard output. -/
  unwritten : Option Errno := none

/-- All that programs share. -/
structure World where
  tree : FileTree
  files : Array OpenFile := #[]
  channels : Array Channel := #[]
  /-- Microseconds since the machine was started. -/
  clock : Nat := 0
  /-- The process id to give next. -/
  nextPid : Nat := 100
  tasks : List (Nat × Task) := []
  /-- The process id of the task that is at work. -/
  self : Nat := 0

namespace World

/-- The signals with a meaning of their own here. -/
def interruptSignal : Nat := 2
def quitSignal : Nat := 3
def killSignal : Nat := 9
def pipeSignal : Nat := 13
def terminateSignal : Nat := 15
def childSignal : Nat := 17

/-- The calendar time at which the machine was started, in microseconds. -/
def startOfTime : Int := 1767225600000000

/-- How coarse the times of files are, in microseconds. -/
def stampStep : Nat := 4000

/-- The time of the calendar. -/
def now (w : World) : Int := startOfTime + w.clock

/-- The world with the file tree ready to be changed at this time. -/
def stamped (w : World) : World :=
  { w with tree := { w.tree with now := startOfTime + (w.clock / stampStep * stampStep : Nat) } }

def openFile (w : World) (f : OpenFile) : Nat × World :=
  (w.files.size, { w with files := w.files.push f })

def openChannel (w : World) (c : Channel) : Nat × World :=
  (w.channels.size, { w with channels := w.channels.push c })

/-- A new pipe: the open file to read from and the one to write to. -/
def pipe (w : World) (capacity : Option Nat := none) : (Nat × Nat) × World :=
  let (c, w) := w.openChannel { capacity }
  let (reader, w) := w.openFile { target := .channel c, writes := false }
  let (writer, w) := w.openFile { target := .channel c, reads := false }
  ((reader, writer), w)

def file (w : World) (f : Nat) : OpenFile := w.files.getD f default

def channel (w : World) (c : Nat) : Channel := w.channels.getD c default

def modifyChannel (w : World) (c : Nat) (f : Channel → Channel) : World :=
  { w with channels := w.channels.modify c f }

/-- The channel behind an open file. -/
def channelOf? (w : World) (f : Nat) : Option Nat :=
  match (w.file f).target with
  | .channel c => some c
  | .node _ => none

/-- Whether an open file has a position, which pipes have not. -/
def isSeekable (w : World) (f : Nat) : Bool := (w.channelOf? f).isNone

def setOffset (w : World) (f offset : Nat) : World :=
  { w with files := w.files.modify f fun file ↦ { file with offset } }

/-! ## Tasks and their descriptors -/

def task (w : World) (pid : Nat) : Task :=
  (w.tasks.lookup pid).getD { cwd := FileTree.root, streams := [], parent := 0 }

/-- The task that is at work. -/
def current (w : World) : Task := w.task w.self

def modifyTask (w : World) (pid : Nat) (f : Task → Task) : World :=
  { w with tasks := w.tasks.map fun e ↦ if e.1 = pid then (pid, f e.2) else e }

/-- Whether some task could still read from a channel, or write to it. -/
def isHeld (w : World) (c : Nat) (p : OpenFile → Bool) : Bool :=
  w.tasks.any fun e ↦ e.2.streams.any fun s ↦
    let file := w.file s.2
    p file && decide (file.target = .channel c)

/-- Whether an open file leads into a pipe of other programs that none of them reads any more. -/
def isBroken (w : World) (f : Nat) : Bool :=
  match w.channelOf? f with
  | some c => (w.file f).writes && (w.channel c).capacity.isSome && !w.isHeld c OpenFile.reads
  | none => false

/-- Notes that a program which may write to an open file runs until `time`. -/
def holdOpen (w : World) (f time : Nat) : World :=
  match w.channelOf? f with
  | some c =>
    if (w.file f).writes then w.modifyChannel c fun ch ↦ { ch with closes := max ch.closes time }
    else w
  | none => w

/-- Gives a task other descriptors. -/
def setStreams (w : World) (pid : Nat) (streams : List (Nat × Nat)) : World :=
  let now := w.clock
  let gone := (w.task pid).streams.filter fun s ↦ !streams.any fun t ↦ t.2 == s.2
  (gone.foldl (fun w s ↦ w.holdOpen s.2 now) w).modifyTask pid fun t ↦ { t with streams }

/-- Sends a signal to a task that has not ended. -/
def send (w : World) (pid signal : Nat) : World :=
  w.modifyTask pid fun t ↦
    if t.ending.isSome || t.pending.contains signal then t
    else { t with pending := t.pending ++ [signal] }

/-- Whether a signal ends a program that did not ask for it. -/
def isFatal (signal : Nat) : Bool := !([17, 18, 19, 20, 21, 22, 23, 28].contains signal)

/-- The signal that ends a task, if one came. -/
def fatalSignal? (t : Task) : Option Nat :=
  t.pending.find? fun s ↦
    s = killSignal || (isFatal s && !t.ignored.contains s && !t.caught.contains s)

/-- Whether a task was sent a signal that it wants to hear of. -/
def isCalled (t : Task) : Bool := t.pending.any t.caught.contains

/-! ## Opening by path -/

/-- Opens what is behind another open file. -/
def reopen (w : World) (f : Nat) (m : OpenMode) : Except Errno (Nat × World) :=
  let target := (w.file f).target
  let opened := { target, appends := m.appends, reads := m.reads, writes := m.writes }
  match target with
  | .channel _ => .ok (w.openFile opened)
  | .node n =>
    match w.tree.content n with
    | .directory .. => if m.writes then .error .isDirectory else .ok (w.openFile opened)
    | .file _ =>
      let w := if m.truncates then { w with tree := w.tree.setContent n (.file []) } else w
      .ok (w.openFile opened)
    | _ => .ok (w.openFile opened)

/-- Opens a path. -/
def openPath (w : World) (s : Standing) (path : Octets) (m : OpenMode) :
    Except Errno (Nat × World) := do
  let w := w.stamped
  let (n, tree) ←
    if m.writes then
      let mode := 0o666 &&& (0o777 ^^^ (s.umask &&& 0o777))
      w.tree.openWith s.cwd path
        { creates := if m.creates then some mode else none
          exclusive := m.exclusive, truncates := m.truncates }
    else (w.tree.resolve s.cwd path).map (·, w.tree)
  let w := { w with tree }
  match tree.content n with
  | .device (.descriptor fd) =>
    match s.streams.lookup fd with
    | some f => w.reopen f m
    | none => throw .noEntry
  | .device .terminal => throw .noDevice
  | _ =>
    return w.openFile
      { target := .node n, appends := m.appends, reads := m.reads, writes := m.writes }

def openInput (w : World) (s : Standing) (path : Octets) : Except Errno (Nat × World) :=
  w.openPath s path .input

def openOutput (w : World) (s : Standing) (path : Octets) (appends : Bool) :
    Except Errno (Nat × World) :=
  w.openPath s path (.output appends)

/-! ## Reading and writing -/

/-- The bytes with `os` laid over them from `offset` on; a gap is filled with NULs. -/
def overlay (contents : Octets) (offset : Nat) (os : Octets) : Octets :=
  let before := contents.take offset
  before ++ List.replicate (offset - before.length) '\x00' ++ os ++
    contents.drop (offset + os.length)

/-- The head of a program's file. -/
def programHead : Octets := ['\x7f', 'E', 'L', 'F', '\x02', '\x01', '\x01', '\x00']

/-- Writes bytes to an open file. -/
def write (w : World) (f : Nat) (os : Octets) : Except Errno World :=
  let file := w.file f
  if !file.writes then .error .badDescriptor
  else
    match file.target with
    | .channel c =>
      let now := w.clock
      .ok (w.modifyChannel c fun ch ↦ ch.push now os)
    | .node n =>
      match w.tree.content n with
      | .file contents =>
        let w := w.stamped
        let offset := if file.appends then contents.length else file.offset
        let tree := w.tree.setContent n (.file (overlay contents offset os))
        .ok ({ w with tree }.setOffset f (offset + os.length))
      | .directory .. => .error .isDirectory
      | .device .full => .error .noSpace
      | _ => .ok w

/-- Reads up to `count` bytes from an open file, of those that are there. -/
def read (w : World) (f count : Nat) : Except Errno (Octets × World) :=
  let file := w.file f
  if !file.reads then .error .badDescriptor
  else
    match file.target with
    | .channel c =>
      let (got, channel) := (w.channel c).take w.clock count
      .ok (got, w.modifyChannel c fun _ ↦ channel)
    | .node n =>
      let from_ (contents : Octets) : Except Errno (Octets × World) :=
        let got := (contents.drop file.offset).take count
        .ok (got, w.setOffset f (file.offset + got.length))
      match w.tree.content n with
      | .file contents => from_ contents
      | .program _ => from_ programHead
      | .directory .. => .error .isDirectory
      | .device .zero | .device .full | .device .noise =>
        .ok (List.replicate count '\x00', w)
      | _ => .ok ([], w)

/-- How much of an endless channel is read by whoever reads to the end. -/
def endlessCut : Nat := 65536

/-- Reads an open file as far as it is there. -/
def readAll (w : World) (f : Nat) : Except Errno (Octets × World) :=
  let count :=
    match (w.file f).target with
    | .channel c =>
      let c := w.channel c
      c.size + if c.endless.isEmpty then 0 else endlessCut
    | .node n =>
      match w.tree.content n with
      | .file contents => contents.length
      | _ => programHead.length
  w.read f count

/-- When the end of an open file can be read. -/
def closingTime (w : World) (f : Nat) : Nat :=
  match w.channelOf? f with
  | some c => (w.channel c).closes
  | none => 0

/-- The whole contents of the file at a path. -/
def slurp (w : World) (cwd : Nat) (path : Octets) : Except Errno Octets := do
  let n ← w.tree.resolve cwd path
  match w.tree.content n with
  | .file contents => return contents
  | .directory .. => throw .isDirectory
  | .program _ => return programHead
  | _ => return []

end World

/-- How a program was started. -/
structure Invocation where
  /-- The name that it goes by in its messages. -/
  name : Octets
  args : List Octets
  /-- The environment, as entries `NAME=value`. -/
  env : List Octets

/-- The value of a variable in an environment. -/
def variableIn? (env : List Octets) (name : Octets) : Option Octets :=
  (env.find? fun e ↦ e.takeWhile (· != '=') == name && e.contains '=').map fun e ↦
    e.drop (name.length + 1)

/-- The value of a variable. -/
def Invocation.valueOf? (i : Invocation) (name : String) : Option Octets :=
  variableIn? i.env name.toList

end ShellEngine.Machine
