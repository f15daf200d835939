import ShellEngine.Machine.World

/-!
# What programs do

A program at work is a `Course`: what it goes on to do, up to the next point at which others may get
their turn. It acts on the world, waits until the world is ready or a time has come, leaves a child
to a course of its own, or ends.

Programs are written in `Doing`, the monad of actions that are told how the course goes on after
them. Nothing they do takes time unless they say so.
-/

namespace ShellEngine.Machine

/-- What a task goes on to do. -/
inductive Course where
  | ended (how : ProcessEnd)
  | act (f : World → World × Course)
  /-- Goes on as soon as the world is ready, at the latest when the deadline has come. -/
  | await (ready : World → Bool) (deadline : Option Nat) (next : Course)
  /-- Starts a child; the course goes on with its process id. -/
  | fork (child : Course) (next : Nat → Course)

instance : Inhabited Course := ⟨.ended (.exited 0)⟩

/-- Something that a task does, given the course after it. -/
def Doing (α : Type) : Type := (α → Course) → Course

instance : Monad Doing where
  pure a := fun next ↦ next a
  bind d f := fun next ↦ d fun a ↦ f a next

namespace Doing

/-- Asks or changes the world. -/
def change {α : Type} (f : World → α × World) : Doing α := fun next ↦
  .act fun w ↦
    let (a, w) := f w
    (w, next a)

/-- Asks the world. -/
def look {α : Type} (f : World → α) : Doing α := change fun w ↦ (f w, w)

/-- Changes the world. -/
def alter (f : World → World) : Doing Unit := change fun w ↦ ((), f w)

/-- Does something that may fail, and tells how. -/
def attempt {α : Type} (f : World → Except Errno (α × World)) : Doing (Except Errno α) :=
  change fun w ↦
    match f w with
    | .ok (a, w) => (.ok a, w)
    | .error e => (.error e, w)

/-- Changes the file tree, which may fail. -/
def changeTree (f : FileTree → Except Errno FileTree) : Doing (Except Errno Unit) :=
  attempt fun w ↦ (f w.stamped.tree).map fun tree ↦ ((), { w with tree })

/-- The task that is at work. -/
def task : Doing Task := look World.current

def self : Doing Nat := look World.self

def modifyTask (f : Task → Task) : Doing Unit := alter fun w ↦ w.modifyTask w.self f

/-- Ends the task. -/
def finish {α : Type} (how : ProcessEnd) : Doing α := fun _ ↦ .ended how

/-- Starts a child, which has copies of the descriptors. -/
def fork (child : Doing ProcessEnd) : Doing Nat := fun next ↦ .fork (child .ended) next

/-- Waits until the world is ready, or until a time. -/
def await (ready : World → Bool) (deadline : Option Nat) : Doing Unit := fun next ↦
  .await ready deadline (next ())

/-- Lets time pass. -/
def spend (microseconds : Nat) : Doing Unit := fun next ↦
  .act fun w ↦ (w, .await (fun _ ↦ false) (some (w.clock + microseconds)) (next ()))

/-- Repeats something that says whether it is to be repeated. -/
def repeatWhile (step : Doing Bool) : Nat → Doing Unit
  | 0 => return
  | fuel + 1 => do if ← step then repeatWhile step fuel

/-! ## Descriptors -/

/-- The open file behind a descriptor. -/
def stream? (fd : Nat) : Doing (Option Nat) := look fun w ↦ w.current.streams.lookup fd

def setStreams (f : List (Nat × Nat) → List (Nat × Nat)) : Doing Unit :=
  alter fun w ↦ w.setStreams w.self (f w.current.streams)

/-- The descriptors with an open file behind one of them. -/
def bound (fd file : Nat) (streams : List (Nat × Nat)) : List (Nat × Nat) :=
  (fd, file) :: streams.filter (·.1 != fd)

/-- The descriptors without one of them. -/
def unbound (fd : Nat) (streams : List (Nat × Nat)) : List (Nat × Nat) :=
  streams.filter (·.1 != fd)

/-- Puts an open file behind a descriptor. -/
def bind (fd file : Nat) : Doing Unit := setStreams (bound fd file)

def close (fd : Nat) : Doing Unit := setStreams (unbound fd)

/-- Opens a path. -/
def openPath (path : Octets) (m : OpenMode) : Doing (Except Errno Nat) :=
  attempt fun w ↦ w.openPath w.current.toStanding path m

/-- The lowest descriptor from `from_` on that is free. -/
def freeDescriptor (streams : List (Nat × Nat)) (from_ : Nat) : Nat :=
  ((List.range (streams.length + 1)).map (from_ + ·)).find?
    (fun fd ↦ !streams.any (·.1 == fd)) |>.getD from_

/-- Opens a path under a descriptor that is free. -/
def openFree (path : Octets) (m : OpenMode) : Doing (Except Errno Nat) := do
  match ← openPath path m with
  | .error e => return .error e
  | .ok f =>
    let fd ← look fun w ↦ freeDescriptor w.current.streams 0
    bind fd f
    return .ok fd

/-! ## Reading -/

/-- Whether reading from an open file would not have to wait. -/
def hasInput (f : Nat) (w : World) : Bool :=
  match w.channelOf? f with
  | none => true
  | some c =>
    let ch := w.channel c
    match ch.nextTime? with
    | some time => time ≤ w.clock
    | none =>
      !ch.endless.isEmpty ||
        if ch.capacity.isSome then !w.isHeld c OpenFile.writes else ch.closes ≤ w.clock

/-- When there will be something to read, as far as that is settled. -/
def inputTime? (f : Nat) (w : World) : Option Nat := do
  let ch := w.channel (← w.channelOf? f)
  match ch.nextTime? with
  | some time => some time
  | none => if ch.capacity.isSome then none else some ch.closes

/-- Waits until an open file can be read; false if a signal came before, and that is listened to. -/
def awaitInput (f : Nat) (listens : Bool) : Doing Bool := do
  if ← look (hasInput f) then return true
  let pid ← self
  await (fun w ↦ hasInput f w || (listens && World.isCalled (w.task pid)))
    (← look (inputTime? f))
  look (hasInput f)

/-- Reads up to `count` bytes from a descriptor, as soon as there are any. -/
def read (fd count : Nat) (listens : Bool := false) : Doing (Except Errno Octets) := do
  match ← stream? fd with
  | none => return .error .badDescriptor
  | some f =>
    if !(← awaitInput f listens) then return .error .interrupted
    spend 1
    attempt fun w ↦ w.read f count

/-- The size of the blocks that are read. -/
def blockSize : Nat := 65536

/-- The most steps of anything that is repeated. -/
def maxSteps : Nat := 1000000

/-- Reads blocks up to the end. -/
def readBlocks (fd : Nat) : Nat → List Octets → Doing (Except Errno Octets)
  | 0, found => return .ok found.reverse.flatten
  | fuel + 1, found => do
    match ← read fd blockSize with
    | .error e => return .error e
    | .ok [] => return .ok found.reverse.flatten
    | .ok block => readBlocks fd fuel (block :: found)

/-- Reads a descriptor to its end. -/
def readAll (fd : Nat) : Doing (Except Errno Octets) := readBlocks fd maxSteps []

/-! ## Writing -/

/-- How many bytes wait in a channel of the engine before it is taken for abandoned. -/
def patience : Nat := 1048576

/-- How many of some bytes a channel would take now; `none` if nobody could read them. -/
def room (c : Nat) (w : World) : Option Nat :=
  let ch := w.channel c
  match ch.capacity with
  | none => if patience < ch.size then none else some patience
  | some capacity =>
    if w.isHeld c OpenFile.reads then some (capacity - ch.size) else none

/-- A write to a channel that nobody reads from. -/
def breakPipe : Doing (Except Errno Unit) := do
  let t ← task
  if t.ignored.contains World.pipeSignal then return .error .brokenPipe
  else if t.caught.contains World.pipeSignal then
    alter fun w ↦ w.send w.self World.pipeSignal
    return .error .brokenPipe
  else finish (.signaled World.pipeSignal)

/-- Writes bytes to an open file, as there is room for them. -/
def writeFile (f : Nat) : Nat → Octets → Doing (Except Errno Unit)
  | 0, _ => return .error .interrupted
  | fuel + 1, os => do
    match ← look fun w ↦ w.channelOf? f with
    | none => attempt fun w ↦ (w.write f os).map ((), ·)
    | some c =>
      if !(← look fun w ↦ (w.file f).writes) then return .error .badDescriptor
      match ← look (room c) with
      | none => breakPipe
      | some 0 =>
        await (fun w ↦ room c w != some 0) none
        writeFile f fuel os
      | some count =>
        alter fun w ↦ (w.write f (os.take count)).toOption.getD w
        let rest := os.drop count
        if rest.isEmpty then return .ok () else writeFile f fuel rest

/-- Writes bytes to a descriptor. -/
def write (fd : Nat) (os : Octets) : Doing (Except Errno Unit) := do
  if os.isEmpty then return .ok ()
  match ← stream? fd with
  | none => return .error .badDescriptor
  | some f => writeFile f maxSteps os

/-- Writes to a descriptor; what cannot be written is lost. -/
def put (fd : Nat) (os : Octets) : Doing Unit := do
  match ← write fd os with
  | .ok () | .error _ => return

/-- Writes to the standard output, and keeps in mind if that cannot be done. -/
def out (os : Octets) : Doing Unit := do
  match ← write 1 os with
  | .ok () => return
  | .error e => modifyTask fun t ↦ { t with unwritten := some (t.unwritten.getD e) }

/-- Lets a writer that never stops fill a channel of the engine; false for anything else. -/
def writeEndlessly (fd : Nat) (os : Octets) : Doing Bool :=
  change fun w ↦
    match (w.current.streams.lookup fd).bind w.channelOf? with
    | none => (false, w)
    | some c =>
      if (w.channel c).capacity.isSome then (false, w)
      else (true, w.modifyChannel c fun ch ↦ { ch with endless := os })

end Doing

/-- How the programs of the machine are run. -/
abbrev Programs := Tool → Invocation → Doing ProcessEnd

namespace Invocation

/-- Writes a message under the name of the program. -/
def complain (i : Invocation) (message : Octets) : Doing Unit :=
  Doing.put 2 (i.name ++ ": ".toList ++ message ++ ['\n'])

end Invocation

end ShellEngine.Machine
