import ShellEngine.Text.Utf8

/-!
# Captured output

A buffer in memory that pipes are drained into. Each pipe has a *pump* that moves its bytes, in
chunks, and ends once the pipe is closed and empty. Several pumps may fill one buffer; it is final
while none is at work.
-/

namespace ShellEngine

/-- A pipe that is drained into a buffer. -/
structure Drain where
  name : String
  /-- Bytes written to the pipe that the pump has not read. -/
  transit : Bytes := []
  /-- Whether the pipe may still be written to. -/
  isOpen : Bool := true
  deriving DecidableEq, Repr

/-- A buffer with the pipes that are being drained into it. -/
structure OutputBuffer where
  contents : Bytes := []
  drains : List Drain := []
  /-- References to the buffer beside the first one and those of the pumps. -/
  clones : Nat := 0
  deriving DecidableEq, Repr

namespace OutputBuffer

/-- The most that a pump reads at once. -/
def chunk : Nat := 4096

/-- Changes the first drain of a name that satisfies `p`; `none` if there is none. -/
def alter (p : Drain → Bool) (change : Drain → List Drain) :
    List Drain → Option (List Drain)
  | [] => none
  | d :: rest => if p d then some (change d ++ rest) else (alter p change rest).map (d :: ·)

/-- Starts to drain a new pipe. -/
def commence (b : OutputBuffer) (name : String) : OutputBuffer :=
  { b with drains := b.drains ++ [{ name }] }

/-- Writes to an open pipe; false if there is none of that name. -/
def write (b : OutputBuffer) (name : String) (bs : Bytes) : Bool × OutputBuffer :=
  match alter (fun d ↦ d.name == name && d.isOpen)
      (fun d ↦ [{ d with transit := d.transit ++ bs }]) b.drains with
  | some drains => (true, { b with drains })
  | none => (false, b)

/-- Closes an open pipe; false if there is none of that name. -/
def close (b : OutputBuffer) (name : String) : Bool × OutputBuffer :=
  match alter (fun d ↦ d.name == name && d.isOpen)
      (fun d ↦ [{ d with isOpen := false }]) b.drains with
  | some drains => (true, { b with drains })
  | none => (false, b)

/-- The pump of a pipe reads up to `n` bytes, and no more than a chunk. -/
def pump (b : OutputBuffer) (name : String) (n : Nat) : OutputBuffer :=
  match b.drains.find? (·.name == name) with
  | none => b
  | some d =>
    let got := d.transit.take (min n chunk)
    match alter (·.name == name)
        (fun d ↦ [{ d with transit := d.transit.drop (min n chunk) }]) b.drains with
    | some drains => { b with contents := b.contents ++ got, drains }
    | none => b

/-- The pump of a pipe that is closed and empty ends. -/
def finish (b : OutputBuffer) (name : String) : OutputBuffer :=
  match alter (fun d ↦ d.name == name && !d.isOpen && d.transit.isEmpty) (fun _ ↦ [])
      b.drains with
  | some drains => { b with drains }
  | none => b

/-- All pumps read what there is, and those of closed pipes end. -/
def settle (b : OutputBuffer) : OutputBuffer :=
  { b with
    contents := b.contents ++ b.drains.flatMap Drain.transit
    drains := (b.drains.filter Drain.isOpen).map fun d ↦ { d with transit := [] } }

def clone (b : OutputBuffer) : OutputBuffer := { b with clones := b.clones + 1 }

/-- Drops a clone; false if there was none. -/
def unclone (b : OutputBuffer) : Bool × OutputBuffer :=
  if b.clones = 0 then (false, b) else (true, { b with clones := b.clones - 1 })

/-- Whether every pump has ended. -/
def isFinal (b : OutputBuffer) : Bool := b.drains.isEmpty

def references (b : OutputBuffer) : Nat := 1 + b.clones + b.drains.length

/-- The contents as text; bytes that are no text are replaced. -/
def text (b : OutputBuffer) : String := String.ofList (Text.decodeLossy b.contents)

/-- A short account of the buffer. -/
def summary (b : OutputBuffer) : String :=
  "OutputBuffer \x7b len: " ++ toString b.contents.length ++ ", active_pumps: " ++
    toString b.drains.length ++ " \x7d"

end OutputBuffer

end ShellEngine
