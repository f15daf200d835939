import ShellEngine.Machine.Script.Expansion
import ShellEngine.Machine.Script.Settings

/-!
# Reading a line

The command `read` takes its input byte by byte, so that nothing behind the line is lost to the
commands after it. The line is cut into as many fields as there are variables; the last one gets
all that is left.
-/

namespace ShellEngine.Machine.Script

/-- A line that is being read. -/
structure Incoming where
  cells : Array Cell := #[]
  regions : Array Region := #[]
  /-- Where the region begins that is being read. -/
  start : Nat := 0
  /-- Whether a backslash was just read. -/
  isEscaped : Bool := false

namespace Incoming

def put (l : Incoming) (c : Char) : Incoming :=
  { l with cells := l.cells.push (if WordReader.isControl c then .escaped c else .plain c) }

/-- Ends a region before the cell at a position; the next one begins behind all cells. -/
def endRegion (l : Incoming) (stop : Nat) : Incoming :=
  { l with regions := l.regions.push ⟨l.start, stop, false⟩, start := l.cells.size
           isEscaped := false }

/-- Reads one character; false if it ends the line. -/
def step (l : Incoming) (resolves : Bool) (c : Char) : Incoming × Bool :=
  if c == '\x00' then (l, true)
  else if l.isEscaped then
    let stop := l.cells.size
    ((if c == '\n' then l else l.put c).endRegion stop, true)
  else if resolves && c == '\\' then ({ l with isEscaped := true }, true)
  else if c == '\n' then (l, false)
  else (l.put c, true)

/-- Reads characters up to the end of the line; false if there is none. -/
def ofInput (resolves : Bool) : Nat → Incoming → Doing (Incoming × Bool)
  | 0, l => return (l, false)
  | fuel + 1, l => do
    match ← Doing.read 0 1 true with
    | .ok [c] =>
      let (l, goesOn) := l.step resolves c
      if goesOn then ofInput resolves fuel l else return (l, true)
    | _ => return (l, false)

/-- The fields of the line. -/
def fields (l : Incoming) (separators : Octets) (count : Nat) : List Octets :=
  let l := l.endRegion l.cells.size
  (Cutting.cut { cells := l.cells, regions := l.regions } separators (some count)).map Cell.text

end Incoming

namespace Builtin

open Act

def read : Builtin := fun _ args ↦ do
  let (found, names) ← letters "p:r" args
  if names.isEmpty then fail "arg count".toList
  let resolves := !found.any (·.1 == 'r')
  let (line, isWhole) ← doing (Incoming.ofInput resolves Doing.maxSteps {})
  let fields := line.fields (← separators) names.length
  let rec all : List Octets → List Octets → Act Unit
    | [], _ => return
    | name :: names, fields => do
      assign name (some (fields.headD []))
      all names (fields.drop 1)
  all names fields
  return if isWhole then 0 else 1

end Builtin

end ShellEngine.Machine.Script
