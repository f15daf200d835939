import ShellEngine.Environment.Block
import ShellEngine.Text.Blank

/-!
# Probing the memory of a child

Where the environment of a stopped child lies is told by its `stat` line. How much can be read there
is not, so reads of decreasing size are tried: the window less the offset into the page, then one
page less each time, and last the stretch to the end of the first page.
-/

namespace ShellEngine.Probe

/-! ## Bounds -/

/-- The number of a field of a `stat` line that is followed by the command name's end. -/
def firstField : Nat := 3

def startField : Nat := 50
def endField : Nat := 51

/-- What follows the last closing parenthesis, since a command name may hold anything. -/
def afterName (line : List Char) : Option (List Char) :=
  if line.contains ')' then some (line.reverse.takeWhile (· != ')')).reverse else none

/-- An address in a field of a `stat` line. -/
def address (fields : List (List Char)) (number : Nat) : Except HarvestError Nat :=
  match fields[number - firstField]? with
  | some field =>
    match Text.readNat 10 0xFFFFFFFFFFFFFFFF field with
    | .ok n => .ok n
    | .error _ => unavailable
  | none => unavailable
where
  unavailable : Except HarvestError Nat :=
    .error (.parameters ("stat field " ++ toString number ++ " unavailable"))

/-- The first address of the environment and the first one after it. -/
def bounds (line : List Char) : Except HarvestError (Nat × Nat) := do
  match afterName line with
  | none => .error (.parameters "malformed stat line")
  | some rest =>
    let fields := Text.fields rest
    let start ← address fields startField
    let stop ← address fields endField
    if start = 0 || stop ≤ start then .error (.parameters "environment bounds withheld")
    else .ok (start, stop)

/-! ## Sizes -/

/-- The first `count` of `size`, `size - page`, `size - 2 * page`, … -/
def pageSteps (page size count : Nat) : List Nat :=
  (List.range count).map fun i ↦ size - i * page

/-- The size of the last read: the rest of the first page, unless the start is that of a page. -/
def lastSize (start page : Nat) : List Nat :=
  if start % page = 0 then [] else [page - start % page]

/-- The sizes of the reads to try, in order. -/
def sizes (start window page : Nat) : List Nat :=
  let first := window - start % page
  pageSteps page first (first / page) ++ lastSize start page

/-- The first `limit` sizes, found without making the others. -/
def firstSizes (limit start window page : Nat) : List Nat :=
  let first := window - start % page
  let count := first / page
  if limit ≤ count then pageSteps page first limit
  else (pageSteps page first count ++ lastSize start page).take limit

theorem firstSizes_eq_take (limit start window page : Nat) :
    firstSizes limit start window page = (sizes start window page).take limit := by
  simp only [firstSizes, sizes]
  split
  · next h =>
    rw [List.take_append_of_le_length (by simpa [pageSteps] using h)]
    simp [pageSteps, ← List.map_take, List.take_range, Nat.min_eq_left h]
  · rfl

/-- The first `limit` sizes. A page of size zero has no offsets, which is a crash. -/
def checkedSizes (limit start window page : Nat) : Except Crash (List Nat) :=
  if page = 0 then .error .emptyPage else .ok (firstSizes limit start window page)

/-- What reading the memory of a child can give. -/
inductive MemoryRead
  /-- The bytes from the address on, as many as could be read. -/
  | read (bs : Bytes)
  | fault
  | failed (e : Errno)

/-- Reads from `start` with the first of the sizes that succeeds in full. -/
def probe (memory : Nat → Nat → MemoryRead) (start : Nat) : List Nat → Except HarvestError Bytes
  | [] => .error .exhausted
  | size :: rest =>
    match memory start size with
    | .read bs => if bs.length = size then .ok bs else probe memory start rest
    | .fault => probe memory start rest
    | .failed e => .error (.memory e)

/-- Reads the environment that lies between two addresses. -/
def readEnvironment (memory : Nat → Nat → MemoryRead) (start stop window page : Nat) :
    Except HarvestError Dict := do
  let block ← probe memory start (sizes start window page)
  Environment.decode (block.take (stop - start) ++ [0])

/-! ## Directories -/

/-- What the link to the directory of a process ends with once the directory is gone. -/
def deletedMark : List Char := " (deleted)".toList

/-- The directory that a link names. -/
def linkedDirectory (link : String) : String :=
  let cs := link.toList
  if deletedMark.isSuffixOf cs then String.ofList (cs.take (cs.length - deletedMark.length))
  else link

end ShellEngine.Probe
