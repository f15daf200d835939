import ShellEngine.Machine.FileStatus
import ShellEngine.Machine.Tools.Options

/-!
# Trials

`test` as a program: whether a condition on texts, numbers and files holds. Up to four arguments are
understood by their number; more of them are read as an expression, in which `-a` binds closer than
`-o` and parentheses group.

The arguments are read from left to right. A condition that cannot be read is an error at the first
argument which does not fit, even where what was read before would have settled the answer.
-/

namespace ShellEngine.Machine.Tools

/-- Why a condition cannot be read. -/
inductive TrialError
  | missingAfter (arg : Octets)
  | invalidInteger (arg : Octets)
  | binaryExpected (arg : Octets)
  | unaryExpected (arg : Octets)
  | unwanted (operator : Octets)
  | missing (arg : Octets)
  | expected (arg : Octets)
  | expectedFound (arg found : Octets)
  | extra (arg : Octets)

def TrialError.message (i : Invocation) : TrialError → Octets
  | .missingAfter arg => "missing argument after ".toList ++ i.shown arg
  | .invalidInteger arg => "invalid integer ".toList ++ i.shown arg
  | .binaryExpected arg => i.shown arg ++ ": binary operator expected".toList
  | .unaryExpected arg => i.shown arg ++ ": unary operator expected".toList
  | .unwanted operator => operator ++ " does not accept -l".toList
  | .missing arg => "missing ".toList ++ i.shown arg
  | .expected arg => i.shown arg ++ " expected".toList
  | .expectedFound arg found => i.shown arg ++ " expected, found ".toList ++ i.shown found
  | .extra arg => "extra argument ".toList ++ i.shown arg

/-- The arguments of a condition. -/
structure Trial where
  world : World
  args : Array Octets
  /-- The argument that closes the condition and is not one of its own, if there is one. -/
  closer : Option Octets := none
  /-- Which argument comes next. -/
  position : Nat := 0

/-- A step in reading a condition. -/
abbrev TrialM := StateT Trial (Except TrialError)

namespace Trial

/-- The argument so many places on; empty behind the last one. -/
def peek (ahead : Nat) : TrialM Octets :=
  return (← get).args.getD ((← get).position + ahead) []

/-- How many arguments are left. -/
def left : TrialM Nat := return (← get).args.size - (← get).position

/-- Complains that the condition ends too early. -/
def beyond {α : Type} : TrialM α := do
  throw (.missingAfter ((← get).args.back?.getD []))

/-- Goes on by some arguments. -/
def skip (count : Nat) : TrialM Unit := modify fun t ↦ { t with position := t.position + count }

/-- Goes on by an argument, behind which there has to be another one. -/
def advance : TrialM Unit := do
  skip 1
  if (← left) = 0 then beyond

def binaryOperators : List String :=
  ["=", "!=", "==", "-nt", "-ot", "-ef", "-eq", "-ne", "-lt", "-le", "-gt", "-ge"]

def isBinary (arg : Octets) : Bool := binaryOperators.contains (String.ofList arg)

/-- The whole number that an argument is, between blanks. -/
def integer (arg : Octets) : TrialM Int :=
  let body := ((arg.dropWhile isSpace).reverse.dropWhile isSpace).reverse
  match readSigned? body with
  | some n => return n
  | none => throw (.invalidInteger arg)

/-- What is known of the file at a path. -/
def status? (path : Octets) (follow : Bool) : TrialM (Option FileStatus) := do
  let w := (← get).world
  return (w.status w.current.toStanding path follow).toOption

/-- A comparison of two operands, the second of which may be the length of a text; so may the first
one, which is then told by `length`. -/
def binary (length : Bool) : TrialM Bool := do
  if length then skip 1
  let left ← peek 0
  let operator ← peek 1
  let farther := 3 < (← Trial.left) && (← peek 2) = ['-', 'l']
  let right ← peek (if farther then 3 else 2)
  let numbers : TrialM (Int × Int) := do
    let x ← if length then pure (left.length : Int) else integer left
    let y ← if farther then pure (right.length : Int) else integer right
    return (x, y)
  let compare (f : Int → Int → Bool) : TrialM Bool := do
    let (x, y) ← numbers
    skip (if farther then 4 else 3)
    return f x y
  let files (f : Option FileStatus → Option FileStatus → Bool) : TrialM Bool := do
    let second ← peek 2
    skip (if farther then 4 else 3)
    if length || farther then throw (.unwanted operator)
    return f (← status? left true) (← status? second true)
  match String.ofList operator with
  | "-eq" => compare fun x y ↦ x == y
  | "-ne" => compare fun x y ↦ x != y
  | "-lt" => compare fun x y ↦ x < y
  | "-le" => compare fun x y ↦ x ≤ y
  | "-gt" => compare fun x y ↦ y < x
  | "-ge" => compare fun x y ↦ y ≤ x
  | "-nt" => files fun
    | some x, some y => y.modified < x.modified
    | x, _ => x.isSome
  | "-ot" => files fun
    | some x, some y => x.modified < y.modified
    | _, y => y.isSome
  | "-ef" => files fun
    | some x, some y => x.target == y.target
    | _, _ => false
  | operator =>
    -- behind the mark of a length the operands are taken from one place farther on
    if farther then skip 1
    let same := (← peek 0) == (← peek 2)
    skip 3
    return if operator == "!=" then !same else same

/-- A question about one operand. -/
def unary : TrialM Bool := do
  let operator ← peek 0
  let operand : TrialM Octets := do
    advance
    let arg ← peek 0
    skip 1
    return arg
  let file (f : FileStatus → Bool) (follow : Bool := true) : TrialM Bool := do
    return ((← status? (← operand) follow).map f).getD false
  let kind (k : FileKind) : TrialM Bool := file fun s ↦ s.kind = k
  let bit (b : Nat) : TrialM Bool := file fun s ↦ s.mode &&& b != 0
  match operator.drop 1 with
  | ['e'] | ['r'] | ['w'] | ['O'] | ['G'] => file fun _ ↦ true
  | ['x'] => file FileStatus.isExecutable
  | ['N'] => file fun s ↦ s.accessed < s.modified
  | ['f'] => kind .regular
  | ['d'] => kind .directory
  | ['s'] => file fun s ↦ 0 < s.size
  | ['c'] => kind .device
  | ['p'] => kind .pipe
  | ['b'] | ['S'] => file fun _ ↦ false
  | ['L'] | ['h'] => file (fun s ↦ s.kind = .link) false
  | ['u'] => bit 0o4000
  | ['g'] => bit 0o2000
  | ['k'] => bit 0o1000
  | ['t'] =>
    let _ ← integer (← operand)
    return false
  | ['n'] => return !(← operand).isEmpty
  | ['z'] => return (← operand).isEmpty
  | _ => throw (.unaryExpected operator)

/-- Whether an argument looks like a question. -/
def isUnary (arg : Octets) : Bool := arg.head? = some '-' && arg.length = 2

def one : TrialM Bool := do
  let arg ← peek 0
  skip 1
  return !arg.isEmpty

def two : TrialM Bool := do
  let arg ← peek 0
  if arg = ['!'] then
    skip 1
    return !(← one)
  else if isUnary arg then unary
  else beyond

mutual

/-- A condition of so many arguments. -/
def ofCount : Nat → Nat → TrialM Bool
  | 0, _ => beyond
  | fuel + 1, count => do
    match count with
    | 1 => one
    | 2 => two
    | 3 => three fuel
    | 4 =>
      if (← peek 0) = ['!'] then
        skip 1
        return !(← three fuel)
      else if (← peek 0) = ['('] && (← peek 3) = [')'] then
        skip 1
        let value ← two
        skip 1
        return value
      else expression fuel
    | _ => expression fuel

def three : Nat → TrialM Bool
  | 0 => beyond
  | fuel + 1 => do
    let middle ← peek 1
    if isBinary middle then binary false
    else if (← peek 0) = ['!'] then
      skip 1
      return !(← two)
    else if (← peek 0) = ['('] && (← peek 2) = [')'] then
      skip 1
      let value ← one
      skip 1
      return value
    else if middle = ['-', 'a'] || middle = ['-', 'o'] then expression fuel
    else throw (.binaryExpected middle)

def expression : Nat → TrialM Bool
  | 0 => beyond
  | fuel + 1 => do
    if (← left) = 0 then beyond
    let value ← conjunction fuel
    if (← peek 0) = ['-', 'o'] then
      skip 1
      return (← alternatives fuel) || value
    else return value

/-- What follows an `-o`. -/
def alternatives : Nat → TrialM Bool
  | 0 => beyond
  | fuel + 1 => do
    let value ← conjunction fuel
    if (← peek 0) = ['-', 'o'] then
      skip 1
      return (← alternatives fuel) || value
    else return value

def conjunction : Nat → TrialM Bool
  | 0 => beyond
  | fuel + 1 => do
    let value ← term fuel
    if (← peek 0) = ['-', 'a'] then
      skip 1
      return (← conjunction fuel) && value
    else return value

def term : Nat → TrialM Bool
  | 0 => beyond
  | fuel + 1 => do
    if (← left) = 0 then beyond
    let arg ← peek 0
    if arg = ['!'] then
      advance
      return !(← term fuel)
    if arg = ['('] then
      advance
      let rest := (← get).args.toList.drop ((← get).position + 1)
      let inner := (rest.takeWhile (· != [')'])).length
      let remaining ← left
      let count := if inner < 3 then inner + 1 else remaining
      let value ← ofCount fuel (min count remaining)
      let t ← get
      match (t.args[t.position]?).orElse fun _ ↦ t.closer with
      | none => throw (.expected [')'])
      | some [')'] => skip 1
      | some found => throw (.expectedFound [')'] found)
      return value
    let count ← left
    if 4 ≤ count && arg = ['-', 'l'] && isBinary (← peek 2) then binary true
    else if 3 ≤ count && isBinary (← peek 1) then binary false
    else if isUnary arg then unary
    else one

end

/-- Whether a condition holds. -/
def answer (t : Trial) : Except TrialError Bool :=
  if t.args.isEmpty then .ok false
  else
    StateT.run' (do
      let value ← ofCount (4 * t.args.size + 16) t.args.size
      if 0 < (← left) then throw (.extra (← peek 0))
      return value) t

end Trial

/-- Asks for the truth of a condition; with `brackets` it has to end in one. -/
def test (brackets : Bool) (i : Invocation) : Doing Nat := do
  let world ← Doing.look id
  let closed := i.args.getLast? = some [']']
  let answer : Except TrialError Bool :=
    if !brackets then Trial.answer { world, args := i.args.toArray }
    else if closed then
      Trial.answer { world, args := i.args.dropLast.toArray, closer := some [']'] }
    else .error (.missing [']'])
  match answer with
  | .ok value => return if value then 0 else 1
  | .error e =>
    i.complain (e.message i)
    return 2

end ShellEngine.Machine.Tools
