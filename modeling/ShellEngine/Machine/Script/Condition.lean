import ShellEngine.Machine.Script.Settings

/-!
# Conditions

The command `test` of the interpreter. Its arguments are read from the left, and what an argument
means depends on the next ones: what looks like a question without an operand, or before an operator
between two operands, is an operand itself.
-/

namespace ShellEngine.Machine.Script

/-- What an operator of a condition connects. -/
inductive Operands
  | one
  | two
  /-- It joins or encloses conditions. -/
  | conditions
  deriving DecidableEq

/-- What an argument of a condition is taken for. -/
inductive Sign
  | end_
  | operand
  | operator (symbol : String) (operands : Operands)
  deriving DecidableEq

namespace Condition

open Act

/-- The operators of conditions. -/
def operators : List (String × Operands) :=
  ["!", "(", ")", "-a", "-o"].map (·, .conditions) ++
  ["<", "=", ">", "!=", "-eq", "-ge", "-gt", "-le", "-lt", "-ne", "-nt", "-ot", "-ef"].map
    (·, .two) ++
  ["-G", "-L", "-O", "-S", "-b", "-c", "-d", "-e", "-f", "-g", "-h", "-k", "-n", "-p", "-r", "-s",
   "-t", "-u", "-w", "-x", "-z"].map (·, .one)

def operandsOf? (arg : Octets) : Option Operands := operators.lookup (String.ofList arg)

/-- A condition that is being read, from a position among its arguments on. -/
abbrev Reading := StateT Nat Act

/-- What the argument at a position is taken for. -/
def sign (args : Array Octets) (position : Nat) : Sign :=
  match args[position]? with
  | none => .end_
  | some arg =>
    let isOperand : Bool :=
      match args[position + 1]?, args[position + 2]? with
      | none, _ => true
      | some _, none => false
      | some next, some _ => operandsOf? next == some .two
    match operandsOf? arg with
    | none => .operand
    | some .one => bif isOperand then .operand else .operator (String.ofList arg) .one
    | some operands =>
      if arg = ['('] && args[position + 1]?.isNone then .operand
      else .operator (String.ofList arg) operands

/-- Complains about an argument. -/
def wrong {α : Type} (arg : String) (message : String) : Reading α :=
  (fail ((if arg.isEmpty then "" else arg ++ ": ") ++ message).toList : Act α)

/-- A whole number, which may be negative. -/
def numberOf (os : Octets) : Reading Int :=
  match Calculator.numberOf (some 10) os with
  | .ok n => return n
  | .error _ => (badNumber os : Act Int)

/-- What is known of the file at a path. -/
def status? (path : Octets) (follow : Bool) : Act (Option FileStatus) := do
  return (← doing <| Doing.look fun w ↦ w.status w.current.toStanding path follow).toOption

/-- The answer to a question about one operand. -/
def ask (symbol : String) (os : Octets) : Reading Bool := do
  let file (f : FileStatus → Bool) : Reading Bool := do
    return ((← (status? os true : Act _)).map f).getD false
  let kind (k : FileKind) : Reading Bool := file fun s ↦ s.kind = k
  let bit (b : Nat) : Reading Bool := file fun s ↦ s.mode &&& b != 0
  match symbol with
  | "-z" => return os.isEmpty
  | "-n" => return !os.isEmpty
  | "-t" =>
    let _ ← numberOf os
    return false
  | "-h" | "-L" =>
    return ((← (status? os false : Act _)).map fun s ↦ decide (s.kind = .link)).getD false
  | "-x" => file FileStatus.isExecutable
  | "-f" => kind .regular
  | "-d" => kind .directory
  | "-c" => kind .device
  | "-p" => kind .pipe
  | "-s" => file fun s ↦ 0 < s.size
  | "-u" => bit 0o4000
  | "-g" => bit 0o2000
  | "-k" => bit 0o1000
  | "-b" | "-S" => return false
  | _ => file fun _ ↦ true

/-- The answer to a comparison. -/
def compare (symbol : String) (a b : Octets) : Reading Bool := do
  let numbers (f : Int → Int → Bool) : Reading Bool := do
    let x ← numberOf a
    return f x (← numberOf b)
  let files (f : FileStatus → FileStatus → Bool) : Reading Bool := do
    let x ← (status? a true : Act _)
    let y ← (status? b true : Act _)
    match x, y with
    | some x, some y => return f x y
    | _, _ => return false
  match symbol with
  | "=" => return a == b
  | "!=" => return a != b
  | "<" => return decide (a < b)
  | ">" => return decide (b < a)
  | "-eq" => numbers fun x y ↦ x == y
  | "-ne" => numbers fun x y ↦ x != y
  | "-lt" => numbers fun x y ↦ x < y
  | "-le" => numbers fun x y ↦ x ≤ y
  | "-gt" => numbers fun x y ↦ y < x
  | "-ge" => numbers fun x y ↦ y ≤ x
  | "-nt" => files fun x y ↦ y.modified < x.modified
  | "-ot" => files fun x y ↦ x.modified < y.modified
  | _ => files fun x y ↦ x.target == y.target

mutual

/-- Alternatives, the first of which begins with a sign. -/
def alternatives (args : Array Octets) (s : Sign) : Nat → Reading Bool
  | 0 => return false
  | fuel + 1 => do
    let left ← conjunction args s fuel
    let position ← get
    if sign args (position + 1) = .operator "-o" .conditions then
      set (position + 2)
      return (← alternatives args (sign args (position + 2)) fuel) || left
    return left

def conjunction (args : Array Octets) (s : Sign) : Nat → Reading Bool
  | 0 => return false
  | fuel + 1 => do
    let left ← negation args s fuel
    let position ← get
    if sign args (position + 1) = .operator "-a" .conditions then
      set (position + 2)
      return (← conjunction args (sign args (position + 2)) fuel) && left
    return left

def negation (args : Array Octets) (s : Sign) : Nat → Reading Bool
  | 0 => return false
  | fuel + 1 => do
    if s != .operator "!" .conditions then return ← primary args s fuel
    let next := sign args ((← get) + 1)
    if next != .end_ then modify (· + 1)
    return !(← negation args next fuel)

def primary (args : Array Octets) (s : Sign) : Nat → Reading Bool
  | 0 => return false
  | fuel + 1 => do
    let position ← get
    match s with
    | .end_ => return false
    | .operator "(" .conditions =>
      set (position + 1)
      let inside := sign args (position + 1)
      if inside = .operator ")" .conditions then return false
      let answer ← alternatives args inside fuel
      modify (· + 1)
      if sign args (← get) != .operator ")" .conditions then wrong "" "closing paren expected"
      return answer
    | .operator symbol .one =>
      set (position + 1)
      match args[position + 1]? with
      | none => wrong symbol "argument expected"
      | some os => ask symbol os
    | _ =>
      let os := args.getD position []
      match sign args (position + 1) with
      | .operator symbol .two =>
        set (position + 2)
        match args[position + 2]? with
        | none => wrong symbol "argument expected"
        | some other => compare symbol os other
      | _ => return !os.isEmpty

end

/-- The answer to a condition that is read from the left to the end. -/
def whole (args : Array Octets) (s : Sign) : Act Bool := do
  let (answer, position) ← StateT.run (alternatives args s (8 * args.size + 8)) 0
  if position + 1 < args.size then
    let arg := args.getD position []
    fail ((if arg.isEmpty then [] else arg ++ ": ".toList) ++ "unexpected operator".toList)
  return answer

/-- The answer to a condition. With three or four arguments, the number of them tells how they are
to be read. Negations in front of fewer than four are then one and the same. -/
def answer (args : Array Octets) : Act Bool := go false (args.size + 1) args
where
  go (isNegated : Bool) : Nat → Array Octets → Act Bool
    | 0, _ => return isNegated
    | fuel + 1, args => do
      let finish (args : Array Octets) (s : Sign) : Act Bool := do
        return (← whole args s) != isNegated
      let isShort := args.size = 3 || args.size = 4
      if args.isEmpty then return false
      else if args.size = 3 && operandsOf? (args.getD 1 []) = some .two then finish args .operand
      else if isShort && args.getD 0 [] = ['('] && args.getD (args.size - 1) [] = [')'] then
        let inside := args.extract 1 (args.size - 1)
        finish inside (sign inside 0)
      else if isShort && args.getD 0 [] = ['!'] then go true fuel (args.extract 1 args.size)
      else finish args (sign args 0)

end Condition

namespace Builtin

open Act

def test : Builtin := fun name args ↦ do
  let args ←
    if name = ['['] then
      if (args.getLast?.bind List.head?) != some ']' then fail "missing ]".toList
      pure args.dropLast
    else pure args
  return if ← Condition.answer args.toArray then 0 else 1

end Builtin

end ShellEngine.Machine.Script
