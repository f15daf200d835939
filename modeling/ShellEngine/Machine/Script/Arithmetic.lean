import ShellEngine.Machine.Script.Syntax
import ShellEngine.Text.Numeral

/-!
# Arithmetic

Expressions over whole numbers of 64 bits, with variables that hold numbers and may be assigned to.
What is not needed for the value is read but not evaluated: the side of a condition that was not
chosen assigns nothing, and its divisions by zero do no harm.
-/

namespace ShellEngine.Machine.Script

/-- Why an expression has no value. -/
inductive ArithmeticError
  | expecting (what : String)
  | divisionByZero
  | illegalNumber (text : Octets)
  | readOnly (name : Octets)

/-- A part of an expression. -/
inductive Lexeme
  | ended
  | bad
  | number (n : Int)
  | variable (name : Octets)
  | operator (symbol : String)
  deriving DecidableEq, Inhabited

/-- An expression that is being evaluated. -/
structure Calculation where
  rest : Octets
  /-- The text of a variable. -/
  value : Octets → Octets
  isReadOnly : Octets → Bool
  /-- What was assigned, the latest first. -/
  assigned : List (Octets × Int) := []
  /-- The lexeme behind the operand that was read last. -/
  last : Lexeme := .ended

abbrev Calculator := ExceptT ArithmeticError (StateM Calculation)

namespace Calculator

/-- A number as a word of 64 bits holds it. -/
def wrap (i : Int) : Int := Int.bmod i 18446744073709551616

def largest : Int := 9223372036854775807

/-- The digits of a radix at the start of a text, as a number, and what follows them. -/
def digits (radix : Nat) (os : Octets) : Option (Nat × Octets) :=
  let ds := os.takeWhile fun c ↦ (Text.digit? radix c).isSome
  if ds.isEmpty then none
  else some (ds.foldl (fun n c ↦ n * radix + (Text.digit? radix c).getD 0) 0, os.drop ds.length)

/-- The number without a sign at the start of a text, and what follows it. Its first characters tell
the radix. -/
def magnitude (os : Octets) : Option (Nat × Octets) :=
  let marked (radix : Nat) (rest : Octets) : Option (Nat × Octets) :=
    (digits radix rest).orElse fun _ ↦ digits 8 os
  match os with
  | '0' :: 'x' :: rest | '0' :: 'X' :: rest => marked 16 rest
  | '0' :: 'b' :: rest | '0' :: 'B' :: rest => marked 2 rest
  | '0' :: _ => digits 8 os
  | _ => digits 10 os

def isSpace (c : Char) : Bool := c == ' ' || (9 ≤ c.toNat && c.toNat ≤ 13)

/-- The number that a text is, in a radix or in the one that its first characters tell. A blank text
is zero only where any radix will do. -/
def numberOf (radix : Option Nat) (os : Octets) : Except ArithmeticError Int :=
  let body := os.dropWhile isSpace
  let (isNegative, unsigned) :=
    match body with
    | '-' :: rest => (true, rest)
    | '+' :: rest => (false, rest)
    | rest => (false, rest)
  let read :=
    match radix with
    | some radix => digits radix unsigned
    | none => magnitude unsigned
  match read with
  | none =>
    if radix.isNone && body.isEmpty then .ok 0 else .error (.illegalNumber os)
  | some (n, rest) =>
    let n : Int := if isNegative then -(n : Int) else n
    if !rest.all isSpace || largest < n || n < -largest - 1 then .error (.illegalNumber os)
    else .ok n

/-- The symbols of operators, each before those that it begins with. -/
def symbols : List String :=
  ["<<=", ">>=", "<<", ">>", "<=", ">=", "<", ">", "==", "=", "!=", "!", "||", "|=", "|", "&&",
   "&=", "&", "(", ")", "*=", "*", "/=", "/", "%=", "%", "+=", "+", "-=", "-", "~", "^=", "^",
   "?", ":"]

/-- Reads the next lexeme. -/
def next : Calculator Lexeme := do
  let s ← get
  let os := s.rest.dropWhile fun c ↦ c == ' ' || c == '\t' || c == '\n'
  let go (l : Lexeme) (rest : Octets) : Calculator Lexeme := do
    set { s with rest }
    return l
  match os with
  | [] => go .ended []
  | c :: _ =>
    if c.isDigit then
      match magnitude os with
      | some (n, rest) => go (.number (if largest < n then largest else n)) rest
      | none => go .bad os
    else
      let name := leadingName os
      if !name.isEmpty then go (.variable name) (os.drop name.length)
      else
        match symbols.find? fun s ↦ s.toList.isPrefixOf os with
        | some symbol => go (.operator symbol) (os.drop symbol.length)
        | none => go .bad os

/-- How loosely the operators between two operands bind. -/
def looseness : List (String × Nat) :=
  [("*", 0), ("/", 0), ("%", 0), ("+", 1), ("-", 1), ("<<", 2), (">>", 2), ("<", 3), ("<=", 3),
   (">", 3), (">=", 3), ("==", 4), ("!=", 4), ("&", 5), ("^", 6), ("|", 7)]

/-- The operator between two operands that a lexeme is, with its looseness. -/
def between? : Lexeme → Option (String × Nat)
  | .operator symbol => (looseness.lookup symbol).map (symbol, ·)
  | _ => none

def truth (b : Bool) : Int := if b then 1 else 0

/-- The bits of a number, as a natural number. -/
def word (i : Int) : Nat := (i % 18446744073709551616).toNat

/-- How far a shift goes. -/
def shift (b : Int) : Nat := (b % 64).toNat

/-- The value of an operator between two numbers. -/
def apply (symbol : String) (a b : Int) : Calculator Int :=
  match symbol with
  | "|" => return wrap (Int.ofNat (word a ||| word b))
  | "^" => return wrap (Int.ofNat (word a ^^^ word b))
  | "&" => return wrap (Int.ofNat (word a &&& word b))
  | "==" => return truth (a == b)
  | "!=" => return truth (a != b)
  | "<=" => return truth (a ≤ b)
  | ">=" => return truth (a ≥ b)
  | "<" => return truth (a < b)
  | ">" => return truth (a > b)
  | "<<" => return wrap (a * Int.ofNat (1 <<< shift b))
  | ">>" => return Int.fdiv a (Int.ofNat (1 <<< shift b))
  | "+" => return wrap (a + b)
  | "-" => return wrap (a - b)
  | "*" => return wrap (a * b)
  | "/" => if b = 0 then throw .divisionByZero else return wrap (Int.tdiv a b)
  | _ => if b = 0 then throw .divisionByZero else return Int.tmod a b

def lookup (name : Octets) : Calculator Int := do
  let s ← get
  match s.assigned.lookup name with
  | some n => return n
  | none => numberOf none (s.value name)

def assign (name : Octets) (n : Int) : Calculator Int := do
  if (← get).isReadOnly name then throw (.readOnly name)
  modify fun s ↦ { s with assigned := (name, n) :: s.assigned }
  return n

def setLast (l : Lexeme) : Calculator Unit := modify fun s ↦ { s with last := l }

/-- The operator that an assignment applies before it assigns. -/
def compound? : Lexeme → Option (Option String)
  | .operator "=" => some none
  | .operator symbol =>
    if ["<<=", ">>=", "|=", "&=", "*=", "/=", "%=", "+=", "-=", "^="].contains symbol then
      some (some (String.ofList symbol.toList.dropLast))
    else none
  | _ => none

mutual

/-- Evaluates an operand that begins with `first`, behind which `after` was read; without
`evaluates`, nothing comes of it. -/
def operand (evaluates : Bool) (first after : Lexeme) : Nat → Calculator Int
  | 0 => throw (.expecting "primary")
  | fuel + 1 => do
    match first with
    | .operator "(" =>
      let n ← assignment evaluates after fuel
      if (← get).last != .operator ")" then throw (.expecting "')'")
      setLast (← next)
      return n
    | .number n =>
      setLast after
      return n
    | .variable name =>
      setLast after
      if evaluates then lookup name else return 0
    | .operator "+" => operand evaluates after (← next) fuel
    | .operator "-" => return wrap (-(← operand evaluates after (← next) fuel))
    | .operator "!" => return truth ((← operand evaluates after (← next) fuel) == 0)
    | .operator "~" => return -(← operand evaluates after (← next) fuel) - 1
    | _ => throw (.expecting "primary")

/-- Evaluates an operator behind its left operand, and those after it that bind closer than
`limit`. -/
def operators (evaluates : Bool) (left : Int) (symbol : String) (own limit : Nat) :
    Nat → Calculator Int
  | 0 => throw (.expecting "primary")
  | fuel + 1 => do
    let first ← next
    let right ← operand evaluates first (← next) fuel
    let right ←
      match between? (← get).last with
      | some (tighter, level) =>
        if level < own then operators evaluates right tighter level own fuel else pure right
      | none => pure right
    let n ← if evaluates then apply symbol left right else pure right
    match between? (← get).last with
    | some (more, level) =>
      if limit ≤ level then return n else operators evaluates n more level limit fuel
    | none => return n

def arithmetic (evaluates : Bool) (first after : Lexeme) : Nat → Calculator Int
  | 0 => throw (.expecting "primary")
  | fuel + 1 => do
    let n ← operand evaluates first after fuel
    match between? (← get).last with
    | some (symbol, level) => operators evaluates n symbol level 8 fuel
    | none => return n

def conjunction (evaluates : Bool) (first after : Lexeme) : Nat → Calculator Int
  | 0 => throw (.expecting "primary")
  | fuel + 1 => do
    let a ← arithmetic evaluates first after fuel
    if (← get).last != .operator "&&" then return a
    let first ← next
    let b ← conjunction (evaluates && a != 0) first (← next) fuel
    return truth (a != 0 && b != 0)

def disjunction (evaluates : Bool) (first after : Lexeme) : Nat → Calculator Int
  | 0 => throw (.expecting "primary")
  | fuel + 1 => do
    let a ← conjunction evaluates first after fuel
    if (← get).last != .operator "||" then return a
    let first ← next
    let b ← disjunction (evaluates && a == 0) first (← next) fuel
    return truth (a != 0 || b != 0)

def condition (evaluates : Bool) (first after : Lexeme) : Nat → Calculator Int
  | 0 => throw (.expecting "primary")
  | fuel + 1 => do
    let a ← disjunction evaluates first after fuel
    if (← get).last != .operator "?" then return a
    let b ← assignment (evaluates && a != 0) (← next) fuel
    if (← get).last != .operator ":" then throw (.expecting "':'")
    let first ← next
    let c ← condition (evaluates && a == 0) first (← next) fuel
    return if a != 0 then b else c

/-- Evaluates what begins with `first`, down to assignments. -/
def assignment (evaluates : Bool) (first : Lexeme) : Nat → Calculator Int
  | 0 => throw (.expecting "primary")
  | fuel + 1 => do
    let after ← next
    match first, compound? after with
    | .variable name, some operator? =>
      let n ← assignment evaluates (← next) fuel
      if !evaluates then return n
      match operator? with
      | none => assign name n
      | some symbol => assign name (← apply symbol (← lookup name) n)
    | _, _ => condition evaluates first after fuel

end

/-- Evaluates a whole expression. -/
def whole : Calculator Int := do
  let fuel := 20 * (← get).rest.length + 40
  let n ← assignment true (← next) fuel
  if (← get).last != .ended then throw (.expecting "EOF")
  return n

end Calculator

/-- Evaluates an expression: its value, and what it assigned, the latest first. -/
def calculate (value : Octets → Octets) (isReadOnly : Octets → Bool) (os : Octets) :
    Except ArithmeticError Int × List (Octets × Int) :=
  let (result, s) := StateT.run (ExceptT.run Calculator.whole) { rest := os, value, isReadOnly }
  (result, s.assigned)

end ShellEngine.Machine.Script
