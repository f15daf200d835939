import ShellEngine.Machine.Formatting
import ShellEngine.Machine.Script.Settings
import ShellEngine.Machine.Tools.Characters

/-!
# Printing

The commands `echo` and `printf` of the interpreter. Unlike the programs of these names, `echo`
always resolves escapes, and `printf` goes on with what it has when an argument is no number.
-/

namespace ShellEngine.Machine.Script

namespace Builtin

open Act

/-! ## Escapes -/

/-- The character of an escape, which stands behind a backslash, and the rest. -/
def escape (os : Octets) : Char × Octets :=
  let digits := Tools.octalDigits 3 os
  if !digits.isEmpty then (Tools.octalByte digits, os.drop digits.length)
  else
    match os with
    | '\\' :: rest => ('\\', rest)
    | 'e' :: rest => ('\x1b', rest)
    | c :: rest =>
      match Tools.namedEscape? c with
      | some named => (named, rest)
      | none => ('\\', c :: rest)
    | [] => ('\\', [])

/-- An argument with its escapes resolved, and whether `\c` ended all output. Behind a zero there
may be three more octal digits. -/
def unescaped : Nat → Octets → Octets × Bool
  | 0, _ => ([], false)
  | fuel + 1, os =>
    let put (c : Char) (rest : Octets) : Octets × Bool :=
      let (more, stops) := unescaped fuel rest
      (c :: more, stops)
    match os with
    | [] => ([], false)
    | '\\' :: 'c' :: _ => ([], true)
    | '\\' :: '0' :: rest =>
      let digits := Tools.octalDigits 3 rest
      put (Tools.octalByte digits) (rest.drop digits.length)
    | '\\' :: rest =>
      let (c, rest) := escape rest
      put c rest
    | c :: rest => put c rest

def echo : Builtin := fun _ args ↦ do
  let keepsLine := args.head? != some ['-', 'n']
  let rec all : List Octets → Act Unit
    | [] => return
    | arg :: rest => do
      let (text, stops) := unescaped (arg.length + 1) arg
      print text
      if stops then return
      if !rest.isEmpty then
        print [' ']
        all rest
      else if keepsLine then print ['\n']
  let args := if keepsLine then args else args.drop 1
  if args.isEmpty && keepsLine then print ['\n'] else all args
  return 0

/-! ## Formats -/

/-- What a format still has to work with. -/
structure Formatting where
  args : List Octets
  status : Nat := 0
  /-- Whether an argument ended all output. -/
  isOver : Bool := false

abbrev Formatter := StateT Formatting Act

namespace Formatter

def act {α : Type} (a : Act α) : Formatter α := a

def put (os : Octets) : Formatter Unit := act (print os)

/-- The next argument, if there is one. -/
def next : Formatter (Option Octets) := do
  match (← get).args with
  | [] => return none
  | arg :: args =>
    modify fun f ↦ { f with args }
    return some arg

/-- The next argument as a number. A quote before a character makes it the number of that
character. -/
def numeric {α : Type} (ofByte : Nat → α) (read : Octets → Numeric α) : Formatter α := do
  match ← next with
  | none => return ofByte 0
  | some ('\'' :: rest) | some ('"' :: rest) => return ofByte ((rest.head?.map Char.toNat).getD 0)
  | some arg =>
    let n := read arg
    let complain (what : String) : Formatter Unit := do
      act (warn (arg ++ ": ".toList ++ what.toList))
      modify fun f ↦ { f with status := 1 }
    match n.fault with
    | .none => pure ()
    | .notNumeric => complain "expected numeric value"
    | .notComplete => complain "not completely converted"
    | .outOfRange => complain (Errno.text .outOfRange)
    return n.value

/-- The number that an argument is. That it does not fit is told only where all of it was read. -/
def wholeOf (isSigned : Bool) (arg : Octets) : Numeric Int :=
  let found := Numeric.ofArgument isSigned arg
  match Numeric.whole? arg with
  | some (_, _ :: _) => { found with fault := .notComplete }
  | _ => found

def whole (isSigned : Bool) : Formatter Int := numeric Int.ofNat (wholeOf isSigned)

def floating : Formatter Text.Floating :=
  numeric (fun n ↦ .finite false n 0) fun arg ↦
    match Text.Floating.read? .double arg with
    | some r =>
      { value := r.value
        fault := if !r.rest.isEmpty then .notComplete
          else if r.outOfRange then .outOfRange else .none }
    | none => Numeric.floating .double arg

/-- The digits of a width or a precision, which may be given by an argument. -/
def size (os : Octets) : Formatter (Int × Octets) := do
  match os with
  | '*' :: rest => return (← whole true, rest)
  | os =>
    let digits := os.takeWhile Char.isDigit
    return (((readDecimal? digits).getD 0 : Nat), os.drop digits.length)

/-- Writes one conversion, which stands behind a percent sign; gives the rest. -/
def convert (text : Octets) : Formatter Octets := do
  let flags := text.takeWhile fun c ↦ "#-+ 0".toList.contains c
  let c := flags.foldl (fun (c : Conversion) f ↦ (c.flag? f).getD c) {}
  let (width, os) ← size (text.drop flags.length)
  let c := c.withWidth width
  let (c, os) ←
    match os with
    | '.' :: rest => do
      let (n, rest) ← size rest
      pure (c.withPrecision n, rest)
    | os => pure (c, os)
  match os with
  | [] => act (fail "missing format character".toList)
  | letter :: rest =>
    match letter with
    | 'b' =>
      let arg := (← next).getD []
      let (text, stops) := unescaped (arg.length + 1) arg
      put (c.text text)
      if stops then modify fun f ↦ { f with isOver := true }
    | 'c' => put (c.pad [((← next).bind List.head?).getD '\x00'])
    | 's' => put (c.text ((← next).getD []))
    | _ =>
      if letter == 'd' || letter == 'i' then put (c.number letter (← whole true))
      else if "ouxX".toList.contains letter then put (c.number letter (← whole false))
      else if "aAeEfFgG".toList.contains letter then
        put (c.floating .double letter (← floating))
      else
        let directive := '%' :: text.take (text.length - rest.length)
        act (fail (directive ++ ": invalid directive".toList))
    return rest

/-- Writes a format once. -/
def once : Nat → Octets → Formatter Unit
  | 0, _ => return
  | fuel + 1, os => do
    if (← get).isOver then return
    match os with
    | [] => return
    | '%' :: '%' :: rest =>
      put ['%']
      once fuel rest
    | '%' :: rest => once fuel (← convert rest)
    | '\\' :: rest =>
      let (c, rest) := escape rest
      put [c]
      once fuel rest
    | c :: rest =>
      put [c]
      once fuel rest

/-- Writes a format as often as it takes to use up the arguments. -/
def all (format : Octets) : Nat → Formatter Unit
  | 0 => return
  | fuel + 1 => do
    let before := (← get).args.length
    once (format.length + 1) format
    let f ← get
    if !f.isOver && 0 < f.args.length && f.args.length < before then all format fuel

end Formatter

def printf : Builtin := fun _ args ↦ do
  let (_, args) ← letters "" args
  match args with
  | [] => fail "usage: printf format [arg ...]".toList
  | format :: args =>
    let ((), f) ← StateT.run (Formatter.all format (args.length + 1)) { args }
    return f.status

end Builtin

end ShellEngine.Machine.Script
