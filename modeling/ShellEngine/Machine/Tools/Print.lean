import ShellEngine.Machine.Formatting
import ShellEngine.Machine.Tools.Characters

/-!
# Tools that print their arguments

`echo` and `printf` as programs. The script interpreter has commands of these names with rules of
their own.
-/

namespace ShellEngine.Machine.Tools

/-! ## Echo -/

/-- The byte of one or two hexadecimal digits, and the rest. -/
def hexByte? (cs : Octets) : Option (Char × Octets) :=
  let digits := (cs.take 2).takeWhile fun c ↦ (Text.digit? 16 c).isSome
  if digits.isEmpty then none
  else
    some (Char.ofNat (digits.foldl (fun n c ↦ n * 16 + (Text.digit? 16 c).getD 0) 0),
      cs.drop digits.length)

/-- Resolves the escapes of an echo. The flag tells that `\c` ended all output. -/
def echoEscapes : Nat → Octets → Octets × Bool
  | 0, os => (os, false)
  | fuel + 1, os =>
    let go (c : Char) (rest : Octets) : Octets × Bool :=
      let (more, stop) := echoEscapes fuel rest
      (c :: more, stop)
    match os with
    | [] => ([], false)
    | '\\' :: 'c' :: _ => ([], true)
    | '\\' :: 'e' :: rest => go '\x1b' rest
    | '\\' :: '\\' :: rest => go '\\' rest
    | '\\' :: 'x' :: rest =>
      match hexByte? rest with
      | some (c, rest) => go c rest
      | none => go '\\' ('x' :: rest)
    | '\\' :: '0' :: rest =>
      let digits := octalDigits 3 rest
      go (octalByte digits) (rest.drop digits.length)
    | '\\' :: c :: rest =>
      let digits := octalDigits 3 (c :: rest)
      if !digits.isEmpty then go (octalByte digits) ((c :: rest).drop digits.length)
      else
        match namedEscape? c with
        | some named => go named rest
        | none => go '\\' (c :: rest)
    | c :: rest => go c rest

def echo (i : Invocation) : Doing Nat :=
  i.closing 1 do
    let portable := (i.valueOf? "POSIXLY_CORRECT").isSome
    let isOption (arg : Octets) : Bool :=
      match arg with
      | '-' :: c :: cs => (c :: cs).all fun c ↦ c == 'n' || c == 'e' || c == 'E'
      | _ => false
    let options :=
      if portable && i.args.head? != some ['-', 'n'] then [] else i.args.takeWhile isOption
    let letters := options.flatMap (·.drop 1)
    let escapes := portable || (letters.filter (· != 'n')).getLast? == some 'e'
    let text := (List.intersperse [' '] (i.args.drop options.length)).flatten
    let (text, stop) := if escapes then echoEscapes (text.length + 1) text else (text, false)
    Doing.out (text ++ if letters.contains 'n' || stop then [] else ['\n'])
    return 0

/-! ## Formatted output -/

/-- How far the writing of a format has come. -/
structure Printing where
  args : List Octets
  code : Nat := 0
  /-- What is to be written, the last byte first. -/
  written : Octets := []

/-- A step in writing a format; an exception ends the tool with its status. -/
abbrev PrintM := ExceptT Nat (StateT Printing Doing)

namespace PrintM

def put (os : Octets) : PrintM Unit :=
  modify fun p ↦ { p with written := os.reverse ++ p.written }

/-- Writes what is to be written. -/
def flush : PrintM Unit := do
  let p ← get
  set { p with written := [] }
  (Doing.out p.written.reverse : Doing Unit)

/-- Complains, behind what was written before. -/
def complain (i : Invocation) (message : Octets) : PrintM Unit := do
  flush
  (i.complain message : Doing Unit)

/-- Complains and ends the tool. -/
def abort {α : Type} (i : Invocation) (message : Octets) : PrintM α := do
  complain i message
  throw 1

/-- The next argument, or none when all are used up. -/
def next : PrintM (Option Octets) := do
  match (← get).args with
  | [] => return none
  | arg :: rest =>
    modify fun p ↦ { p with args := rest }
    return some arg

/-- Reads an argument as a number. A quote before a character makes it the number of that
character. -/
def numeric {α : Type} (i : Invocation) (ofByte : Nat → α) (read : Octets → Numeric α)
    (arg : Octets) : PrintM α := do
  match arg with
  | '\'' :: c :: rest | '"' :: c :: rest =>
    if !rest.isEmpty && (i.valueOf? "POSIXLY_CORRECT").isNone then
      complain i ("warning: ".toList ++ rest ++
        ": character(s) following character constant have been ignored".toList)
    return ofByte c.toNat
  | _ =>
    let n := read arg
    let fail (message : String) : PrintM Unit := do
      complain i (i.shown arg ++ ": ".toList ++ message.toList)
      modify fun p ↦ { p with code := 1 }
    match n.fault with
    | .none => pure ()
    | .notNumeric => fail "expected a numeric value"
    | .notComplete => fail "value not completely converted"
    | .outOfRange => fail (Errno.text .outOfRange)
    return n.value

def whole (i : Invocation) (isSigned : Bool) (arg : Octets) : PrintM Int :=
  numeric i Int.ofNat (Numeric.ofArgument isSigned) arg

/-- The largest width and precision. -/
def largestSize : Int := 2147483647

/-- Writes the character of a number, by its number where the encoding lacks it. -/
def putUnicode (i : Invocation) (n : Nat) : PrintM Unit := do
  if n < 128 || i.isUnicode then
    put (Octets.ofString (String.singleton (Char.ofNat n)))
  else
    let count := if n < 65536 then 4 else 8
    let digits := (Nat.toDigits 16 n).map Char.toUpper
    put (['\\', if n < 65536 then 'u' else 'U'] ++ List.replicate (count - digits.length) '0' ++
      digits)

/-- Writes the character of an escape, which stands behind a backslash; gives the rest. In an
argument, octal digits may stand behind a zero. -/
def escape (i : Invocation) (inArgument : Bool) (os : Octets) : PrintM Octets := do
  match os with
  | 'x' :: rest =>
    match hexByte? rest with
    | some (c, rest) =>
      put [c]
      return rest
    | none => abort i "missing hexadecimal number in escape".toList
  | 'c' :: _ =>
    flush
    throw 0
  | 'e' :: rest =>
    put ['\x1b']
    return rest
  | 'u' :: rest | 'U' :: rest =>
    let count := if os.head? = some 'u' then 4 else 8
    let digits := rest.take count
    if digits.length < count || !digits.all fun c ↦ (Text.digit? 16 c).isSome then
      abort i "missing hexadecimal number in escape".toList
    let n := digits.foldl (fun n c ↦ n * 16 + (Text.digit? 16 c).getD 0) 0
    if (n ≤ 0x9f && n != 0x24 && n != 0x40 && n != 0x60) || (0xd800 ≤ n && n ≤ 0xdfff) then
      abort i ("invalid universal character name ".toList ++ '\\' :: os.take 1 ++
        digits.map Char.toLower)
    putUnicode i n
    return rest.drop count
  | c :: rest =>
    let body := if inArgument && c == '0' then rest else os
    let digits := octalDigits 3 body
    if !digits.isEmpty || (inArgument && c == '0') then
      put [octalByte digits]
      return body.drop digits.length
    else
      match if c == '"' || c == '\\' then some c else namedEscape? c with
      | some named =>
        put [named]
        return rest
      | none =>
        put ['\\', c]
        return rest
  | [] =>
    put ['\\']
    return []

/-- Writes an argument with its escapes resolved. -/
def putEscaped (i : Invocation) : Nat → Octets → PrintM Unit
  | 0, _ => return
  | fuel + 1, os => do
    match os with
    | [] => return
    | '\\' :: rest => putEscaped i fuel (← escape i true rest)
    | c :: rest =>
      put [c]
      putEscaped i fuel rest

/-- Reads a width or a precision, which may be given by an argument. -/
def size (i : Invocation) (what : String) (negative : Bool) (os : Octets) :
    PrintM (Int × Octets) := do
  match os with
  | '*' :: rest =>
    match ← next with
    | none => return (0, rest)
    | some arg =>
      let n ← whole i true arg
      if largestSize < n || (negative && n < -largestSize - 1) then
        abort i (("invalid " ++ what ++ ": ").toList ++ i.shown arg)
      return (n, rest)
  | os =>
    let digits := os.takeWhile Char.isDigit
    return ((readDecimal? digits).getD 0, os.drop digits.length)

/-- Which letters a flag excludes. -/
def excluded (flag : Char) : List Char :=
  if flag == '\'' || flag == 'I' then "aAceEosxX".toList
  else if flag == '#' then "cdisu".toList
  else if flag == '0' then "cs".toList
  else []

/-- Writes one conversion, which stands behind a percent sign; gives the rest. -/
def convert (i : Invocation) (text : Octets) : PrintM Octets := do
  match text with
  | '%' :: rest =>
    put ['%']
    return rest
  | 'b' :: rest =>
    let arg := (← next).getD []
    putEscaped i (arg.length + 1) arg
    return rest
  | 'q' :: rest =>
    if let some arg ← next then
      put (if Quoting.isSpecial arg (Quoting.piecesOf i.isUnicode arg) then i.quoted arg else arg)
    return rest
  | _ =>
    let flags := text.takeWhile fun c ↦ "I'-+ #0".toList.contains c
    let os := text.drop flags.length
    let c := flags.foldl (fun (c : Conversion) f ↦ (c.flag? f).getD c) {}
    let (width, os) ← size i "field width" true os
    let c := c.withWidth width
    let (c, hasPoint, os) ←
      match os with
      | '.' :: rest => do
        let (n, rest) ← size i "precision" false rest
        pure (c.withPrecision n, true, rest)
      | os => pure (c, false, os)
    let os := os.dropWhile fun ch ↦ "hlLjzt".toList.contains ch
    let letter := os.headD '\x00'
    let rest := os.drop 1
    let out := flags.flatMap excluded ++ if hasPoint then ['c'] else []
    if !"aAcdeEfFgGiosuxX".toList.contains letter || out.contains letter then
      let conversion := '%' :: text.take (text.length - rest.length)
      abort i (conversion ++ ": invalid conversion specification".toList)
    let arg := (← next).getD []
    if letter == 's' then put (c.text arg)
    else if letter == 'c' then put (c.pad [arg.headD '\x00'])
    else if "diouxX".toList.contains letter then
      let n ← whole i (letter == 'd' || letter == 'i') arg
      put (c.number letter n)
    else
      let ofByte (n : Nat) : Text.Floating := .finite false n 0
      let x ← numeric i ofByte (Numeric.floating .extended) arg
      put (c.floating .extended letter x)
    return rest

/-- Writes a format once. -/
def once (i : Invocation) : Nat → Octets → PrintM Unit
  | 0, _ => return
  | fuel + 1, os => do
    match os with
    | [] => return
    | '%' :: rest => once i fuel (← convert i rest)
    | '\\' :: rest => once i fuel (← escape i false rest)
    | c :: rest =>
      put [c]
      once i fuel rest

/-- Writes a format as often as it takes to use up the arguments. -/
def all (i : Invocation) (format : Octets) : Nat → PrintM Unit
  | 0 => return
  | fuel + 1 => do
    let before := (← get).args.length
    once i (format.length + 1) format
    let after := (← get).args.length
    if 0 < after && after < before then all i format fuel

end PrintM

def printf (i : Invocation) : Doing Nat :=
  i.closing 1 do
    if i.args = ["--help".toList] || i.args = ["--version".toList] then return 0
    match if i.args.head? = some ['-', '-'] then i.args.drop 1 else i.args with
    | [] => i.misuse "missing operand".toList 1
    | format :: args =>
      let act : PrintM Unit := do
        PrintM.all i format (args.length + 1)
        if let arg :: _ := (← get).args then
          PrintM.complain i
            ("warning: ignoring excess arguments, starting with ".toList ++ i.shown arg)
        PrintM.flush
      let (result, p) ← StateT.run (ExceptT.run act) { args }
      match result with
      | .ok () => return p.code
      | .error code => return code

end ShellEngine.Machine.Tools
