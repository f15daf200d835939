import ShellEngine.Machine.Course
import ShellEngine.Machine.Quoting
import ShellEngine.Text.Numeral

/-!
# Options

How tools read their arguments. Options are letters behind a dash, or words behind two, which may be
cut short as long as they stay clear. Some take a value. Options may stand among the operands; two
dashes end them, and a lone dash is an operand.

A tool looks at its options in their order, so what is wrong with a value comes out before what is
wrong with a later option. `Arguments.fault` is what ends the options, if they are not all read.
-/

namespace ShellEngine.Machine

/-- Whether an option takes a value. -/
inductive Takes
  | nothing
  | value
  /-- Only one that is attached to it. -/
  | perhaps
  deriving DecidableEq

/-- An option with all its spellings. -/
structure OptionSpec where
  key : String
  letters : List Char := []
  words : List String := []
  takes : Takes := .nothing

namespace OptionSpec

/-- An option without a value; its word is its key. -/
def flag (key : String) (letters : String := "") : OptionSpec :=
  { key, letters := letters.toList, words := [key] }

/-- An option with a value. -/
def valued (key : String) (letters : String := "") : OptionSpec :=
  { key, letters := letters.toList, words := [key], takes := .value }

/-- An option that may have a value. -/
def perhaps (key : String) (letters : String := "") : OptionSpec :=
  { key, letters := letters.toList, words := [key], takes := .perhaps }

/-- The options that every tool has. -/
def standard : List OptionSpec := [flag "help", flag "version"]

end OptionSpec

/-- What is wrong with an option. -/
inductive OptionError
  | unknown (letter : Char)
  | unknownWord (word : Octets)
  | ambiguous (word : Octets) (candidates : List String)
  | valueMissing (letter : Char)
  | wordValueMissing (word : String)
  | valueUnwanted (word : String)

/-- The wording of what is wrong with an option. -/
def OptionError.message : OptionError → Octets
  | .unknown c => "invalid option -- '".toList ++ [c, '\'']
  | .unknownWord word => "unrecognized option '--".toList ++ word ++ ['\'']
  | .ambiguous word candidates =>
    "option '--".toList ++ word ++ "' is ambiguous; possibilities:".toList ++
      candidates.flatMap fun c ↦ " '--".toList ++ c.toList ++ ['\'']
  | .valueMissing c => "option requires an argument -- '".toList ++ [c, '\'']
  | .wordValueMissing word => "option '--".toList ++ word.toList ++ "' requires an argument".toList
  | .valueUnwanted word =>
    "option '--".toList ++ word.toList ++ "' doesn't allow an argument".toList

/-- The arguments of a tool, sorted out. -/
structure Arguments where
  /-- The keys of the options in order, with the value of those that have one. -/
  options : List (String × Option Octets) := []
  fault : Option OptionError := none
  operands : List Octets := []

namespace Arguments

def has (a : Arguments) (key : String) : Bool := a.options.any (·.1 == key)

/-- The value of an option that was given last. -/
def value? (a : Arguments) (key : String) : Option Octets :=
  (a.options.reverse.find? (·.1 == key)).bind (·.2)

/-- Reads the letters behind one dash: the options, whether the last of them took the argument
after this one, and what is wrong. -/
def letters (specs : List OptionSpec) (next : Option Octets) :
    Octets → List (String × Option Octets) × Bool × Option OptionError
  | [] => ([], false, none)
  | c :: rest =>
    match specs.find? fun s ↦ s.letters.contains c with
    | none => ([], false, some (.unknown c))
    | some s =>
      match s.takes, rest, next with
      | .nothing, _, _ =>
        let (more, used, fault) := letters specs next rest
        ((s.key, none) :: more, used, fault)
      | .perhaps, [], _ => ([(s.key, none)], false, none)
      | _, _ :: _, _ => ([(s.key, some rest)], false, none)
      | .value, [], some value => ([(s.key, some value)], true, none)
      | .value, [], none => ([], false, some (.valueMissing c))

/-- The option that a word stands for, by its full word. -/
def ofWord (specs : List OptionSpec) (text : Octets) :
    Except OptionError (OptionSpec × String) :=
  let word := text.takeWhile (· != '=')
  let all := specs.flatMap fun s ↦ s.words.map (s, ·)
  match all.find? fun e ↦ e.2.toList = word with
  | some found => .ok found
  | none =>
    match all.filter fun e ↦ word.isPrefixOf e.2.toList with
    | [] => .error (.unknownWord text)
    | first :: others =>
      if others.all fun e ↦ e.1.key == first.1.key then .ok first
      else .error (.ambiguous text ((first :: others).map (·.2)))

/-- Reads the word behind two dashes. -/
def word (specs : List OptionSpec) (next : Option Octets) (text : Octets) :
    List (String × Option Octets) × Bool × Option OptionError :=
  match ofWord specs text with
  | .error e => ([], false, some e)
  | .ok (s, full) =>
    let value? := if text.contains '=' then some ((text.dropWhile (· != '=')).drop 1) else none
    match s.takes, value?, next with
    | .nothing, some _, _ => ([], false, some (.valueUnwanted full))
    | .value, none, some value => ([(s.key, some value)], true, none)
    | .value, none, none => ([], false, some (.wordValueMissing full))
    | _, value?, _ => ([(s.key, value?)], false, none)

/-- What an operand may stand for instead of itself, in front of what follows it: an option with a
value, and whether the argument after it belongs to it. -/
abbrev Disguise := Octets → Option Octets → Option (String × Octets × Bool)

/-- Sorts arguments into options and operands. With `strict`, the first operand ends the
options. -/
def read (specs : List OptionSpec) (strict : Bool) (args : List Octets)
    (disguise : Disguise := fun _ _ ↦ none) : Arguments :=
  go {} false args
where
  /-- `skip` tells that the first argument was the value of the option before it. -/
  go (found : Arguments) (skip : Bool) : List Octets → Arguments
    | [] => found
    | arg :: rest =>
      if skip then go found false rest
      else
        let add (r : List (String × Option Octets) × Bool × Option OptionError) : Arguments :=
          let found := { found with options := found.options ++ r.1 }
          match r.2.2 with
          | some fault => { found with fault }
          | none => go found r.2.1 rest
        match arg with
        | ['-', '-'] => { found with operands := found.operands ++ rest }
        | '-' :: '-' :: text => add (word specs rest.head? text)
        | '-' :: c :: cs => add (letters specs rest.head? (c :: cs))
        | _ =>
          match disguise arg rest.head? with
          | some (key, value, used) => add ([(key, some value)], used, none)
          | none =>
            if strict then { found with operands := arg :: rest }
            else go { found with operands := found.operands ++ [arg] } false rest

end Arguments

namespace Invocation

/-- Points to the help text and ends with a code. -/
def seeHelp (i : Invocation) (code : Nat) : Doing Nat := do
  Doing.put 2 ("Try '".toList ++ i.name ++ " --help' for more information.\n".toList)
  return code

/-- Complains, points to the help text, and ends with a code. -/
def misuse (i : Invocation) (message : Octets) (code : Nat) : Doing Nat := do
  i.complain message
  i.seeHelp code

/-- Complains about an error in something; ends with a code. -/
def failWith (i : Invocation) (message : Octets) (e : Errno) : Doing Unit :=
  i.complain (message ++ ": ".toList ++ e.text.toList)

/-- Sorts the arguments. -/
def arguments (i : Invocation) (specs : List OptionSpec) (strict : Bool := false)
    (disguise : Arguments.Disguise := fun _ _ ↦ none) : Arguments :=
  let strict := strict || (i.valueOf? "POSIXLY_CORRECT").isSome
  Arguments.read (specs ++ OptionSpec.standard) strict i.args disguise

/-- Runs a tool with its arguments sorted out, unless they are faulty or ask for help. -/
def withArguments (i : Invocation) (a : Arguments) (code : Nat) (run : Doing Nat) : Doing Nat :=
  match a.fault with
  | some fault => i.misuse fault.message code
  | none => if a.has "help" || a.has "version" then return 0 else run

/-- Runs a tool to its end: what could not be written then makes it fail with a code. -/
def closing (i : Invocation) (code : Nat) (run : Doing Nat) : Doing Nat := do
  let result ← run
  match (← Doing.task).unwritten with
  | none => return result
  | some e =>
    i.failWith "write error".toList e
    return code

end Invocation

/-! ## Numbers -/

/-- A whole decimal number. -/
def readDecimal? (os : Octets) : Option Nat :=
  if os.isEmpty || !os.all Char.isDigit then none
  else some (os.foldl (fun n c ↦ n * 10 + (c.toNat - '0'.toNat)) 0)

/-- A whole decimal number, perhaps with a sign. -/
def readSigned? : Octets → Option Int
  | '-' :: rest => (readDecimal? rest).map fun n ↦ -(n : Int)
  | '+' :: rest => (readDecimal? rest).map Int.ofNat
  | os => (readDecimal? os).map Int.ofNat

/-- A blank in the sense of most tools. -/
def isSpace (c : Char) : Bool := c == ' ' || (9 ≤ c.toNat && c.toNat ≤ 13)

/-- Why a text is no size. -/
inductive SizeError
  | invalid
  /-- A number with something behind it that is no suffix. -/
  | suffix
  | tooLarge
  deriving DecidableEq

namespace Size

/-- The largest size. -/
def largest : Nat := 18446744073709551615

/-- The powers of a thousand that letters stand for. -/
def powerOf? (c : Char) : Option Nat :=
  [('K', 1), ('k', 1), ('M', 2), ('m', 2), ('G', 3), ('g', 3), ('T', 4), ('t', 4), ('P', 5),
   ('E', 6), ('Z', 7), ('Y', 8), ('R', 9), ('Q', 10)].lookup c

/-- The factor that a suffix stands for. -/
def factor? (letters : String) (suffix : Octets) : Option Nat :=
  match suffix with
  | [] => some 1
  | c :: rest =>
    if !letters.toList.contains c then none
    else
      let scaled (base : Nat) : Option Nat := (powerOf? c).map (Nat.pow base ·)
      match rest, powerOf? c with
      | [], some _ => scaled 1024
      | [], none =>
        if c = 'b' then some 512 else if c = 'c' then some 1 else if c = 'w' then some 2
        else if c = 'B' then some 1024 else none
      | ['i', 'B'], some _ => if letters.toList.contains '0' then scaled 1024 else none
      | ['B'], some _ | ['D'], some _ => if letters.toList.contains '0' then scaled 1000 else none
      | _, _ => none

/-- Reads a size: a whole number, perhaps with one of the suffixes that begin with one of some
letters. -/
def read (letters : String) (os : Octets) : Except SizeError Nat :=
  let os := os.dropWhile isSpace
  let os := if os.head? = some '+' then os.drop 1 else os
  let digits := os.takeWhile Char.isDigit
  let suffix := os.drop digits.length
  let n? : Option Nat :=
    if digits.isEmpty then
      match suffix with
      | c :: _ => if letters.toList.contains c && c != '0' then some 1 else none
      | [] => none
    else readDecimal? digits
  match n?, factor? letters suffix with
  | some n, some factor => if largest < n * factor then .error .tooLarge else .ok (n * factor)
  | some _, none => .error .suffix
  | none, _ => .error .invalid

/-- The letters of the suffixes of counts. -/
def countLetters : String := "bkKmMGTPEZYRQ0"

end Size

/-- What is wrong with the number that an option has as its value. -/
def SizeError.message (option : String) (value : Octets) (e : SizeError) : Octets :=
  let text := option.toList ++ " argument '".toList ++ value ++ ['\'']
  match e with
  | .invalid => "invalid ".toList ++ text
  | .suffix => "invalid suffix in ".toList ++ text
  | .tooLarge => text ++ " too large".toList

/-- Reads a count; what is wrong with it is told after `complaint`. -/
def Invocation.readSize (i : Invocation) (letters : String) (complaint : String) (os : Octets) :
    Doing (Option Nat) := do
  match Size.read letters os with
  | .ok n => return some n
  | .error e =>
    let text := complaint.toList ++ ": ".toList ++ i.shown os
    match e with
    | .invalid | .suffix => i.complain text
    | .tooLarge => i.failWith text .tooLarge
    return none

end ShellEngine.Machine
