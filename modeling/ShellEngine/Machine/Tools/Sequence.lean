import ShellEngine.Machine.Formatting
import ShellEngine.Machine.Tools.Streams

/-!
# Sequences of numbers

The numbers from a first to a last one by steps, each in the format that shows all of them exactly,
or in one that is given.
-/

namespace ShellEngine.Machine.Tools

open Text (Floating)

/-- A number as it was given: its value, its width, and the number of digits behind its point, if
that can be told from the way it is written. -/
structure Bound where
  value : Floating
  width : Int := 0
  places : Option Int := none

/-- The number one. -/
def Bound.one : Bound := { value := .finite false 1 0, width := 1, places := some 0 }

/-- The width of a written number and its places, for one in decimal notation. -/
def Bound.measure (os : Octets) : Int × Option Int :=
  let point? := os.contains '.'
  let before := os.takeWhile (· != '.')
  let fraction := ((os.dropWhile (· != '.')).drop 1).takeWhile fun c ↦ c != 'e' && c != 'E'
  let isBare := before.isEmpty || !(before.getLast?.map Char.isDigit).getD false
  let width : Int := os.length
  let width :=
    if !point? then width
    else if fraction.isEmpty then width - 1
    else if isBare then width + 1 else width
  let places : Option Int :=
    if point? then some fraction.length else if os.contains 'p' then none else some 0
  let mantissa := os.takeWhile fun c ↦ c != 'e' && c != 'E'
  if mantissa.length = os.length then (width, places)
  else
    let digits := os.drop (mantissa.length + 1)
    let exponent : Int :=
      match digits with
      | '-' :: rest => -((readDecimal? (rest.takeWhile Char.isDigit)).getD 0 : Int)
      | '+' :: rest => (readDecimal? (rest.takeWhile Char.isDigit)).getD 0
      | rest => (readDecimal? (rest.takeWhile Char.isDigit)).getD 0
    let old := places.getD 2147483647
    let places := old + if exponent < 0 then -exponent else -(min old exponent)
    let width := width - (os.length - mantissa.length : Nat)
    let (width, shift) :=
      if exponent < 0 then
        (if point? then (if mantissa.getLast? = some '.' then width + 1 else width) else width + 1,
          -exponent)
      else
        (if point? && places = 0 && !fraction.isEmpty then width - 1 else width,
          exponent - min (fraction.length : Int) exponent)
    (width + shift, some places)

/-- Reads a number; a status if it is none. -/
def Bound.read (i : Invocation) (os : Octets) : Doing (Except Nat Bound) := do
  let fail (message : Octets) : Doing (Except Nat Bound) :=
    return .error (← i.misuse (message ++ i.shown os) 1)
  match Floating.read? .extended os with
  | none => fail "invalid floating point argument: ".toList
  | some r =>
    let isTooLarge := r.outOfRange && match r.value with | .infinite _ => true | _ => false
    if !r.rest.isEmpty || isTooLarge then fail "invalid floating point argument: ".toList
    else
      let text := os.dropWhile fun c ↦ isSpace c || c == '+'
      let isHex := text.contains 'x' || text.contains 'X'
      match r.value with
      | .nan _ =>
        fail ("invalid ".toList ++ i.shown "not-a-number".toList ++ " argument: ".toList)
      | .infinite _ =>
        return .ok { value := r.value
                     places := if text.contains '.' || text.contains 'p' then none else some 0 }
      | .finite .. =>
        let (width, places) := Bound.measure text
        if isHex then
          return .ok { value := r.value
                       places := if text.contains '.' || text.contains 'p' then none else some 0 }
        return .ok { value := r.value, width, places }

/-- How numbers are shown: a conversion between two texts. -/
structure NumberFormat where
  before : Octets := []
  conversion : Conversion := {}
  letter : Char := 'f'
  after : Octets := []

namespace NumberFormat

/-- The conversion of a number alone. -/
def core (f : NumberFormat) (x : Floating) : Octets := f.conversion.floating .extended f.letter x

def apply (f : NumberFormat) (x : Floating) : Octets := f.before ++ f.core x ++ f.after

/-- A text in which a percent sign is written twice, up to a single one. -/
def literal : Octets → Octets × Octets
  | '%' :: '%' :: rest =>
    let (text, rest) := literal rest
    ('%' :: text, rest)
  | '%' :: rest => ([], '%' :: rest)
  | c :: rest =>
    let (text, rest) := literal rest
    (c :: text, rest)
  | [] => ([], [])

/-- Reads a format that is given; a complaint if it is faulty. -/
def read (i : Invocation) (os : Octets) : Except Octets NumberFormat :=
  let fault (what : Octets) : Except Octets NumberFormat :=
    .error ("format ".toList ++ i.shown os ++ what)
  let (before, rest) := literal os
  match rest with
  | [] => fault " has no % directive".toList
  | _ :: rest =>
    let flags := rest.takeWhile fun c ↦ "-+#0 '".toList.contains c
    let rest := rest.drop flags.length
    let width := rest.takeWhile Char.isDigit
    let rest := rest.drop width.length
    let (precision, rest) :=
      match rest with
      | '.' :: more => (some (more.takeWhile Char.isDigit), more.dropWhile Char.isDigit)
      | _ => (none, rest)
    let rest := if rest.head? = some 'L' then rest.drop 1 else rest
    match rest with
    | [] => fault " ends in %".toList
    | letter :: rest =>
      if !"efgaEFGA".toList.contains letter then
        fault (" has unknown %".toList ++ letter :: " directive".toList)
      else
        let (after, rest) := literal rest
        if !rest.isEmpty then fault " has too many % directives".toList
        else
          let c := flags.foldl (fun (c : Conversion) f ↦ (c.flag? f).getD c) {}
          .ok { before, letter, after
                conversion := { c with
                  width := (readDecimal? width).getD 0
                  precision := precision.map fun p ↦ (readDecimal? p).getD 0 } }

/-- The format that shows all numbers of a sequence. -/
def usual (first step last : Bound) (equalWidth : Bool) : NumberFormat :=
  match first.places, step.places, last.places with
  | some a, some b, some c =>
    let places := max a b
    let conversion : Conversion := { precision := some places.toNat }
    if equalWidth then
      let firstWidth := first.width + (places - a) + if a = 0 && places != 0 then 1 else 0
      let lastWidth := last.width + (places - c) +
        (if c != 0 && places = 0 then -1 else if c = 0 && places != 0 then 1 else 0)
      { conversion :=
          { conversion with zero := true, width := (max firstWidth lastWidth).toNat } }
    else { conversion }
  | _, _, _ => { letter := 'g' }

end NumberFormat

/-- The next numbers of a sequence with their separators, the last first, and whether more
follow. -/
def nextNumbers (f : NumberFormat) (separator : Octets) (first step last : Floating) :
    Nat → Nat → Floating → List Octets → List Octets × Option (Nat × Floating)
  | 0, n, x, found => (found, some (n, x))
  | fuel + 1, n, x, found =>
    let shown := f.apply x
    let found := shown :: found
    let next := Floating.add .extended first
      (Floating.mul .extended (Floating.ofQuotient .extended false n 1) step)
    let isBeyond (y : Floating) : Bool := if step.isNegative then y.lt last else last.lt y
    if isBeyond next then
      let same :=
        match Floating.read? .extended (f.core next) with
        | some r => r.rest.isEmpty && !r.value.lt last && !last.lt r.value
        | none => false
      if same && f.core next != f.core x then
        (f.apply next :: separator :: found, none)
      else (found, none)
    else nextNumbers f separator first step last fuel (n + 1) next (separator :: found)

/-- How many numbers are written at once. -/
def numberBlock : Nat := 500

/-- Writes the numbers of a sequence from one on. -/
def writeNumbers (f : NumberFormat) (separator : Octets) (first step last : Floating) :
    Nat → Nat → Floating → Doing Unit
  | 0, _, _ => return
  | fuel + 1, n, x => do
    let (found, more) := nextNumbers f separator first step last numberBlock n x []
    Doing.out found.reverse.flatten
    Doing.spend 100
    match more with
    | none => Doing.out ['\n']
    | some (n, x) =>
      if (← Doing.task).unwritten.isNone then writeNumbers f separator first step last fuel n x

/-- Writes whole numbers from one on, up to a last one if there is one. -/
def writeWhole (separator : Octets) (step : Nat) (last : Option Nat) : Nat → Nat → Doing Unit
  | 0, _ => return
  | fuel + 1, n => do
    let isLast (k : Nat) : Bool := (last.map fun last ↦ decide (last < k + step)).getD false
    let rec block : Nat → Nat → List Octets → List Octets × Option Nat
      | 0, k, found => (found, some k)
      | count + 1, k, found =>
        let found := Octets.ofNat k :: found
        if isLast k then (['\n'] :: found, none) else block count (k + step) (separator :: found)
    let (found, more) := block 1000 n []
    Doing.out found.reverse.flatten
    Doing.spend 20
    match more with
    | none => return
    | some k => if (← Doing.task).unwritten.isNone then writeWhole separator step last fuel k

/-- Whether all characters of an argument are digits. -/
def isDigits (os : Octets) : Bool := !os.isEmpty && os.all Char.isDigit

/-- The largest step that is taken in whole numbers. -/
def largestStep : Nat := 200

/-- The value of a number that is whole and has no minus sign. -/
def wholeOf? (b : Bound) : Option Nat :=
  match b.value with
  | .finite false m e =>
    let (num, den) := Floating.quotient m e
    if b.places = some 0 then some (Floating.roundDiv num den) else none
  | _ => none

def sequenceOptions : List OptionSpec :=
  [.flag "equal-width" "w", .valued "format" "f", .valued "separator" "s"]

/-- Splits the arguments into options and numbers: what looks like a negative number ends the
options. -/
def splitNumbers : List Octets → List Octets × List Octets
  | [] => ([], [])
  | ['-', '-'] :: rest => ([], rest)
  | arg :: rest =>
    match arg with
    | '-' :: c :: cs =>
      if c == '.' || c.isDigit then ([], arg :: rest)
      else
        let takesNext := arg = ['-', 's'] || arg = ['-', 'f'] ||
          (c == '-' && !cs.contains '=' && 0 < cs.length &&
            (cs.isPrefixOf "separator".toList || cs.isPrefixOf "format".toList)) ||
          (c == 'w' && (cs = ['s'] || cs = ['f']))
        if takesNext then
          let (options, numbers) := splitNumbers (rest.drop 1)
          (arg :: rest.take 1 ++ options, numbers)
        else
          let (options, numbers) := splitNumbers rest
          (arg :: options, numbers)
    | _ => ([], arg :: rest)
  termination_by args => args.length
  decreasing_by all_goals simp only [List.length_cons, List.length_drop]; omega

def sequence (i : Invocation) : Doing Nat :=
  let (optionArgs, numbers) := splitNumbers i.args
  let a := Arguments.read (sequenceOptions ++ OptionSpec.standard) true optionArgs
  i.closing 1 <| i.withArguments a 1 do
    let separator := (a.value? "separator").getD ['\n']
    let equalWidth := a.has "equal-width"
    if numbers.isEmpty then return ← i.misuse "missing operand".toList 1
    if let some extra := numbers[3]? then
      return ← i.misuse ("extra operand ".toList ++ i.shown extra) 1
    let given ←
      match a.value? "format" with
      | none => pure none
      | some os =>
        match NumberFormat.read i os with
        | .ok f => pure (some f)
        | .error message =>
          i.complain message
          return 1
    if given.isSome && equalWidth then
      return ← i.misuse
        "format string may not be specified when printing equal width strings".toList 1
    let isSimple := !equalWidth && given.isNone && separator.length = 1
    let last := numbers.getLastD []
    let isFast := isSimple && numbers.all isDigits &&
      (numbers.length < 3 || (match readDecimal? (numbers.getD 1 []) with
        | some step => 0 < step && step ≤ largestStep
        | none => false))
    if isFast then
      let first := if numbers.length = 1 then 1 else (readDecimal? (numbers.headD [])).getD 0
      let step := if numbers.length = 3 then (readDecimal? (numbers.getD 1 [])).getD 1 else 1
      let last := (readDecimal? last).getD 0
      if first ≤ last then writeWhole separator step (some last) Doing.maxSteps first
      return 0
    let rec readAll : List Octets → Doing (Except Nat (List Bound))
      | [] => return .ok []
      | os :: rest => do
        match ← Bound.read i os with
        | .error code => return .error code
        | .ok b =>
          match ← readAll rest with
          | .error code => return .error code
          | .ok more => return .ok (b :: more)
    -- the last number is read after an increment of zero was found
    let early ← readAll (numbers.take 2)
    match early with
    | .error code => return code
    | .ok early =>
      let isZero : Floating → Bool
        | .finite _ 0 _ => true
        | _ => false
      if numbers.length = 3 && (early[1]?.map fun b ↦ isZero b.value).getD false then
        return ← i.misuse ("invalid Zero increment value: ".toList ++ i.shown (numbers.getD 1 [])) 1
      match ← readAll (numbers.drop 2) with
      | .error code => return code
      | .ok late =>
        let bounds := early ++ late
        let first := if bounds.length = 1 then Bound.one else bounds.headD .one
        let step := if bounds.length = 3 then bounds.getD 1 .one else Bound.one
        let last := bounds.getLastD .one
        let whole? : Option (Nat × Nat × Option Nat) := do
          if !isSimple || last.places != some 0 || last.value.isNegative then none
          let a ← wholeOf? first
          let d ← wholeOf? step
          if d = 0 || largestStep < d then none
          match last.value with
          | .infinite _ => return (a, d, none)
          | _ => return (a, d, some (← wholeOf? last))
        match whole? with
        | some (a, d, z) =>
          if (z.map fun z ↦ decide (a ≤ z)).getD true then
            writeWhole separator d z Doing.maxSteps a
          return 0
        | none =>
          let f := given.getD (.usual first step last equalWidth)
          let isEmpty :=
            if step.value.isNegative then first.value.lt last.value else last.value.lt first.value
          if !isEmpty then
            writeNumbers f separator first.value step.value last.value Doing.maxSteps 1 first.value
          return 0

end ShellEngine.Machine.Tools
