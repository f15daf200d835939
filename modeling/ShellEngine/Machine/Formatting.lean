import ShellEngine.Text.Floating
import ShellEngine.Text.Numeral

/-!
# Formatted numbers

What a conversion in a format makes of a number or a text: flags, a width and a precision say how
many characters there are to be, and what fills the room. Arguments are read as numbers in the same
notation in which scripts write them; how much of one was read is told, since not all of it need be
a number.
-/

namespace ShellEngine.Machine

/-- A conversion of a format. -/
structure Conversion where
  left : Bool := false
  plus : Bool := false
  space : Bool := false
  zero : Bool := false
  alternate : Bool := false
  width : Nat := 0
  precision : Option Nat := none

namespace Conversion

/-- The conversion with a flag set; none if the character is no flag. -/
def flag? (c : Conversion) : Char → Option Conversion
  | '-' => some { c with left := true }
  | '+' => some { c with plus := true }
  | ' ' => some { c with space := true }
  | '0' => some { c with zero := true }
  | '#' => some { c with alternate := true }
  | _ => none

/-- The conversion with a width that may be negative. -/
def withWidth (c : Conversion) (width : Int) : Conversion :=
  { c with width := width.natAbs, left := c.left || width < 0 }

/-- The conversion with a precision; a negative one is none. -/
def withPrecision (c : Conversion) (precision : Int) : Conversion :=
  { c with precision := if precision < 0 then none else some precision.toNat }

/-- Fills up to the width. -/
def pad (c : Conversion) (os : Octets) : Octets :=
  let blanks := List.replicate (c.width - os.length) ' '
  if c.left then os ++ blanks else blanks ++ os

/-- A text, cut down to the precision. -/
def text (c : Conversion) (os : Octets) : Octets :=
  c.pad (match c.precision with
    | some n => os.take n
    | none => os)

/-- Digits behind a sign, with zeros between them if the flags want them. -/
def signed (c : Conversion) (fills : Bool) (sign digits : Octets) : Octets :=
  if c.zero && !c.left && fills then
    sign ++ List.replicate (c.width - sign.length - digits.length) '0' ++ digits
  else c.pad (sign ++ digits)

/-- Numbers without a sign are counted modulo this. -/
def modulus : Nat := 18446744073709551616

/-- A whole number under a conversion letter. -/
def number (c : Conversion) (letter : Char) (n : Int) : Octets :=
  let isSigned := letter == 'd' || letter == 'i'
  let magnitude := if isSigned then n.natAbs else (n % modulus).toNat
  let radix := if letter == 'o' then 8 else if letter == 'x' || letter == 'X' then 16 else 10
  let digits := Nat.toDigits radix magnitude
  let digits := if magnitude = 0 && c.precision = some 0 then [] else digits
  let digits := List.replicate ((c.precision.getD 1) - digits.length) '0' ++ digits
  let digits :=
    if letter == 'o' && c.alternate && digits.head? != some '0' then '0' :: digits else digits
  let digits := if letter == 'X' then digits.map Char.toUpper else digits
  let sign : Octets :=
    if isSigned then
      if n < 0 then ['-'] else if c.plus then ['+'] else if c.space then [' '] else []
    else if radix = 16 && c.alternate && magnitude != 0 then ['0', letter] else []
  c.signed c.precision.isNone sign digits

/-- A floating-point number under a conversion letter. -/
def floating (c : Conversion) (f : Text.FloatFormat) (letter : Char) (x : Text.Floating) :
    Octets :=
  let isFinite :=
    match x with
    | .finite .. => true
    | _ => false
  let body := x.text f letter.toLower c.alternate c.precision
  let sign : Octets :=
    if x.isNegative then ['-'] else if c.plus then ['+'] else if c.space then [' '] else []
  let (sign, body) :=
    if isFinite && letter.toLower == 'a' then (sign ++ body.take 2, body.drop 2) else (sign, body)
  let all := c.signed isFinite sign body
  if letter.isUpper then all.map Char.toUpper else all

end Conversion

/-- What is wrong with an argument that is to be a number. -/
inductive NumberFault
  | none
  | notNumeric
  | notComplete
  | outOfRange
  deriving DecidableEq

/-- A number that was read, and what is wrong with it. -/
structure Numeric (α : Type) where
  value : α
  fault : NumberFault := .none

namespace Numeric

/-- Digits of a radix at the start, as a number, and what follows them; none without digits. -/
def digits? (radix : Nat) (os : Octets) : Option (Nat × Octets) :=
  let digits := os.takeWhile fun c ↦ (Text.digit? radix c).isSome
  if digits.isEmpty then none
  else some (digits.foldl (fun n c ↦ n * radix + (Text.digit? radix c).getD 0) 0,
    os.drop digits.length)

/-- A whole number with the radix that its first digits tell: behind a mark, hexadecimal or binary;
behind a zero, octal. -/
def magnitude? (os : Octets) : Option (Nat × Octets) :=
  let marked (radix : Nat) (rest : Octets) : Option (Nat × Octets) :=
    match digits? radix rest with
    | some found => some found
    | none => digits? 8 os
  match os with
  | '0' :: 'x' :: rest | '0' :: 'X' :: rest => marked 16 rest
  | '0' :: 'b' :: rest | '0' :: 'B' :: rest => marked 2 rest
  | '0' :: _ => digits? 8 os
  | _ => digits? 10 os

/-- A whole number at the start of a text, behind blanks and a sign, and what follows it. -/
def whole? (os : Octets) : Option (Int × Octets) :=
  match os.dropWhile fun c ↦ c == ' ' || (9 ≤ c.toNat && c.toNat ≤ 13) with
  | '-' :: rest => (magnitude? rest).map fun (n, rest) ↦ (-(n : Int), rest)
  | '+' :: rest => (magnitude? rest).map fun (n, rest) ↦ ((n : Int), rest)
  | os => (magnitude? os).map fun (n, rest) ↦ ((n : Int), rest)

/-- The largest number with a sign. -/
def largest : Int := 9223372036854775807

/-- What is wrong with an argument of which a part was read. -/
def faultOf (read : Bool) (rest : Octets) : NumberFault :=
  if rest.isEmpty then .none else if read then .notComplete else .notNumeric

/-- The whole number that an argument is, as far as it fits. -/
def ofArgument (isSigned : Bool) (os : Octets) : Numeric Int :=
  match whole? os with
  | none => { value := 0, fault := faultOf false os }
  | some (n, rest) =>
    let least : Int := if isSigned then -largest - 1 else 1 - (Conversion.modulus : Int)
    let most : Int := if isSigned then largest else (Conversion.modulus : Int) - 1
    if most < n then { value := most, fault := .outOfRange }
    else if n < least then
      { value := if isSigned then least else most, fault := .outOfRange }
    else { value := n, fault := faultOf true rest }

/-- The floating-point number that an argument is. -/
def floating (f : Text.FloatFormat) (os : Octets) : Numeric Text.Floating :=
  match Text.Floating.read? f os with
  | none => { value := .finite false 0 0, fault := faultOf false os }
  | some r =>
    { value := r.value, fault := if r.outOfRange then .outOfRange else faultOf true r.rest }

end Numeric

end ShellEngine.Machine
