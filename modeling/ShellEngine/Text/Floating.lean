import ShellEngine.Text.Octets

/-!
# Binary floating-point numbers

A floating-point number is a whole number times a power of two. A format bounds the number of bits
and the exponent; what does not fit is rounded to the nearest number that does, and to the even one
of two. Numbers are read and written exactly: their digits in any base are those of the rational
number that they are.
-/

namespace ShellEngine.Text

/-- A format: how many bits a number has, the exponent of its smallest step, and the exponent of the
first power of two that is too large. -/
structure FloatFormat where
  bits : Nat
  least : Int
  limit : Int

def FloatFormat.double : FloatFormat := ⟨53, -1074, 1024⟩
def FloatFormat.extended : FloatFormat := ⟨64, -16445, 16384⟩

/-- A number of some format: `mantissa` times two to the `exponent`. -/
inductive Floating
  | finite (negative : Bool) (mantissa : Nat) (exponent : Int)
  | infinite (negative : Bool)
  | nan (negative : Bool)
  deriving DecidableEq, Repr, Inhabited

namespace Floating

/-- A power of two. -/
def two (n : Nat) : Nat := 1 <<< n

/-- A quotient rounded to the nearest whole number, a half to the even one. -/
def roundDiv (num den : Nat) : Nat :=
  let q := num / den
  let r := num % den
  if 2 * r < den then q
  else if den < 2 * r then q + 1
  else if q % 2 = 0 then q else q + 1

/-- The number of bits of a whole number. -/
def bitLength (n : Nat) : Nat := if n = 0 then 0 else n.log2 + 1

/-- The number of a format nearest to a quotient. -/
def ofQuotient (f : FloatFormat) (negative : Bool) (num den : Nat) : Floating :=
  if num = 0 then .finite negative 0 0
  else
    let size : Int := bitLength num - bitLength den
    let exponent := max (size - f.bits) f.least
    let scaled (e : Int) : Nat :=
      if 0 ≤ e then roundDiv num (den * two e.toNat) else roundDiv (num * two (-e).toNat) den
    let m := scaled exponent
    -- the quotient may have one bit more than the size of its parts tells
    let (m, exponent) :=
      if m < two f.bits then (m, exponent) else (scaled (exponent + 1), exponent + 1)
    if f.limit < exponent + bitLength m then .infinite negative else .finite negative m exponent

/-- A number as a quotient. -/
def quotient (m : Nat) (e : Int) : Nat × Nat :=
  if 0 ≤ e then (m * two e.toNat, 1) else (m, two (-e).toNat)

def isNegative : Floating → Bool
  | .finite negative .. | .infinite negative | .nan negative => negative

/-- A finite number as a signed quotient; zero for others. -/
def signedQuotient : Floating → Int × Nat
  | .finite negative m e =>
    let (num, den) := quotient m e
    (if negative then -(num : Int) else num, den)
  | _ => (0, 1)

/-- The nearest number to a signed quotient. -/
def ofSigned (f : FloatFormat) (num : Int) (den : Nat) : Floating :=
  ofQuotient f (num < 0) num.natAbs den

def add (f : FloatFormat) (x y : Floating) : Floating :=
  match x, y with
  | .finite .., .finite .. =>
    let (a, b) := x.signedQuotient
    let (c, d) := y.signedQuotient
    ofSigned f (a * d + c * b) (b * d)
  | .nan n, _ | _, .nan n => .nan n
  | .infinite a, .infinite b => if a = b then .infinite a else .nan true
  | .infinite a, _ | _, .infinite a => .infinite a

def mul (f : FloatFormat) (x y : Floating) : Floating :=
  match x, y with
  | .finite .., .finite .. =>
    let (a, b) := x.signedQuotient
    let (c, d) := y.signedQuotient
    let negative := x.isNegative != y.isNegative
    match ofSigned f (a * c) (b * d) with
    | .finite _ 0 e => .finite negative 0 e
    | product => product
  | .nan n, _ | _, .nan n => .nan n
  | _, _ =>
    let isZero : Floating → Bool
      | .finite _ 0 _ => true
      | _ => false
    if isZero x || isZero y then .nan true else .infinite (x.isNegative != y.isNegative)

/-- Whether the first number is less than the second; nothing is less than what is no number. -/
def lt (x y : Floating) : Bool :=
  match x, y with
  | .nan _, _ | _, .nan _ => false
  | .infinite a, .infinite b => a && !b
  | .infinite a, _ => a
  | _, .infinite b => !b
  | _, _ =>
    let (a, b) := x.signedQuotient
    let (c, d) := y.signedQuotient
    decide (a * d < c * b)

/-! ## Reading -/

/-- What was read at the start of a text. -/
structure Reading where
  value : Floating
  rest : List Char
  /-- Whether the number did not fit the format. -/
  outOfRange : Bool := false

/-- The digits of a radix at the start of a text, and what follows them. -/
def digitsOf (isDigit : Char → Bool) (cs : List Char) : List Char × List Char :=
  (cs.takeWhile isDigit, cs.dropWhile isDigit)

def digitValue (c : Char) : Nat :=
  let n := c.toNat
  if n < 58 then n - 48 else if n < 71 then n - 55 else n - 87

def isHexDigit (c : Char) : Bool :=
  c.isDigit || ('a' ≤ c && c ≤ 'f') || ('A' ≤ c && c ≤ 'F')

def valueOf (radix : Nat) (digits : List Char) : Nat :=
  digits.foldl (fun n c ↦ n * radix + digitValue c) 0

/-- An exponent behind its letter, and what follows it; none without digits. -/
def exponent? (letter : Char) (cs : List Char) : Option (Int × List Char) :=
  match cs with
  | c :: rest =>
    if c.toLower = letter then
      let (negative, rest) :=
        match rest with
        | '-' :: rest => (true, rest)
        | '+' :: rest => (false, rest)
        | _ => (false, rest)
      let (digits, rest) := digitsOf Char.isDigit rest
      if digits.isEmpty then none
      else
        -- an exponent of more digits than these is as good as this one
        let n : Int := if 9 < (digits.dropWhile (· == '0')).length then 999999999
          else valueOf 10 digits
        some (if negative then -n else n, rest)
    else none
  | [] => none

/-- The number with the given digits before and behind the point, times a power of the base; very
large and very small exponents give infinity and zero. -/
def assemble (f : FloatFormat) (negative : Bool) (radix : Nat) (base : Nat)
    (digits : List Char) (shift : Int) : Floating × Bool :=
  let significant := digits.dropWhile (· == '0')
  let n := valueOf radix digits
  let reach : Int := 60000
  if n = 0 then (.finite negative 0 0, false)
  else if reach < shift + 4 * significant.length then (.infinite negative, true)
  else if shift + 4 * significant.length < -reach then (.finite negative 0 0, true)
  else
    let value :=
      if 0 ≤ shift then ofQuotient f negative (n * Nat.pow base shift.toNat) 1
      else ofQuotient f negative n (Nat.pow base (-shift).toNat)
    match value with
    | .infinite _ => (value, true)
    | .finite _ m e =>
      -- a number with fewer bits than the format has lost some
      let (num, den) :=
        if 0 ≤ shift then (n * Nat.pow base shift.toNat, 1) else (n, Nat.pow base (-shift).toNat)
      let (a, b) := quotient m e
      let tiny := bitLength m < f.bits && e = f.least
      (value, tiny && a * den != num * b)
    | .nan _ => (value, false)

/-- Digits with a point among them: those before and behind it, and what follows; none without
digits. -/
def pointed? (isDigit : Char → Bool) (cs : List Char) :
    Option (List Char × List Char × List Char) :=
  let (whole, rest) := digitsOf isDigit cs
  let (fraction, rest') :=
    match rest with
    | '.' :: more => digitsOf isDigit more
    | _ => ([], rest)
  if whole.isEmpty && fraction.isEmpty then none else some (whole, fraction, rest')

/-- Whether a text begins with a word, in upper or lower case. -/
def startsWith (word : String) (cs : List Char) : Bool :=
  (cs.take word.length).map Char.toLower = word.toList

/-- Reads a number without its sign. -/
def readUnsigned? (f : FloatFormat) (negative : Bool) (cs : List Char) : Option Reading :=
  if startsWith "infinity" cs then some ⟨.infinite negative, cs.drop 8, false⟩
  else if startsWith "inf" cs then some ⟨.infinite negative, cs.drop 3, false⟩
  else if startsWith "nan" cs then
    let rest := cs.drop 3
    match rest with
    | '(' :: more =>
      let inside := more.takeWhile fun c ↦ c.isAlphanum || c == '_'
      match more.drop inside.length with
      | ')' :: after => some ⟨.nan negative, after, false⟩
      | _ => some ⟨.nan negative, rest, false⟩
    | _ => some ⟨.nan negative, rest, false⟩
  else
    let hex : Option Reading :=
      if startsWith "0x" cs then
        (pointed? isHexDigit (cs.drop 2)).map fun (whole, fraction, rest) ↦
          let (e, rest) := (exponent? 'p' rest).getD (0, rest)
          let (value, outOfRange) :=
            assemble f negative 16 2 (whole ++ fraction) (e - 4 * fraction.length)
          ⟨value, rest, outOfRange⟩
      else none
    match hex with
    | some r => some r
    | none =>
      (pointed? Char.isDigit cs).map fun (whole, fraction, rest) ↦
        let (e, rest) := (exponent? 'e' rest).getD (0, rest)
        let (value, outOfRange) :=
          assemble f negative 10 10 (whole ++ fraction) (e - fraction.length)
        ⟨value, rest, outOfRange⟩

/-- Reads a number at the start of a text, behind blanks. -/
def read? (f : FloatFormat) (cs : List Char) : Option Reading :=
  match cs.dropWhile fun c ↦ c == ' ' || (9 ≤ c.toNat && c.toNat ≤ 13) with
  | '-' :: rest => readUnsigned? f true rest
  | '+' :: rest => readUnsigned? f false rest
  | cs => readUnsigned? f false cs

/-! ## Writing -/

/-- A whole number with at least `count` digits. -/
def atLeast (count n : Nat) : List Char :=
  let digits := Nat.toDigits 10 n
  List.replicate (count - digits.length) '0' ++ digits

/-- A whole number with a point before its last `places` digits. -/
def withPoint (alternate : Bool) (places n : Nat) : List Char :=
  let digits := atLeast (places + 1) n
  let whole := digits.length - places
  digits.take whole ++
    (if places = 0 then (if alternate then ['.'] else []) else '.' :: digits.drop whole)

/-- A positive quotient in positional notation. -/
def positional (alternate : Bool) (places num den : Nat) : List Char :=
  withPoint alternate places (roundDiv (num * Nat.pow 10 places) den)

/-- The digits of a positive quotient, `places` of them behind the first, and the exponent of the
first. -/
def scientificDigits (places num den : Nat) : Nat × Int :=
  if num = 0 then (0, 0)
  else
    let size : Int := bitLength num - bitLength den
    -- the number of decimal digits, from below
    let guess : Int := (size - 1) * 30102 / 100000 - 1
    let scaled (e : Int) : Nat :=
      let shift : Int := places - e
      if 0 ≤ shift then roundDiv (num * Nat.pow 10 shift.toNat) den
      else roundDiv num (den * Nat.pow 10 (-shift).toNat)
    let limit := Nat.pow 10 (places + 1)
    let rec climb : Nat → Int → Nat × Int
      | 0, e => (scaled e, e)
      | fuel + 1, e => if scaled e < limit then (scaled e, e) else climb fuel (e + 1)
    climb 8 guess

/-- The sign and at least two digits of an exponent. -/
def exponentText (e : Int) : List Char := (if e < 0 then '-' else '+') :: atLeast 2 e.natAbs

/-- A positive quotient in scientific notation. -/
def scientific (alternate : Bool) (places num den : Nat) : List Char :=
  let (digits, e) := scientificDigits places num den
  withPoint alternate places digits ++ 'e' :: exponentText e

/-- A text without the zeros at its end, nor a point that is last then. -/
def withoutZeros (cs : List Char) : List Char :=
  if cs.contains '.' then
    let cs := (cs.reverse.dropWhile (· == '0')).reverse
    if cs.getLast? = some '.' then cs.dropLast else cs
  else cs

/-- A positive quotient in the shorter of the two notations. -/
def general (alternate : Bool) (precision num den : Nat) : List Char :=
  let precision := max precision 1
  let (_, e) := scientificDigits (precision - 1) num den
  if e < -4 || (precision : Int) ≤ e then
    let text := scientific alternate (precision - 1) num den
    if alternate then text
    else
      let mantissa := text.takeWhile (· != 'e')
      withoutZeros mantissa ++ text.drop mantissa.length
  else
    let text := positional alternate ((precision : Int) - 1 - e).toNat num den
    if alternate then text else withoutZeros text

/-- A number by its bits: one hexadecimal digit, a point, the others, and the power of two. -/
def hexadecimal (f : FloatFormat) (alternate : Bool) (places : Option Nat) (m : Nat) (e : Int) :
    List Char :=
  -- the first digit holds one bit of a double, and four of an extended number
  let leading : Nat := if f.bits = 64 then 4 else 1
  let rest : Nat := f.bits - leading
  let (m, e) :=
    if m = 0 then (0, (0 : Int))
    else
      let missing : Nat := f.bits - bitLength m
      let up : Nat := if leading = 4 then missing else min missing (e - f.least).toNat
      (m * two up, e - up + rest)
  let hexes : Nat := rest / 4
  let (m, hexes) :=
    match places with
    | some p => if p < hexes then (roundDiv m (two (4 * (hexes - p))), p) else (m, hexes)
    | none => (m, hexes)
  let unit := two (4 * hexes)
  let fraction := Nat.toDigits 16 (m % unit)
  let fraction := List.replicate (hexes - fraction.length) '0' ++ fraction
  let fraction := if hexes = 0 then [] else fraction
  let fraction :=
    match places with
    | some p => fraction ++ List.replicate (p - hexes) '0'
    | none => (fraction.reverse.dropWhile (· == '0')).reverse
  let sign := if e < 0 then ['-'] else ['+']
  "0x".toList ++ Nat.toDigits 16 (m / unit) ++
    (if fraction.isEmpty && !alternate then [] else '.' :: fraction) ++
    'p' :: sign ++ Nat.toDigits 10 e.natAbs

/-- A number under a conversion letter, in lower case and without its sign. -/
def text (f : FloatFormat) (letter : Char) (alternate : Bool) (precision : Option Nat)
    (x : Floating) : List Char :=
  match x with
  | .infinite _ => "inf".toList
  | .nan _ => "nan".toList
  | .finite _ m e =>
    let (num, den) := quotient m e
    match letter with
    | 'f' => positional alternate (precision.getD 6) num den
    | 'e' => scientific alternate (precision.getD 6) num den
    | 'a' => hexadecimal f alternate precision m e
    | _ => general alternate (precision.getD 6) num den

end Floating

end ShellEngine.Text
