/-!
# Whole numbers in text

A numeral is an optional `+` (or `-`, where negative numbers are allowed) and one or more digits of
the radix; nothing else, not even a blank or a separator. A faulty numeral has one cause, the first
one met from the left.
-/

namespace ShellEngine.Text

/-- Why a text is no numeral of the wanted range. -/
inductive NumeralError
  | empty
  | invalidDigit
  | tooLarge
  | tooSmall
  deriving DecidableEq, Repr

/-- The wording of a faulty numeral. -/
def NumeralError.message : NumeralError → String
  | .empty => "cannot parse integer from empty string"
  | .invalidDigit => "invalid digit found in string"
  | .tooLarge => "number too large to fit in target type"
  | .tooSmall => "number too small to fit in target type"

/-- The value of a digit, up to radix 16. -/
def digit? (radix : Nat) (c : Char) : Option Nat :=
  let n := c.toNat
  let value :=
    if 0x30 ≤ n && n ≤ 0x39 then some (n - 0x30)
    else if 0x61 ≤ n && n ≤ 0x66 then some (n - 0x61 + 10)
    else if 0x41 ≤ n && n ≤ 0x46 then some (n - 0x41 + 10)
    else none
  value.filter (· < radix)

/-- Reads digits after the value `acc`; a value above `bound` is reported as `overflow`. -/
def readDigits (radix bound : Nat) (overflow : NumeralError) (acc : Nat) :
    List Char → Except NumeralError Nat
  | [] => .ok acc
  | c :: rest =>
    match digit? radix c with
    | none => .error .invalidDigit
    | some d =>
      let value := acc * radix + d
      if value > bound then .error overflow else readDigits radix bound overflow value rest

/-- Reads a numeral from `0` to `bound`. -/
def readNat (radix bound : Nat) : List Char → Except NumeralError Nat
  | [] => .error .empty
  | ['+'] => .error .invalidDigit
  | '+' :: digits => readDigits radix bound .tooLarge 0 digits
  | digits => readDigits radix bound .tooLarge 0 digits

/-- Reads a numeral from `-(bound + 1)` to `bound`. -/
def readInt (radix bound : Nat) : List Char → Except NumeralError Int
  | ['-'] => .error .invalidDigit
  | '-' :: digits =>
    (readDigits radix (bound + 1) .tooSmall 0 digits).map fun n ↦ -(n : Int)
  | digits => (readNat radix bound digits).map Int.ofNat

/-- The digits of a number in the given radix, at most 16, lower case. -/
def hexDigits (n : Nat) : String := String.ofList (Nat.toDigits 16 n)

end ShellEngine.Text
