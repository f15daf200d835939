import ShellEngine.Machine.Tools.Options
import ShellEngine.Text.Floating

/-!
# Pauses

`sleep` lets as much time pass as its arguments say together.
-/

namespace ShellEngine.Machine.Tools

/-- The microseconds in a number of units, rounded up; none for a time that never ends. -/
def microseconds? (unit : Nat) : Text.Floating → Option Nat
  | .finite negative m e =>
    let (num, den) := Text.Floating.quotient m e
    if negative then some 0 else some ((num * unit * 1000000 + den - 1) / den)
  | _ => none

/-- The seconds in the unit of a suffix. -/
def unitOf? : Octets → Option Nat
  | [] | ['s'] => some 1
  | ['m'] => some 60
  | ['h'] => some 3600
  | ['d'] => some 86400
  | _ => none

/-- The time that a text starts with, and what stands behind it; a time is never negative. -/
def leadingTime? (text : Octets) : Option Text.Floating.Reading := do
  let r ← Text.Floating.read? .extended text
  match r.value with
  | .nan _ => failure
  | value => if value.isNegative && Text.Floating.lt value (.finite false 0 0) then failure else r

/-- The interval that an argument stands for: `none` if it is none, `some none` if it is endless. -/
def interval? (arg : Octets) : Option (Option Nat) := do
  let r ← leadingTime? arg
  let unit ← unitOf? r.rest
  return microseconds? unit r.value

/-- What is longer than anybody waits, in microseconds. -/
def forEver : Nat := 1000000000000000000

def sleep (i : Invocation) : Doing Nat :=
  let a := i.arguments []
  i.closing 1 <| i.withArguments a 1 do
    if a.operands.isEmpty then return ← i.misuse "missing operand".toList 1
    let rec total (sum : Nat) (ok : Bool) : List Octets → Doing (Nat × Bool)
      | [] => return (sum, ok)
      | arg :: rest => do
        match interval? arg with
        | some time => total (sum + time.getD forEver) ok rest
        | none =>
          i.complain ("invalid time interval ".toList ++ i.shown arg)
          total sum false rest
    let (time, ok) ← total 0 true a.operands
    if !ok then return ← i.seeHelp 1
    Doing.spend (min time forEver)
    return 0

end ShellEngine.Machine.Tools
