import ShellEngine.Text.Numeral
import ShellEngine.Text.Utf8

/-!
# Escapes in double-quoted words

A backslash and the character after it stand for one character; an escape that is not known stands
for itself, backslash included. `\u` takes hexadecimal digits in braces. Reading fails at the first
escape that cannot be completed, and the failure says where that escape starts, counted in bytes.
-/

namespace ShellEngine.Line

open Text (NumeralError)

/-- Why the escapes of a word cannot be resolved; `offset` is the byte where the backslash
stands. -/
inductive EscapeError
  /-- Nothing follows the backslash. -/
  | dangling (offset : Nat)
  /-- No opening brace follows `\u`. -/
  | noBrace (offset : Nat)
  /-- The text in the braces is no hexadecimal number of 32 bits. -/
  | badDigits (digits : String) (cause : NumeralError) (offset : Nat)
  /-- The number in the braces is that of a surrogate or beyond the last character. -/
  | notScalar (value : Nat) (offset : Nat)
  deriving DecidableEq, Repr

/-- The wording of a faulty escape. -/
def EscapeError.message : EscapeError → String
  | .dangling offset => s!"dangling backslash at {offset}"
  | .noBrace offset => s!"expected '\x7b' after \\u at {offset}"
  | .badDigits digits cause offset =>
    "could not parse " ++ digits ++ " as hex at " ++ toString offset ++ ": " ++ cause.message
  | .notScalar value offset =>
    "0x" ++ Text.hexDigits value ++ " is not a unicode scalar value (at " ++ toString offset ++ ")"

/-- What a backslash followed by `c` stands for, when `c` is not `u`. -/
def escaped (c : Char) : List Char :=
  match c with
  | 'n' => ['\n']
  | 'r' => ['\r']
  | 't' => ['\t']
  | 'a' => ['\x07']
  | 'e' => ['\x1b']
  | 'E' => ['\x1b']
  | '0' => ['\x00']
  | '"' => ['"']
  | '\\' => ['\\']
  | '$' => ['$']
  | '\x60' => ['\x60']
  | other => ['\\', other]

/-- The character of a number, if it has one. -/
def scalar? (value : Nat) : Option Char :=
  if value.isValidChar then some (Char.ofNat value) else none

/-- Reads the braces of a `\u` that starts at byte `offset`. The digits run to the first closing
brace or, without one, to the end. -/
def codePoint (offset : Nat) : List Char → Except EscapeError (Char × List Char)
  | '{' :: rest =>
    let digits := rest.takeWhile (· != '}')
    match Text.readNat 16 0xFFFFFFFF digits with
    | .error cause => .error (.badDigits (String.ofList digits) cause offset)
    | .ok value =>
      match scalar? value with
      | none => .error (.notScalar value offset)
      | some c => .ok (c, (rest.dropWhile (· != '}')).drop 1)
  | _ => .error (.noBrace offset)

theorem codePoint_length {offset : Nat} {cs rest : List Char} {c : Char}
    (h : codePoint offset cs = .ok (c, rest)) : rest.length ≤ cs.length := by
  unfold codePoint at h
  split at h
  · rename_i tail
    dsimp only at h
    split at h
    · cases h
    · split at h
      · cases h
      · cases h
        have := (List.dropWhile_sublist (l := tail) (p := (· != '}'))).length_le
        simp only [List.length_drop, List.length_cons]
        omega
  · cases h

/-- Resolves the escapes of the text between the double quotes of a word. -/
def unescape (inner : List Char) : Except EscapeError (List Char) :=
  go [] 0 inner
where
  /-- `acc` is the resolved text so far, reversed; `offset` the byte that the rest starts at. -/
  go (acc : List Char) (offset : Nat) (cs : List Char) : Except EscapeError (List Char) :=
    match cs with
    | [] => .ok acc.reverse
    | '\\' :: [] => .error (.dangling offset)
    | '\\' :: 'u' :: rest =>
      match h : codePoint offset rest with
      | .error e => .error e
      | .ok (c, after) =>
        go (c :: acc) (offset + 2 + (spanWidth rest after)) after
    | '\\' :: c :: rest => go ((escaped c).reverse ++ acc) (offset + 1 + c.utf8Size) rest
    | c :: rest => go (c :: acc) (offset + c.utf8Size) rest
  termination_by cs.length
  decreasing_by
    · have := codePoint_length h
      simp only [List.length_cons]
      omega
    · simp only [List.length_cons]
      omega
    · simp
  /-- The bytes of the part of `before` that `after`, a suffix of it, leaves out. -/
  spanWidth (before after : List Char) : Nat :=
    Text.width (before.take (before.length - after.length))

end ShellEngine.Line
