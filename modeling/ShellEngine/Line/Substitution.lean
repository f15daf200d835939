import ShellEngine.Error

/-!
# Substitutions

A command embedded in a line, between two backquotes or in `$(` and `)`, stands for its output. Only
the second form nests. `Substitution.find` cuts a line around the first one; where the first opener
has no closer, nothing behind it is looked at.

`expandWith` puts the output of each embedded command in its place. After each the line is looked at
again from its start, so an output may itself bring in embedded commands, and expansion need not
end. It is therefore bounded in the number of replacements, and tells whether it ended within it.
-/

namespace ShellEngine.Line

/-- A line cut around an embedded command. -/
structure Substitution where
  before : List Char
  inner : List Char
  after : List Char
  deriving DecidableEq, Repr

namespace Substitution

def backquote : Char := '\x60'

/-- Cuts a text at the closing parenthesis that is `depth` levels up. -/
def closing (inner : List Char) : Nat → List Char → Option (List Char × List Char)
  | _, [] => none
  | depth, '$' :: '(' :: rest => closing ('(' :: '$' :: inner) (depth + 1) rest
  | 0, ')' :: rest => some (inner.reverse, rest)
  | depth + 1, ')' :: rest => closing (')' :: inner) depth rest
  | depth, c :: rest => closing (c :: inner) depth rest

/-- Cuts a text at the first backquote. -/
def closingQuote (text : List Char) : Option (List Char × List Char) :=
  match text.dropWhile (· != backquote) with
  | _ :: rest => some (text.takeWhile (· != backquote), rest)
  | [] => none

/-- Cuts a line around the first embedded command, behind what was passed already. -/
def findFrom (passed : List Char) : List Char → Option Substitution
  | [] => none
  | '$' :: '(' :: rest =>
    (closing [] 0 rest).map fun (inner, after) ↦ { before := passed.reverse, inner, after }
  | c :: rest =>
    if c = backquote then
      (closingQuote rest).map fun (inner, after) ↦ { before := passed.reverse, inner, after }
    else findFrom (c :: passed) rest

/-- Cuts a line around the first embedded command. -/
def find (line : List Char) : Option Substitution := findFrom [] line

end Substitution

/-! ## Outputs -/

def isLineBreak (c : Char) : Bool := c == '\r' || c == '\n'

/-- Turns an output into a part of a line: line breaks at the end are dropped, every other one
becomes a blank. -/
def flatten (output : List Char) : List Char :=
  (output.reverse.dropWhile isLineBreak).reverse.map fun c ↦ if isLineBreak c then ' ' else c

/-! ## Expansion -/

/-- A line with outputs in the place of embedded commands. -/
structure Expansion where
  text : List Char
  /-- Whether nothing was left to replace, or something was left on purpose. -/
  ended : Bool
  deriving DecidableEq, Repr

/-- Puts the output of each embedded command in its place, with at most `limit` replacements. A
command that fails is reported; it and what follows it are left as they are. The same goes for what
is left once expansion is to stop. -/
def expandWith {m : Type → Type} [Monad m]
    (run : List Char → m (Except EngineError (List Char))) (report : EngineError → m Unit)
    (stops : m Bool) : Nat → List Char → m Expansion
  | 0, line => return { text := line, ended := (Substitution.find line).isNone }
  | limit + 1, line => do
    match Substitution.find line with
    | none => return { text := line, ended := true }
    | some found =>
      match ← run found.inner with
      | .error e =>
        report e
        return { text := line, ended := true }
      | .ok output =>
        let line := found.before ++ output ++ found.after
        if ← stops then return { text := line, ended := true }
        else expandWith run report stops limit line

end ShellEngine.Line
