import ShellEngine.Text.Alphanumeric
import ShellEngine.Text.Blank
import ShellEngine.Text.Numeral
import ShellEngine.Text.Octets

/-!
# What is logged

A variable says what goes into the log: directives between commas. A directive is a level, or the
name of a part of the engine, or a span in brackets which may have fields in braces; behind the name
or the span may stand an equals sign and a level. What a directive lets into the log does not show
anywhere else, so only the faults of directives are kept here.

Blanks around a directive are left out while it is read, but its level is looked for at the place
where it would be with them.
-/

namespace ShellEngine.LogFilter

/-- The variable with the directives. -/
def variableName : String := "RUST_LOG"

/-- What is wrong with a directive. -/
inductive DirectiveError
  | malformed
  | level
  deriving DecidableEq, Repr

def DirectiveError.message : DirectiveError → String
  | .malformed => "invalid filter directive"
  | .level =>
    "error parsing level filter: expected one of \"off\", \"error\", \"warn\", \"info\", " ++
      "\"debug\", \"trace\", or a number 0-5"

/-- The names of the levels. -/
def levelNames : List String := ["off", "error", "warn", "info", "debug", "trace"]

/-- The largest size of a number. -/
def largestNumber : Nat := 18446744073709551615

/-- Whether a text is a level: one of the names in any case, or the place of one of them. -/
def isLevel (cs : List Char) : Bool :=
  match Text.readNat 10 largestNumber cs with
  | .ok n => n < levelNames.length
  | .error _ => levelNames.contains (String.ofList (cs.map Char.toLower))

/-- Where in a directive the reader is. -/
inductive Place
  | start
  | name
  | span
  | field (isEmpty : Bool)
  | fields
  | spanEnd
  /-- Behind the equals sign, which stands before the character of this number. -/
  | level (number : Nat)
  deriving DecidableEq, Repr

/-- The place behind a character, which has a number; nothing if it must not stand there. -/
def Place.next? (p : Place) (number : Nat) (c : Char) : Option Place :=
  match p, c with
  | .start, '[' => some .span
  | .start, c => if "-:_".toList.contains c || Text.isAlphanumeric c then some .name else none
  | .name, '=' | .spanEnd, '=' => some (.level (number + 1))
  | .name, '[' => some .span
  | .name, _ => some .name
  | .span, ']' => some .spanEnd
  | .span, '\x7b' => some (.field true)
  | .span, _ => some .span
  | .field isEmpty, '\x7d' => if isEmpty then none else some .fields
  | .field _, _ => some (.field false)
  | .fields, ']' => some .spanEnd
  | .fields, _ | .spanEnd, _ => none
  | .level n, _ => some (.level n)

/-- The place behind a text. -/
def Place.after (p : Place) (number : Nat) : List Char → Option Place
  | [] => some p
  | c :: rest => (p.next? number c).bind fun p ↦ p.after (number + 1) rest

/-- What is wrong with a directive, if something is. -/
def directiveError? (directive : List Char) : Option DirectiveError :=
  match Place.start.after 0 (Text.trim directive) with
  | some .name | some .spanEnd => none
  | some (.level n) =>
    let level := directive.drop n
    if level.isEmpty || isLevel level then none else some .level
  | _ => some .malformed

/-- What is told about the directives that cannot be understood, line by line. -/
def complaints (text : String) : List String :=
  let directives := (Octets.splitOn ',' text.toList).filter (!·.isEmpty)
  directives.filterMap fun directive ↦
    (directiveError? directive).map fun e ↦
      "ignoring `" ++ String.ofList directive ++ "`: " ++ e.message

end ShellEngine.LogFilter
