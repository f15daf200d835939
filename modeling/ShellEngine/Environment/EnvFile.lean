import ShellEngine.Environment.Variables
import ShellEngine.Text.Alphanumeric
import ShellEngine.Text.Blank
import ShellEngine.Text.Utf8

/-!
# Variables from a file

A file of lines `NAME=value` with variables to set before a session starts. A value may be quoted,
also over several lines, and may refer to other variables by `$NAME` or `${NAME}`. What is behind a
blank and a hash sign is a comment. A variable that is set already keeps its value.

The first faulty line ends the reading; what was set before stays set.
-/

namespace ShellEngine.EnvFile

/-! ## Lines -/

/-- Where in a line the reader is. -/
inductive Place
  | plain
  /-- Right behind a blank. -/
  | blank
  | escape
  | weak
  | weakEscape
  | strong
  | strongEscape
  deriving DecidableEq, Repr

/-- The place behind a character; `none` if a comment begins there. -/
def Place.next (p : Place) (c : Char) : Option Place :=
  match p with
  | .plain =>
    if c = '\\' then some .escape else if c = '"' then some .weak
    else if c = '\'' then some .strong
    else if Text.isBlank c && c != '\n' && c != '\r' then some .blank else some .plain
  | .blank =>
    if c = '#' then none else if c = '\\' then some .escape else if c = '"' then some .weak
    else if c = '\'' then some .strong else some .plain
  | .escape => some .plain
  | .weak => if c = '\\' then some .weakEscape else if c = '"' then some .plain else some .weak
  | .weakEscape => some .weak
  | .strong =>
    if c = '\\' then some .strongEscape else if c = '\'' then some .plain else some .strong
  | .strongEscape => some .strong

/-- Reads a physical line: the place behind it, or what comes before a comment. -/
def scan (read : List Char) (p : Place) : List Char → Place ⊕ List Char
  | [] => .inl p
  | c :: rest =>
    match p.next c with
    | some p => scan (c :: read) p rest
    | none => .inr read.reverse

/-- A line without its line break. -/
def dropBreak (line : List Char) : List Char :=
  match line.reverse with
  | '\n' :: '\r' :: rest => rest.reverse
  | '\n' :: rest => rest.reverse
  | _ => line

/-- Puts physical lines together to logical ones; `none` stands for a line that is not closed.
What was read of a logical line is in `begun`. -/
def logicalLines (begun : List Char) (p : Place) : List (List Char) → List (Option (List Char))
  | [] => if p = .plain then [] else [none]
  | line :: rest =>
    if ((begun ++ line).dropWhile Text.isBlank).head? = some '#' then
      some [] :: logicalLines [] .plain rest
    else
      match scan [] p line with
      | .inr before => some (begun ++ before) :: logicalLines [] .plain rest
      | .inl .plain => some (dropBreak (begun ++ line)) :: logicalLines [] .plain rest
      | .inl p => logicalLines (begun ++ line) p rest

/-- The physical lines of a text, with their line breaks. -/
def physicalLines (text : List Char) : List (List Char) :=
  go [] [] text
where
  go (found : List (List Char)) (line : List Char) : List Char → List (List Char)
    | [] => (if line.isEmpty then found else line.reverse :: found).reverse
    | '\n' :: rest => go (('\n' :: line).reverse :: found) [] rest
    | c :: rest => go found (c :: line) rest

/-! ## Values -/

/-- What a value is being read as. -/
inductive Mode
  | plain
  | weak
  | strong
  deriving DecidableEq, Repr

/-- A reference to a variable that is being read. -/
inductive Reference
  | none
  | bare
  | braced
  deriving DecidableEq, Repr

/-- A value that is being read. -/
structure Reading where
  output : List Char := []
  mode : Mode := .plain
  escaped : Bool := false
  /-- Whether only a comment may follow. -/
  closed : Bool := false
  reference : Reference := .none
  name : List Char := []

/-- The character that an escape stands for. -/
def unescape? : Char → Option Char
  | 'n' => some '\n'
  | c => if "\\'\"$ ".toList.contains c then some c else none

/-- The value of the variable that was referred to is added. -/
def Reading.resolve (r : Reading) (lookup : String → Option String) : Reading :=
  let value := (lookup (String.ofList r.name)).getD ""
  { r with output := r.output ++ value.toList, name := [] }

/-- Reads the value of a line; `none` if it is faulty. -/
def value (lookup : String → Option String) (r : Reading) : List Char → Option (List Char)
  | [] => finish r
  | c :: rest =>
    if r.closed then
      if c = ' ' || c = '\t' then value lookup r rest
      else if c = '#' then finish r
      else none
    else if r.escaped then
      (unescape? c).bind fun c ↦
        value lookup { r with output := r.output ++ [c], escaped := false } rest
    else if r.mode = .strong then
      if c = '\'' then value lookup { r with mode := .plain } rest else add c rest
    else if r.reference ≠ .none && Text.isAlphanumeric c then
      value lookup { r with name := r.name ++ [c] } rest
    else if r.reference = .bare then
      if c = '\x7b' && r.name.isEmpty then value lookup { r with reference := .braced } rest
      else
        let r := r.resolve lookup
        if c = '$' then value lookup { r with reference := .bare } rest
        else value lookup { r with reference := .none, output := r.output ++ [c] } rest
    else if r.reference = .braced then
      if c = '\x7d' then value lookup { r.resolve lookup with reference := .none } rest
      else value lookup { r with name := r.name ++ [c] } rest
    else if c = '$' then value lookup { r with reference := .bare } rest
    else if c = '\\' then value lookup { r with escaped := true } rest
    else if r.mode = .weak then
      if c = '"' then value lookup { r with mode := .plain } rest else add c rest
    else if c = '\'' then value lookup { r with mode := .strong } rest
    else if c = '"' then value lookup { r with mode := .weak } rest
    else if c = ' ' || c = '\t' then value lookup { r with closed := true } rest
    else add c rest
where
  add (c : Char) (rest : List Char) : Option (List Char) :=
    value lookup { r with output := r.output ++ [c] } rest
  finish (r : Reading) : Option (List Char) :=
    if r.reference = .braced || r.mode ≠ .plain then none else some (r.resolve lookup).output

/-! ## Assignments -/

/-- A line that was understood. -/
inductive Entry
  | nothing
  | assignment (name value : String)

def isKeyStart (c : Char) : Bool := c.isAlpha || c == '_'
def isKeyPart (c : Char) : Bool := c.isAlphanum || c == '_' || c == '.'

/-- Reads the name at the start of a line. -/
def key? (line : List Char) : Option (List Char × List Char) :=
  if (line.head?.map isKeyStart).getD false then
    some (line.takeWhile isKeyPart, (line.dropWhile isKeyPart).dropWhile Text.isBlank)
  else none

/-- The line behind an equals sign. -/
def equals? : List Char → Option (List Char)
  | '=' :: rest => some rest
  | _ => none

/-- Reads a line; `none` if it is faulty. The word `export` may stand in front of a name. -/
def entry? (lookup : String → Option String) (line : List Char) : Option Entry := do
  let line := (line.reverse.dropWhile Text.isBlank).reverse.dropWhile Text.isBlank
  if line.isEmpty || line.head? = some '#' then return .nothing
  let (key, rest) ← key? line
  let (key, rest) ←
    match equals? rest with
    | some rest => some (key, rest)
    | none =>
      if key = "export".toList then do
        let (key, rest) ← key? rest
        some (key, ← equals? rest)
      else none
  let rest := rest.dropWhile Text.isBlank
  if rest.isEmpty || rest.head? = some '#' then return .assignment (String.ofList key) ""
  return .assignment (String.ofList key) (String.ofList (← value lookup {} rest))

/-- Sets variables line by line. `given` are the values that lines gave so far; of those a reference
finds what is not in the environment. -/
def applyLines (given : List (String × String)) (v : Variables) :
    List (Option (List Char)) → Except Crash Variables
  | [] => .ok v
  | none :: _ => .ok v
  | some line :: rest =>
    let lookup (name : String) : Option String := (v.get? name).orElse fun _ ↦ given.lookup name
    match entry? lookup line with
    | none => .ok v
    | some .nothing => applyLines given v rest
    | some (.assignment name value) => do
      let v ← if (v.get? name).isSome then pure v else v.set name value
      applyLines ((name, value) :: given) v rest

/-- Sets the variables that a text names, a byte order mark at its start left out. -/
def apply (text : List Char) (v : Variables) : Except Crash Variables :=
  let text := if text.head? = some '\ufeff' then text.drop 1 else text
  applyLines [] v (logicalLines [] .plain (physicalLines text))

end ShellEngine.EnvFile
