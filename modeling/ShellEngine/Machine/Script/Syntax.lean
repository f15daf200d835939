import ShellEngine.Text.Octets

/-!
# The language of scripts

What the script interpreter makes of a script before it runs it: words, in which the expansions are
still to be done, and commands, which are built of words and other commands.

The quotes of a word stay in it as marks. Where they stand decides what is split into fields and
what stands for itself in a pattern, and an empty pair of them is a field of its own.
-/

namespace ShellEngine.Machine.Script

/-- What is made of the value of a parameter. -/
inductive Operation
  | value
  | orDefault
  | alternative
  | orAssigned
  | demanded
  | withoutEnd (longest : Bool)
  | withoutStart (longest : Bool)
  | length
  /-- What nobody knows how to do. -/
  | bad
  deriving DecidableEq, Inhabited

/-- How a file is opened by a redirection. -/
inductive FileUse
  | input
  | output
  /-- Like `output`, even where files are not to be overwritten. -/
  | overwriting
  | append
  | both
  deriving DecidableEq, Inhabited

mutual

/-- A piece of a word. -/
inductive Piece
  /-- A quote. -/
  | quote
  | plain (c : Char)
  /-- A character that stands for itself. -/
  | escaped (c : Char)
  /-- A parameter, with what is made of its value. The flag tells that an empty value counts for
  none. -/
  | parameter (name : List Char) (operation : Operation) (emptyIsNone : Bool) (word : List Piece)
  /-- The output of a command. -/
  | output (body : Option Command)
  | arithmetic (expression : List Piece)

/-- A redirection of a descriptor. -/
inductive Redirection
  | file (fd : Nat) (use : FileUse) (path : List Piece)
  /-- The descriptor becomes another name of the one that the word gives. -/
  | copy (fd : Nat) (isInput : Bool) (source : List Piece)
  /-- The input is a document, which is known by its number. -/
  | document (fd : Nat) (number : Nat)

/-- A command, simple or made of others. The numbers are lines of the script. -/
inductive Command
  | simple (line : Nat) (assignments words : List (List Piece)) (redirections : List Redirection)
  | pipeline (inBackground : Bool) (parts : List Command)
  | redirected (line : Nat) (body : Command) (redirections : List Redirection)
  | background (line : Nat) (body : Command) (redirections : List Redirection)
  | subshell (line : Nat) (body : Option Command) (redirections : List Redirection)
  | both (left right : Command)
  | either (left right : Command)
  | sequence (left right : Command)
  | negated (body : Command)
  | branch (test : Option Command) (success : Option Command) (failure : Option Command)
  | loop (whileFails : Bool) (test body : Option Command)
  | each (line : Nat) (name : List Char) (words : List (List Piece)) (body : Option Command)
  | choose (line : Nat) (word : List Piece) (arms : List (List (List Piece) × Option Command))
  | define (line : Nat) (name : List Char) (body : Command)

end

instance : Inhabited Piece := ⟨.quote⟩
instance : Inhabited Command := ⟨.simple 0 [] [] []⟩

abbrev Word := List Piece

/-- The input that a script holds for one of its commands. -/
structure Document where
  /-- Whether expansions are to be done in it. -/
  expands : Bool
  text : Word

namespace Word

/-- The characters of a word without expansions. -/
def literal? (w : Word) : Option Octets :=
  w.mapM fun
    | .plain c => some c
    | _ => none

/-- The characters of a word, whether they are quoted or not. -/
def characters (w : Word) : Octets :=
  w.filterMap fun
    | .plain c | .escaped c => some c
    | _ => none

end Word

/-- A character that a name may begin with. -/
def isNameStart (c : Char) : Bool := c.isAlpha || c == '_'

/-- A character that may stand in a name. -/
def isNameCharacter (c : Char) : Bool := c.isAlphanum || c == '_'

/-- Whether a variable may have this name. -/
def isName : Octets → Bool
  | c :: rest => isNameStart c && rest.all isNameCharacter
  | [] => false

/-- The name at the start of a text. -/
def leadingName : Octets → Octets
  | c :: rest => if isNameStart c then c :: rest.takeWhile isNameCharacter else []
  | [] => []

/-- Whether a text is an assignment. -/
def isAssignment (os : Octets) : Bool :=
  let name := leadingName os
  !name.isEmpty && (os.drop name.length).head? = some '='

/-- Whether a word is an assignment before its expansions are done. -/
def Word.isAssignment (w : Word) : Bool :=
  Script.isAssignment <| Word.characters <| w.takeWhile fun
    | .plain _ => true
    | _ => false

end ShellEngine.Machine.Script
