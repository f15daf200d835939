import ShellEngine.Machine.Script.Syntax

/-!
# The characters of a script

A script is read character by character. The text that an alias stands for is put before what comes
next, and while it is read its name is no alias. Where it ends in a blank, the word behind it may be
an alias as well.

The reader may find that it needs more than is there. Then nothing was read: whoever has more text
adds it and lets the reader start again.
-/

namespace ShellEngine.Machine.Script

/-- What comes after a text that was put in. -/
structure Inserted where
  rest : Octets
  name : Octets
  endsInBlank : Bool

/-- The characters to come. -/
structure Source where
  characters : Octets
  inserted : List Inserted := []
  /-- The aliases whose texts ended just before the last character. -/
  left : List Octets := []
  /-- The number of the line. -/
  line : Nat := 1
  /-- Whether nothing can be added to it. -/
  isWhole : Bool := true

inductive Token
  | endOfFile
  | newline
  | semicolon
  | background
  | and
  | or
  | pipe
  | leftParenthesis
  | rightParenthesis
  | endOfCase
  | word
  | redirection
  | not
  | case_
  | do_
  | done
  | elif
  | else_
  | esac
  | fi
  | for_
  | if_
  | in_
  | then_
  | until_
  | while_
  | leftBrace
  | rightBrace
  deriving DecidableEq, Inhabited

namespace Token

/-- The words that have a meaning of their own. -/
def keywords : List (String × Token) :=
  [("!", not), ("case", case_), ("do", do_), ("done", done), ("elif", elif), ("else", else_),
   ("esac", esac), ("fi", fi), ("for", for_), ("if", if_), ("in", in_), ("then", then_),
   ("until", until_), ("while", while_), ("\x7b", leftBrace), ("\x7d", rightBrace)]

/-- The operators. -/
def operators : List (String × Token) :=
  [(";", semicolon), ("&", background), ("&&", and), ("||", or), ("|", pipe),
   ("(", leftParenthesis), (")", rightParenthesis), (";;", endOfCase)]

/-- How a token is called in a message. -/
def name (t : Token) : String :=
  match t with
  | endOfFile => "end of file"
  | newline => "newline"
  | word => "word"
  | redirection => "redirection"
  | t =>
    match (keywords ++ operators).find? (·.2 == t) with
    | some (text, _) => "\"" ++ text ++ "\""
    | none => ""

/-- Whether a token ends a list of commands. -/
def endsList (t : Token) : Bool :=
  [endOfFile, rightParenthesis, endOfCase, do_, done, elif, else_, esac, fi, then_,
   rightBrace].contains t

end Token

/-- What the next word may be, besides a word. -/
structure Expecting where
  aliases : Bool := false
  keywords : Bool := false
  /-- Whether newlines before it are skipped. -/
  newlines : Bool := false
  /-- Whether it is the mark at the end of a document, in which nothing is expanded. -/
  endMark : Bool := false
  deriving Inhabited

/-- A document whose text is still to come. -/
structure Awaited where
  number : Nat
  endMark : Octets
  skipsTabs : Bool
  expands : Bool

/-- How far the reading of a script has come. -/
structure Reading where
  source : Source
  aliases : List (Octets × Octets) := []
  expecting : Expecting := {}
  /-- The token that was read last; it may be read again. -/
  last : Token := .endOfFile
  isBack : Bool := false
  /-- The word that was read last, and whether it had quotes in it. -/
  word : Word := []
  isQuoted : Bool := false
  /-- The redirection that was read last, with an empty word. -/
  redirection : Redirection := .file 0 .input []
  /-- The document that was announced last. -/
  announced : Awaited := ⟨0, [], false, false⟩
  awaited : List Awaited := []
  documents : List (Nat × Document) := []
  nextDocument : Nat := 0

/-- Why a script cannot be read. -/
inductive ReadingError
  /-- More text is needed. -/
  | short
  | wrong (line : Nat) (message : String)

abbrev Reader := StateT Reading (Except ReadingError)

namespace Reader

/-- The most steps of anything that is repeated. -/
def maxSteps : Nat := 1000000000

def changeSource (f : Source → Source) : Reader Unit :=
  modify fun r ↦ { r with source := f r.source }

/-- Complains about the script. -/
def wrong {α : Type} (message : String) : Reader α := do
  throw (.wrong (← get).source.line message)

/-- Complains about the last token. -/
def unexpected {α : Type} (wanted : Option Token := none) : Reader α := do
  let found := (← get).last.name ++ " unexpected"
  match wanted with
  | some t => wrong (found ++ " (expecting " ++ t.name ++ ")")
  | none => wrong found

def nextLine : Reader Unit := changeSource fun s ↦ { s with line := s.line + 1 }

/-- Leaves the texts that are read to their ends. -/
def leaveInserted : List Inserted → Reader (Option Char)
  | [] => do
    if (← get).source.isWhole then return none else throw .short
  | i :: inserted => do
    changeSource fun s ↦
      { s with characters := i.rest, inserted, left := i.name :: s.left }
    if i.endsInBlank then
      modify fun r ↦ { r with expecting := { r.expecting with aliases := true } }
    match i.rest with
    | [] => leaveInserted inserted
    | c :: characters =>
      changeSource fun s ↦ { s with characters }
      return some c

/-- The next character; none at the end. -/
def next : Reader (Option Char) := do
  let r ← get
  match r.source.characters with
  | c :: characters =>
    set { r with source := { r.source with characters, left := [] } }
    return some c
  | [] =>
    changeSource fun s ↦ { s with left := [] }
    leaveInserted r.source.inserted

/-- Puts a character back. -/
def back : Option Char → Reader Unit
  | none => return
  | some c => changeSource fun s ↦ { s with characters := c :: s.characters }

/-- The next character that is no part of a line continuation. -/
def nextJoined : Reader (Option Char) := go maxSteps
where
  go : Nat → Reader (Option Char)
    | 0 => return none
    | fuel + 1 => do
      match ← next with
      | some '\\' =>
        match ← next with
        | some '\n' =>
          nextLine
          go fuel
        | c =>
          back c
          return some '\\'
      | c => return c

/-- Puts the text of an alias before what comes next. -/
def insert (name text : Octets) : Reader Unit :=
  changeSource fun s ↦
    let last := text.getLast?
    let entry : Inserted :=
      { rest := s.characters, name, endsInBlank := last = some ' ' || last = some '\t' }
    { s with characters := text, inserted := entry :: s.inserted }

/-- The text of an alias that is not being read. -/
def alias? (name : Octets) : Reader (Option Octets) := do
  let r ← get
  if r.source.inserted.any (·.name == name) || r.source.left.contains name then return none
  return r.aliases.lookup name

end Reader

end ShellEngine.Machine.Script
