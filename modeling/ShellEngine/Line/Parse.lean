import ShellEngine.Line.Lexer
import ShellEngine.Plan.Stage

/-!
# From a line to a plan

A line is cut at its separators into *fragments*. Each fragment makes one stage: the redirection
operators take the word after them as their target, adjacent pieces of words join to one argument,
and comments count for nothing. Then the stages are linked, each by the separator that closes its
fragment; a pipe connects the streams of its neighbours unless a redirection already did.

The last fragment may be empty of arguments, unless a pipe or a condition promised a command.
-/

namespace ShellEngine.Line

/-- What ends a fragment: a separator or the end of the line. -/
abbrev Closer := Option Separator

/-- A closer as it is named in messages. -/
def Closer.symbol : Closer → String
  | some s => s.symbol
  | none => "end of line"

/-- Why a line makes no plan. -/
inductive ParseError
  /-- Some stretches of the line are no tokens. -/
  | tokens (errors : List LexError)
  /-- A fragment has no argument. -/
  | missingCommand (closer : Closer)
  /-- An operator has no target. -/
  | missingTarget (operator : Redirection)
  deriving DecidableEq, Repr

/-- The wording of a line that makes no plan. -/
def ParseError.message : ParseError → String
  | .tokens errors =>
    "failed to tokenize command: " ++ ", ".intercalate (errors.map LexError.message)
  | .missingCommand closer => "missing command before " ++ closer.symbol
  | .missingTarget operator => "missing target after " ++ operator.symbol

/-! ## Fragments -/

/-- A token with its source. -/
structure Piece where
  gap : List Char
  raw : List Char
  token : Token
  deriving DecidableEq, Repr

/-- The tokens between two separators, and the separator after them. -/
structure Fragment where
  pieces : List Piece
  closer : Closer
  deriving DecidableEq, Repr

/-- The tokens of a line, or every stretch that is none. -/
def pieces (line : List Char) : Except ParseError (List Piece) :=
  let lexemes := lex line
  match lexemes.filterMap fun l ↦ match l.token with | .error e => some e | .ok _ => none with
  | [] => .ok (lexemes.filterMap fun l ↦ match l.token with
      | .ok token => some { gap := l.gap, raw := l.raw, token }
      | .error _ => none)
  | errors => .error (.tokens errors)

/-- Cuts a line at its separators. There is one fragment more than there are separators. -/
def fragments (ps : List Piece) : List Fragment :=
  go [] [] ps
where
  /-- `current` holds the pieces of the open fragment, reversed; `found` the closed ones. -/
  go (found : List Fragment) (current : List Piece) : List Piece → List Fragment
    | [] => ({ pieces := current.reverse, closer := none } :: found).reverse
    | p :: rest =>
      match p.token with
      | .separator s => go ({ pieces := current.reverse, closer := some s } :: found) [] rest
      | _ => go found (p :: current) rest

/-! ## Stages -/

/-- The path that is not opened as a file. -/
def nullDevice : String := "/dev/null"

def inputOf (path : String) : Input := if path = nullDevice then .null else .file path

def overwriteOf (path : String) : Output := if path = nullDevice then .null else .overwrite path

def appendOf (path : String) : Output := if path = nullDevice then .null else .append path

/-- A stage while the pieces of its fragment are read. -/
structure Draft where
  /-- The arguments so far, the last one first. -/
  argv : List String := []
  stdin : Option Input := none
  stdout : Option Output := none
  stderr : Option Output := none
  /-- The operator that still wants its target. -/
  pending : Option Redirection := none
  /-- Whether the piece before was (the end of) an argument. -/
  growing : Bool := false
  deriving DecidableEq, Repr

namespace Draft

/-- Gives the pending operator `r` its target. -/
def redirect (d : Draft) (r : Redirection) (path : String) : Draft :=
  let d := { d with pending := none, growing := false }
  match r with
  | .input => { d with stdin := some (inputOf path) }
  | .overwrite => { d with stdout := some (overwriteOf path) }
  | .append => { d with stdout := some (appendOf path) }
  | .errOverwrite => { d with stderr := some (overwriteOf path) }
  | .errAppend => { d with stderr := some (appendOf path) }

/-- Takes a word: as the target of the pending operator, as more of the argument that it touches,
or as a new argument. -/
def addWord (d : Draft) (text : String) (touches : Bool) : Draft :=
  match d.pending with
  | some r => d.redirect r text
  | none =>
    match d.growing && touches, d.argv with
    | true, last :: before => { d with argv := (last ++ text) :: before }
    | _, argv => { d with argv := text :: argv, growing := true }

/-- Takes one piece of the fragment. -/
def add (d : Draft) (p : Piece) : Except ParseError Draft :=
  match p.token with
  | .word _ text => .ok (d.addWord (String.ofList text) p.gap.isEmpty)
  | .redirection r =>
    match d.pending with
    | some earlier => .error (.missingTarget earlier)
    | none => .ok { d with pending := some r, growing := false }
  | .errToOut => .ok { d with stderr := some .same, growing := false }
  | .comment _ | .separator _ => .ok { d with growing := false }

/-- Reads all pieces of a fragment. -/
def ofPieces (ps : List Piece) : Except ParseError Draft :=
  ps.foldlM add {}

end Draft

/-- The pieces without the comments at both ends. -/
def bareSpan (ps : List Piece) : List Piece :=
  let isComment (p : Piece) : Bool := match p.token with | .comment _ => true | _ => false
  (((ps.dropWhile isComment).reverse).dropWhile isComment).reverse

/-- The stretch of the line from the first to the last piece that is no comment. -/
def spanText (ps : List Piece) : List Char :=
  match bareSpan ps with
  | [] => []
  | first :: rest => first.raw ++ rest.flatMap fun p ↦ p.gap ++ p.raw

/-- The stage of a fragment, before it is linked to its neighbours. -/
def Fragment.stage (f : Fragment) : Except ParseError Stage := do
  let draft ← Draft.ofPieces f.pieces
  match draft.pending with
  | some operator => .error (.missingTarget operator)
  | none =>
    if draft.argv.isEmpty then .error (.missingCommand f.closer)
    else
      return {
        argv := draft.argv.reverse
        text := String.ofList (spanText f.pieces)
        stdin := draft.stdin.getD .inherit
        stdout := draft.stdout.getD .inherit
        stderr := draft.stderr.getD .inherit }

/-! ## Links -/

/-- Links a stage to the one before it: after a pipe it reads that one's output, unless told
otherwise. -/
def linkBefore (piped : Bool) (s : Stage) : Stage :=
  if piped && s.stdin == .inherit then { s with stdin := .pipe } else s

/-- Links a stage to what follows its separator. -/
def linkAfter (closer : Separator) (s : Stage) : Stage :=
  match closer with
  | .pipe =>
    { s with
      next := .concurrent
      waits := false
      stdout := if s.stdout == .inherit then .pipe else s.stdout }
  | .and => { s with next := .onSuccess }
  | .or => { s with next := .onFailure }
  | .semi => { s with next := .unconditional }
  | .background => { s with next := .concurrent, waits := false, graceful := true }

/-- Whether a last fragment may be left out because it has neither an argument nor an operator
without a target. -/
def Fragment.isVacant (f : Fragment) : Except ParseError Bool := do
  let draft ← Draft.ofPieces f.pieces
  return draft.argv.isEmpty && draft.pending.isNone

/-- Whether the separator before the last fragment promises a command. -/
def promisesCommand : Closer → Bool
  | some .pipe | some .and | some .or => true
  | _ => false

/-- The stages of the fragments, `before` being the separator in front of the first one and `found`
the stages so far, reversed. -/
def link (found : List Stage) (before : Closer) : List Fragment → Except ParseError (List Stage)
  | [] => .ok found.reverse
  | f :: rest =>
    let piped := before == some .pipe
    match f.closer with
    | some closer => do
      let stage ← f.stage
      link (linkAfter closer (linkBefore piped stage) :: found) (some closer) rest
    | none => do
      if ← f.isVacant then
        if promisesCommand before then .error (.missingCommand none) else .ok found.reverse
      else
        let stage ← f.stage
        link (linkBefore piped stage :: found) none rest

/-- The plan of a command line. -/
def parse (line : String) : Except ParseError Plan := do
  let cs := line.toList
  let stages ← link [] none (fragments (← pieces cs))
  return Plan.ofStages (String.ofList (Text.trim cs)) stages

end ShellEngine.Line
