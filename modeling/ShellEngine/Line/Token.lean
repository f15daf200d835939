import ShellEngine.Line.Escape
import ShellEngine.Text.Utf8

/-!
# Tokens of the command language

A command line is a sequence of *lexemes*, each a token together with the text it was read from and
the blanks before it, so that the line is the concatenation of its lexemes and the blanks after the
last one. Nothing is lost in a lexeme, which is why a stage can later be quoted as it was typed.
-/

namespace ShellEngine.Line

/-- What stands between two commands. -/
inductive Separator
  | pipe
  | and
  | or
  | semi
  | background
  deriving DecidableEq, Repr

/-- An operator that takes the next word as its target. -/
inductive Redirection
  | input
  | overwrite
  | append
  | errOverwrite
  | errAppend
  deriving DecidableEq, Repr

/-- How the text of a word was written. -/
inductive Quoting
  | bare
  | double
  | single
  deriving DecidableEq, Repr

/-- One token. A word carries its text with quotes removed and escapes resolved, a comment its text
from the hash sign on. -/
inductive Token
  | separator (s : Separator)
  | redirection (r : Redirection)
  /-- `2>&1` -/
  | errToOut
  | word (quoting : Quoting) (text : List Char)
  | comment (text : List Char)
  deriving DecidableEq, Repr

/-- A stretch of the line that is no token. -/
inductive LexError
  /-- A character at which no token begins. -/
  | unknown
  /-- A quote that is not closed. -/
  | unterminated
  | escape (e : EscapeError)
  deriving DecidableEq, Repr

def Separator.symbol : Separator → String
  | .pipe => "|"
  | .and => "&&"
  | .or => "||"
  | .semi => ";"
  | .background => "&"

def Redirection.symbol : Redirection → String
  | .input => "<"
  | .overwrite => ">"
  | .append => ">>"
  | .errOverwrite => "2>"
  | .errAppend => "2>>"

/-- Whether a token is (part of) an argument or of a redirection target. -/
def Token.isWord : Token → Bool
  | .word .. => true
  | _ => false

/-- The text that a word or a comment carries. -/
def Token.value? : Token → Option (List Char)
  | .word _ text => some text
  | .comment text => some text
  | _ => none

/-- The wording of a stretch that is no token. -/
def LexError.message : LexError → String
  | .unknown => "unknown token"
  | .unterminated => "unterminated string"
  | .escape e => e.message

/-- A token, or a stretch that is none, with the text it was read from. -/
structure Lexeme where
  /-- The blanks before it. -/
  gap : List Char
  /-- The text it was read from. -/
  raw : List Char
  token : Except LexError Token

/-- The text of a lexeme with the blanks before it. -/
def Lexeme.source (l : Lexeme) : List Char := l.gap ++ l.raw

/-- The first byte of each lexeme and the first byte after it, for lexemes that start at byte
`offset` of their line. -/
def Lexeme.spans (offset : Nat) : List Lexeme → List (Nat × Nat)
  | [] => []
  | l :: rest =>
    let start := offset + Text.width l.gap
    let stop := start + Text.width l.raw
    (start, stop) :: spans stop rest

end ShellEngine.Line
