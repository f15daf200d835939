import ShellEngine.Machine.Script.Word

/-!
# Reading commands

Lists of commands, joined by operators, of simple commands and those that begin with a word of the
language. Only where a command may begin has such a word its meaning; only there, and behind an
alias that ends in a blank, are aliases replaced.

Documents are read at the end of the line on which they are announced.
-/

namespace ShellEngine.Machine.Script

namespace Reader

/-- The commands that nobody may give another meaning. -/
def specialCommands : List String :=
  [".", ":", "break", "continue", "eval", "exec", "exit", "export", "readonly", "return", "set",
   "shift", "times", "trap", "unset"]

/-- How the commands inside a word are read. -/
abbrev Inner := Reader (Option Command)

def expect (e : Expecting) : Reader Unit := modify fun r ↦ { r with expecting := e }

/-- What a command may begin with. -/
def commandStart : Expecting := { aliases := true, keywords := true }

/-- What a command on a new line may begin with. -/
def lineStart : Expecting := { aliases := true, keywords := true, newlines := true }

def take (t : Token) : Reader Token := do
  modify fun r ↦ { r with last := t }
  return t

/-- Lets the last token be read again. -/
def again : Reader Unit := modify fun r ↦ { r with isBack := true }

/-- Reads the operator of a redirection; `fd` is the digit before it. -/
def redirection (fd : Option Nat) (c : Char) : Reader Unit := do
  let set (r : Redirection) : Reader Unit := modify fun s ↦ { s with redirection := r }
  if c == '>' then
    let fd := fd.getD 1
    match ← nextJoined with
    | some '>' => set (.file fd .append [])
    | some '|' => set (.file fd .overwriting [])
    | some '&' => set (.copy fd false [])
    | c =>
      set (.file fd .output [])
      back c
  else
    let fd := fd.getD 0
    match ← nextJoined with
    | some '<' =>
      let next ← nextJoined
      if next != some '-' then back next
      modify fun r ↦ { r with
        redirection := .document fd r.nextDocument
        announced := ⟨r.nextDocument, [], next == some '-', false⟩
        nextDocument := r.nextDocument + 1 }
    | some '&' => set (.copy fd true [])
    | some '>' => set (.file fd .both [])
    | c =>
      set (.file fd .input [])
      back c

/-- Reads the documents that were announced. -/
def readDocuments (inner : Inner) : Reader Unit := do
  let awaited := (← get).awaited
  modify fun r ↦ { r with awaited := [] }
  for d in awaited do
    let kind := TextKind.document d.endMark d.skipsTabs
    if d.expands then
      let _ ← text inner kind .inDouble (← nextJoined)
    else
      let _ ← text inner kind .inSingle (← next)
    modify fun r ↦
      { r with documents := (d.number, ⟨d.expands, r.word⟩) :: r.documents }

/-- Reads a word, or the operator of a redirection. -/
def wordToken (inner : Inner) (first : Char) : Reader Token := do
  let c ← text inner .word .base (some first)
  let r ← get
  let digit? : Option (Option Nat) :=
    match r.word with
    | [] => some none
    | [.plain d] => if d.isDigit then some (some (d.toNat - '0'.toNat)) else none
    | _ => none
  match digit?, c with
  | some fd, some '>' | some fd, some '<' =>
    if !r.isQuoted then
      redirection fd (c.getD '<')
      return ← take .redirection
  | _, _ => pure ()
  back c
  take .word

/-- Reads a token, whatever it means. -/
def rawToken (inner : Inner) : Reader Token := do
  if (← get).isBack then
    modify fun r ↦ { r with isBack := false }
    return (← get).last
  go maxSteps
where
  skipComment : Nat → Reader Unit
    | 0 => return
    | fuel + 1 => do
      match ← next with
      | none => return
      | some '\n' => back (some '\n')
      | some _ => skipComment fuel
  twofold (c : Char) (one two : Token) : Reader Token := do
    let after ← nextJoined
    if after == some c then take two
    else
      back after
      take one
  go : Nat → Reader Token
    | 0 => take .endOfFile
    | fuel + 1 => do
      match ← nextJoined with
      | none => take .endOfFile
      | some ' ' | some '\t' => go fuel
      | some '#' =>
        skipComment maxSteps
        go fuel
      | some '\n' =>
        nextLine
        take .newline
      | some '&' => twofold '&' .background .and
      | some '|' => twofold '|' .pipe .or
      | some ';' => twofold ';' .semicolon .endOfCase
      | some '(' => take .leftParenthesis
      | some ')' => take .rightParenthesis
      | some c => wordToken inner c

/-- Reads a token, as it is to be understood in its place. -/
def token (inner : Inner) : Reader Token := do
  let e := (← get).expecting
  go e maxSteps
where
  skipNewlines (t : Token) : Nat → Reader Token
    | 0 => return t
    | fuel + 1 => do
      if t = .newline then
        readDocuments inner
        expect {}
        skipNewlines (← rawToken inner) fuel
      else return t
  go (e : Expecting) : Nat → Reader Token
    | 0 => take .endOfFile
    | fuel + 1 => do
      let t ← rawToken inner
      let t ← if e.newlines then skipNewlines t maxSteps else pure t
      let more := (← get).expecting
      let e : Expecting :=
        { aliases := e.aliases || more.aliases, keywords := e.keywords || more.keywords
          newlines := e.newlines || more.newlines }
      expect {}
      let r ← get
      if t != .word || r.isQuoted then return t
      match Word.literal? r.word with
      | none => return t
      | some text =>
        let keyword? := Token.keywords.lookup (String.ofList text)
        match if e.keywords then keyword? else none with
        | some keyword => take keyword
        | none =>
          match ← if e.aliases then alias? text else pure none with
          | none => return t
          | some meaning =>
            if !meaning.isEmpty then insert text meaning
            go e fuel

/-- Reads a token that has to be a certain one. -/
def demand (inner : Inner) (t : Token) : Reader Unit := do
  if (← token inner) != t then unexpected (some t)

/-- Reads the word behind the operator of a redirection. -/
def redirectionWord (inner : Inner) : Reader Redirection := do
  let redirection := (← get).redirection
  let announced := (← get).announced
  match redirection with
  | .document .. => expect { endMark := true }
  | _ => pure ()
  if (← token inner) != .word then unexpected
  let r ← get
  match redirection with
  | .file fd use _ => return .file fd use r.word
  | .copy fd isInput _ => return .copy fd isInput r.word
  | .document fd number =>
    let entry :=
      { announced with endMark := Word.characters r.word, expands := !r.isQuoted }
    set { r with awaited := r.awaited ++ [entry] }
    return .document fd number

/-- Reads redirections as long as there are any. -/
def redirections (inner : Inner) : Nat → Reader (List Redirection)
  | 0 => return []
  | fuel + 1 => do
    if (← token inner) = .redirection then
      let r ← redirectionWord inner
      return r :: (← redirections inner fuel)
    else
      again
      return []

/-- A simple command that is being read, everything in reverse. -/
structure Draft where
  assignments : List Word := []
  words : List Word := []
  redirections : List Redirection := []

/-- Reads a simple command, or the definition of a function. -/
def simple (inner : Inner) (command : Reader Command) : Reader Command := do
  let line := (← get).source.line
  let rec go (d : Draft) (assigns : Bool) : Nat → Reader Command
    | 0 => unexpected
    | fuel + 1 => do
      expect { aliases := assigns }
      match ← token inner with
      | .word =>
        let w := (← get).word
        if assigns && Word.isAssignment w then
          go { d with assignments := w :: d.assignments } assigns fuel
        else go { d with words := w :: d.words } false fuel
      | .redirection =>
        let r ← redirectionWord inner
        go { d with redirections := r :: d.redirections } assigns fuel
      | t =>
        match t, d.words, d.assignments, d.redirections with
        | .leftParenthesis, [w], [], [] =>
          demand inner .rightParenthesis
          let name := (Word.literal? w).getD []
          if !isName name || specialCommands.contains (String.ofList name) then
            wrong "Bad function name"
          expect lineStart
          let line := (← get).source.line
          return .define line name (← command)
        | _, _, _, _ =>
          again
          return .simple line d.assignments.reverse d.words.reverse d.redirections.reverse
  go {} true maxSteps

/-- Reads the words of a loop. -/
def loopWords (inner : Inner) : Nat → Reader (List Word)
  | 0 => return []
  | fuel + 1 => do
    if (← token inner) = .word then
      let w := (← get).word
      return w :: (← loopWords inner fuel)
    else return []

/-- Reads the patterns of an arm. -/
def patterns (inner : Inner) : Nat → Reader (List Word)
  | 0 => return []
  | fuel + 1 => do
    let w := (← get).word
    if (← token inner) = .pipe then
      let _ ← token inner
      return w :: (← patterns inner fuel)
    else return [w]

/-- Which ends a list may have. -/
inductive ListKind
  /-- The commands of one line. -/
  | line
  /-- At least one command. -/
  | some_
  | any
  deriving DecidableEq

/-- How the lists inside a command are read. -/
abbrev Lists := ListKind → Reader (Option Command)

/-- Reads the arms of a choice. -/
def arms (inner : Inner) (list : Lists) :
    Nat → Reader (List (List Word × Option Command))
  | 0 => return []
  | fuel + 1 => do
    expect { keywords := true, newlines := true }
    match ← token inner with
    | .esac => return []
    | t =>
      if t = .leftParenthesis then let _ ← token inner
      let ps ← patterns inner maxSteps
      if (← get).last != .rightParenthesis then unexpected (some .rightParenthesis)
      let body ← list .any
      expect { keywords := true, newlines := true }
      match ← token inner with
      | .esac => return [(ps, body)]
      | .endOfCase => return (ps, body) :: (← arms inner list fuel)
      | _ => unexpected (some .endOfCase)

/-- Reads what follows the word that begins a branch. -/
def branch (inner : Inner) (list : Lists) : Nat → Reader Command
  | 0 => unexpected
  | fuel + 1 => do
    let test ← list .some_
    demand inner .then_
    let success ← list .some_
    match ← token inner with
    | .elif => return .branch test success (some (← branch inner list fuel))
    | .else_ => return .branch test success (← list .some_)
    | _ =>
      again
      return .branch test success none

/-- The words that a loop without words goes through. -/
def allArguments : Word := [.quote, .parameter ['@'] .value false [], .quote]

/-- Reads a command. -/
def commandWith (inner : Inner) (list : Lists) (command : Reader Command) :
    Reader Command := do
  let line := (← get).source.line
  let finish (body : Command) (last : Token) : Reader Command := do
    demand inner last
    redirected line body
  match ← token inner with
  | .if_ => finish (← branch inner list maxSteps) .fi
  | .while_ => finish (← loop false) .done
  | .until_ => finish (← loop true) .done
  | .for_ =>
    let t ← token inner
    let r ← get
    let name := (Word.literal? r.word).getD []
    if t != .word || r.isQuoted || !isName name then wrong "Bad for loop variable"
    expect lineStart
    let t ← token inner
    let words ←
      if t = .in_ then do
        let words ← loopWords inner maxSteps
        let last := (← get).last
        if last != .newline && last != .semicolon then unexpected
        pure words
      else do
        if t != .semicolon then again
        pure [allArguments]
    expect lineStart
    demand inner .do_
    finish (.each line name words (← list .some_)) .done
  | .case_ =>
    if (← token inner) != .word then unexpected (some .word)
    let word := (← get).word
    expect lineStart
    demand inner .in_
    redirected line (.choose line word (← arms inner list maxSteps))
  | .leftParenthesis => finish (.subshell line (← list .some_) []) .rightParenthesis
  | .leftBrace =>
    match ← list .some_ with
    | some body => finish body .rightBrace
    | none => unexpected (some .rightBrace)
  | .word | .redirection =>
    again
    simple inner command
  | _ => unexpected
where
  loop (whileFails : Bool) : Reader Command := do
    let test ← list .some_
    demand inner .do_
    return .loop whileFails test (← list .some_)
  redirected (line : Nat) (body : Command) : Reader Command := do
    expect commandStart
    match ← redirections inner maxSteps, body with
    | [], body => return body
    -- those of a group with nothing but a subshell in it take the place of those of the subshell
    | rs, .subshell line inside _ => return .subshell line inside rs
    | rs, body => return .redirected line body rs

/-- Reads commands joined by pipes. -/
def pipeline (inner : Inner) (command : Reader Command) : Reader Command := do
  let isNegated := (← token inner) = .not
  if isNegated then expect commandStart else again
  let first ← command
  let body ←
    if (← token inner) = .pipe then do
      pure (.pipeline false (first :: (← more maxSteps)))
    else pure first
  again
  return if isNegated then .negated body else body
where
  more : Nat → Reader (List Command)
    | 0 => return []
    | fuel + 1 => do
      expect lineStart
      let c ← command
      if (← token inner) = .pipe then return c :: (← more fuel) else return [c]

/-- Reads pipelines joined by conditions. -/
def conditional (inner : Inner) (command : Reader Command) : Reader Command := do
  more (← pipeline inner command) maxSteps
where
  more (left : Command) : Nat → Reader Command
    | 0 => return left
    | fuel + 1 => do
      let t ← token inner
      if t = .and || t = .or then
        expect lineStart
        let right ← pipeline inner command
        more (if t = .and then .both left right else .either left right) fuel
      else
        again
        return left

/-- A command that is not to be waited for. -/
def inBackground (c : Command) : Command :=
  match c with
  | .pipeline _ parts => .pipeline true parts
  | .redirected line body rs => .background line body rs
  | .subshell line body rs => .background line (.subshell line body rs) []
  | c => .background (lineOf c) c []
where
  lineOf : Command → Nat
    | .simple line .. | .each line .. | .choose line .. | .define line .. => line
    | _ => 1

/-- What a list has come to: nothing at the end of the script is told from an empty line. -/
structure ListEnd where
  body : Option Command
  isOver : Bool := false

/-- Reads a list of commands. -/
def listWith (inner : Inner) (command : Reader Command) (kind : ListKind) :
    Reader ListEnd := go none (kind = .any) maxSteps
where
  finished (body : Option Command) : Reader ListEnd := do
    readDocuments inner
    again
    let _ ← take .endOfFile
    return { body, isOver := body.isNone && kind = .line }
  /-- `mayEnd` tells that the list may end here. -/
  go (before : Option Command) (mayEnd : Bool) : Nat → Reader ListEnd
    | 0 => return { body := before }
    | fuel + 1 => do
      expect { lineStart with newlines := kind != .line }
      match ← token inner with
      | .newline =>
        readDocuments inner
        return { body := before }
      | .endOfFile => finished before
      | t =>
        again
        if mayEnd && kind != .line && t.endsList then return { body := before }
        let c ← conditional inner command
        let t ← token inner
        let c := if t = .background then inBackground c else c
        let body : Command :=
          match before with
          | none => c
          | some b => .sequence b c
        match t with
        | .endOfFile => finished (some body)
        | .newline =>
          again
          go (some body) true fuel
        | .background | .semicolon => go (some body) true fuel
        | _ =>
          if kind = .line then unexpected
          again
          return { body := some body }

/-- How deep commands may stand in commands. -/
def maxDepth : Nat := 1000000

mutual

/-- Reads a list of commands, down to a depth. -/
def list : Nat → ListKind → Reader ListEnd
  | 0, _ => unexpected
  | depth + 1, kind => do
    listWith (return (← list depth .any).body) (commandAt depth) kind

/-- Reads a command, down to a depth. -/
def commandAt : Nat → Reader Command
  | 0 => unexpected
  | depth + 1 =>
    commandWith (return (← list depth .any).body) (fun kind ↦ return (← list depth kind).body)
      (commandAt depth)

end

/-- Reads the commands of one line, with all lines that belong to them. -/
def line : Reader ListEnd := do
  modify fun r ↦ { r with isBack := false, expecting := {}, awaited := [] }
  list maxDepth .line

end Reader

end ShellEngine.Machine.Script
