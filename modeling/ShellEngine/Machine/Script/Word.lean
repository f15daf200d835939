import ShellEngine.Machine.Script.Source

/-!
# Reading words

What a character means depends on where it stands: by itself, in quotes, or in an expression. Each
`Level` of a word has its own rules; an expression in a word opens a new one, and so does a
parameter whose word follows other rules than its surroundings.

A word may hold commands, so its reader needs to know how a list of commands is read.
-/

namespace ShellEngine.Machine.Script

/-- The rules that characters follow. -/
inductive Rules
  | base
  | inDouble
  | inSingle
  | inArithmetic
  deriving DecidableEq

/-- A level of a word. -/
structure Level where
  rules : Rules
  /-- Whether double quotes inside a parameter are open. -/
  innerQuotes : Bool := false
  /-- Whether it was opened by a parameter. -/
  isParameter : Bool := false
  inDouble : Bool := false
  /-- How many parameters are open. -/
  parameters : Nat := 0
  /-- How many of them were opened in double quotes. -/
  quotedParameters : Nat := 0
  parentheses : Nat := 0

/-- What is open in a word, with the pieces before it, the last one first. -/
structure Opened where
  before : List Piece
  close : List Piece → Piece

/-- How far the reading of a word has come. -/
structure WordReading where
  level : Level
  outer : List Level := []
  opened : List Opened := []
  /-- The pieces of what was opened last, the last one first. -/
  pieces : List Piece := []
  isQuoted : Bool := false

/-- Which text is being read: a word, or a document with its end mark. -/
inductive TextKind
  | word
  | document (endMark : Octets) (skipsTabs : Bool)
  /-- A text that has no end mark. -/
  | prompt
  deriving DecidableEq

abbrev WordReader := StateT WordReading Reader

namespace WordReader

def put (p : Piece) : WordReader Unit := modify fun w ↦ { w with pieces := p :: w.pieces }

def changeLevel (f : Level → Level) : WordReader Unit :=
  modify fun w ↦ { w with level := f w.level }

def push (level : Level) : WordReader Unit :=
  modify fun w ↦ { w with level, outer := w.level :: w.outer }

def pop : WordReader Unit :=
  modify fun w ↦
    match w.outer with
    | level :: outer => { w with level, outer }
    | [] => w

/-- Opens something that is closed later. -/
def open_ (close : List Piece → Piece) : WordReader Unit :=
  modify fun w ↦ { w with opened := ⟨w.pieces, close⟩ :: w.opened, pieces := [] }

/-- Closes what was opened last. -/
def close : WordReader Unit :=
  modify fun w ↦
    match w.opened with
    | o :: opened => { w with opened, pieces := o.close w.pieces.reverse :: o.before }
    | [] => w

/-- The next character under the rules of the level. -/
def nextHere : WordReader (Option Char) := do
  if (← get).level.rules = .inSingle then (Reader.next : Reader _)
  else (Reader.nextJoined : Reader _)

/-- The digits of a control code that stands for something else in texts. -/
def isControl (c : Char) : Bool := 0x81 ≤ c.toNat && c.toNat ≤ 0x88

/-- What a character is under some rules. -/
inductive Role
  | newline
  | ordinary
  /-- It has a meaning elsewhere, and must not have it here. -/
  | shielded
  | backslash
  | singleQuote
  | doubleQuote
  | endQuote
  | dollar
  | closingBrace
  | leftParenthesis
  | rightParenthesis
  | backquote
  | delimiter
  deriving DecidableEq

def roleOf (rules : Rules) (c : Char) : Role :=
  if isControl c then .shielded
  else if c == '\n' then .newline
  else
    match rules with
    | .inSingle =>
      if c == '\'' then .endQuote
      else if "!*?[=~:/-]\\".toList.contains c then .shielded else .ordinary
    | _ =>
      if c == '\\' then .backslash
      else if c == '`' then .backquote
      else if c == '$' then .dollar
      else if c == '\x7d' then .closingBrace
      else
        match rules with
        | .base =>
          if c == '\'' then .singleQuote
          else if c == '"' then .doubleQuote
          else if "<>();&| \t".toList.contains c then .delimiter else .ordinary
        | .inDouble =>
          if c == '"' then .endQuote
          else if "!*?[=~:/-]".toList.contains c then .shielded else .ordinary
        | _ =>
          if c == '(' then .leftParenthesis
          else if c == ')' then .rightParenthesis else .ordinary

/-! ## Parameters -/

def isSpecialParameter (c : Char) : Bool := "#?$!-*@".toList.contains c || c.isDigit

/-- A parameter that is being read: its name and what is made of it, as far as that is known. -/
structure Header where
  name : Octets := []
  operation : Option Operation := none
  emptyIsNone : Bool := false

/-- Reads the characters of a name. -/
def nameFrom (p : Char → Bool) : Nat → Octets → Option Char → Reader (Octets × Option Char)
  | 0, found, c => return (found.reverse, c)
  | fuel + 1, found, c =>
    match c with
    | some ch =>
      if p ch then do nameFrom p fuel (ch :: found) (← Reader.nextJoined)
      else return (found.reverse, c)
    | none => return (found.reverse, c)

/-- The operation that a character behind a name stands for. -/
def operationOf? (c : Option Char) : Option Operation :=
  match c with
  | some '\x7d' => some .value
  | some '-' => some .orDefault
  | some '+' => some .alternative
  | some '?' => some .demanded
  | some '=' => some .orAssigned
  | _ => none

/-- Reads the operation behind a name. -/
def operation (name : Octets) (c : Option Char) : Reader Header := do
  match c with
  | some '%' | some '#' =>
    let next ← Reader.nextJoined
    let longest := next == c
    if !longest then Reader.back next
    let operation := if c == some '%' then .withoutEnd longest else .withoutStart longest
    return { name, operation := some operation }
  | some ':' =>
    let next ← Reader.nextJoined
    return { name, operation := operationOf? next, emptyIsNone := true }
  | c => return { name, operation := operationOf? c }

/-- Reads a parameter whose first character is given, up to its word. -/
def header (first : Option Char) : Reader Header := do
  let isBraced := first == some '\x7b'
  let c ← if isBraced then Reader.nextJoined else pure first
  let faulty (c : Option Char) : Reader Header := do
    Reader.back c
    return {}
  let named (isLength : Bool) (c : Option Char) : Reader Header := do
    let isDigits := (c.map Char.isDigit).getD false
    let (name, c) ←
      if isDigits && !isBraced then do
        let next ← Reader.nextJoined
        pure (c.toList, next)
      else
        nameFrom (if isDigits then Char.isDigit else isNameCharacter) Reader.maxSteps [] c
    if !isBraced then
      Reader.back c
      return { name, operation := some .value }
    else if isLength then
      Reader.back c
      return { name, operation := if c == some '\x7d' then some .length else none }
    else operation name c
  match c with
  | none => faulty none
  | some ch =>
    if isNameStart ch || ch.isDigit then named false c
    else if ch == '\x7d' then faulty c
    else
      let next ← Reader.nextJoined
      if !isBraced then
        Reader.back next
        return { name := [ch], operation := some .value }
      else if ch != '#' then
        if isSpecialParameter ch then operation [ch] next else faulty next
      else if (next.map isNameCharacter).getD false then named true next
      else
        let after ← Reader.nextJoined
        if next == some '\x7d' || after != some '\x7d' then
          Reader.back after
          operation ['#'] next
        else if (next.map isSpecialParameter).getD false then
          Reader.back after
          return { name := next.toList, operation := some .length }
        else faulty after

/-- Reads a parameter and opens its word. -/
def parameter (first : Option Char) : WordReader Unit := do
  let h ← (header first : Reader Header)
  let isValue := h.operation = some .value && !h.emptyIsNone
  let piece (word : List Piece) : Piece :=
    .parameter h.name (h.operation.getD .bad) h.emptyIsNone word
  if isValue then put (piece [])
  else
    let level := (← get).level
    let rules :=
      match h.operation with
      | some (.withoutEnd _) | some (.withoutStart _) => .base
      | _ => if level.rules = .inArithmetic then .inDouble else level.rules
    if rules != level.rules || level.innerQuotes then
      push { rules, isParameter := true, inDouble := rules != .base }
    changeLevel fun l ↦
      { l with
        parameters := l.parameters + 1
        quotedParameters := if l.inDouble then l.quotedParameters + 1 else l.quotedParameters }
    open_ piece

/-! ## Commands -/

/-- Reads the text between backquotes, in which backslashes before some characters are dropped. -/
def backquoted (inDouble : Bool) : Nat → Octets → Reader Octets
  | 0, found => return found.reverse
  | fuel + 1, found => do
    match ← Reader.nextJoined with
    | some '`' => return found.reverse
    | none => Reader.wrong "EOF in backquote substitution"
    | some '\\' =>
      match ← Reader.next with
      | none => Reader.wrong "EOF in backquote substitution"
      | some c =>
        let drops := c == '\\' || c == '`' || c == '$' || (inDouble && c == '"')
        backquoted inDouble fuel (c :: if drops then found else '\\' :: found)
    | some c =>
      if c == '\n' then Reader.nextLine
      backquoted inDouble fuel (c :: found)

/-- Reads the commands of a text of its own. -/
def commandsIn (commands : Reader (Option Command)) (text : Octets) : Reader (Option Command) := do
  let outer := (← get).source
  let awaited := (← get).awaited
  modify fun r ↦ { r with source := { characters := text }, awaited := [] }
  let body ← commands
  modify fun r ↦ { r with source := outer, awaited, isBack := false }
  return body

/-- Reads commands up to the parenthesis that ends them. Documents that they wait for are empty. -/
def commandsInside (commands : Reader (Option Command)) : Reader (Option Command) := do
  let awaited := (← get).awaited
  modify fun r ↦ { r with awaited := [] }
  let body ← commands
  modify fun r ↦ { r with isBack := false }
  if (← get).last != .rightParenthesis then Reader.unexpected (some .rightParenthesis)
  modify fun r ↦
    { r with
      documents := r.awaited.map (fun d ↦ (d.number, ⟨false, []⟩)) ++ r.documents
      awaited }
  return body

/-! ## The whole word -/

/-- Reads what a dollar sign stands before. -/
def dollar (commands : Reader (Option Command)) : WordReader Unit := do
  let c ← (Reader.nextJoined : Reader _)
  let isEndMark := (← (get : Reader Reading)).expecting.endMark
  let begins := (c.map fun c ↦
    c == '(' || c == '\x7b' || isNameStart c || isSpecialParameter c).getD false
  if isEndMark || !begins then
    put (.plain '$')
    (Reader.back c : Reader Unit)
  else if c == some '(' then
    match ← (Reader.nextJoined : Reader _) with
    | some '(' =>
      push { rules := .inArithmetic, inDouble := true }
      open_ .arithmetic
    | c =>
      (Reader.back c : Reader Unit)
      let body ← (commandsInside commands : Reader _)
      put (.output body)
  else parameter c

/-- Reads what a backslash stands before. -/
def backslash (isDocument : Bool) : WordReader Unit := do
  match ← (Reader.next : Reader _) with
  | none => put (.escaped '\\')
  | some c =>
    let l := (← get).level
    let keeps := l.inDouble && c != '\\' && c != '`' && c != '$' &&
      (c != '"' || (isDocument && l.parameters = 0)) && (c != '\x7d' || l.parameters = 0)
    if keeps then put (.escaped '\\')
    put (.escaped c)
    modify fun w ↦ { w with isQuoted := true }

/-- Looks for the end mark of a document at the start of a line. The first character of the line is
given; gives the first character of what is to be read, none at the end. -/
def lineOfDocument (endMark : Octets) (skipsTabs : Bool) (c : Option Char) :
    Reader (Option Char) := do
  let c ← if skipsTabs then afterTabs Reader.maxSteps c else pure c
  match ← follows c [] endMark with
  | (true, _, last) =>
    if last == some '\n' || last.isNone then
      Reader.nextLine
      return none
    else restart endMark last
  | (false, passed, last) => restart passed last
where
  afterTabs : Nat → Option Char → Reader (Option Char)
    | 0, c => return c
    | fuel + 1, c => do if c == some '\t' then afterTabs fuel (← Reader.next) else return c
  /-- Whether the mark comes next, what was passed over, and the character behind that. -/
  follows (c : Option Char) (passed : Octets) : Octets → Reader (Bool × Octets × Option Char)
    | [] => return (true, passed.reverse, c)
    | m :: mark => do
      if c == some m then follows (← Reader.next) (m :: passed) mark
      else return (false, passed.reverse, c)
  restart (passed : Octets) (last : Option Char) : Reader (Option Char) := do
    match passed with
    | [] => return last
    | first :: rest =>
      Reader.back last
      Reader.changeSource fun s ↦ { s with characters := rest ++ s.characters }
      return some first

/-- What a character does to a word: reads on, or ends the word. -/
def character (commands : Reader (Option Command)) (kind : TextKind) (c : Char) :
    WordReader Bool := do
  let isWord := kind = .word
  let l := (← get).level
  let mark : WordReader Unit := if isWord then put .quote else return
  let toggle : WordReader Unit := do
    changeLevel fun l ↦ if 0 < l.parameters then { l with innerQuotes := !l.innerQuotes } else l
    mark
  match roleOf l.rules c with
  | .newline =>
    if l.rules = .base && l.parameters = 0 then return false
    put (.plain c)
    return true
  | .ordinary => put (.plain c)
  | .shielded => put (if isWord || l.inDouble then .escaped c else .plain c)
  | .backslash => backslash (kind != .word)
  | .singleQuote =>
    changeLevel fun l ↦ { l with rules := .inSingle }
    mark
  | .doubleQuote =>
    changeLevel fun l ↦ { l with rules := .inDouble, inDouble := true }
    toggle
  | .endQuote =>
    if !isWord && l.parameters = 0 then put (.plain c)
    else
      if l.quotedParameters = 0 then
        changeLevel fun l ↦ { l with rules := .base, inDouble := false }
      modify fun w ↦ { w with isQuoted := true }
      if c == '"' then toggle else mark
  | .dollar => dollar commands
  | .closingBrace =>
    if !l.innerQuotes && 0 < l.parameters then
      changeLevel fun l ↦ { l with parameters := l.parameters - 1 }
      if l.parameters = 1 && l.isParameter then pop
      else
        changeLevel fun l ↦ { l with quotedParameters := l.quotedParameters - 1 }
      close
    else put (.plain c)
  | .leftParenthesis =>
    changeLevel fun l ↦ { l with parentheses := l.parentheses + 1 }
    put (.plain c)
  | .rightParenthesis =>
    if 0 < l.parentheses then
      put (.plain c)
      changeLevel fun l ↦ { l with parentheses := l.parentheses - 1 }
    else
      match ← (Reader.nextJoined : Reader _) with
      | some ')' =>
        close
        pop
      | next =>
        (Reader.back next : Reader Unit)
        put (.plain ')')
  | .backquote =>
    if (← (get : Reader Reading)).expecting.endMark then
      modify fun w ↦ { w with isQuoted := true }
      put (.plain '`')
    else
      let text ← (backquoted l.inDouble Reader.maxSteps [] : Reader _)
      let body ← (commandsIn commands text : Reader _)
      put (.output body)
  | .delimiter =>
    if l.parameters = 0 then return false
    put (.plain c)
  return true

/-- Reads characters up to the end of a text; gives the character behind it. `starts` tells that a
line begins. -/
def characters (commands : Reader (Option Command)) (kind : TextKind) :
    Nat → Bool → Option Char → WordReader (Option Char)
  | 0, _, c => return c
  | fuel + 1, starts, c => do
    let c ←
      match kind with
      | .document endMark skipsTabs =>
        if starts then (lineOfDocument endMark skipsTabs c : Reader _) else pure c
      | _ => pure c
    match c with
    | none => return none
    | some ch =>
      if ← character commands kind ch then
        if ch == '\n' then
          (Reader.nextLine : Reader Unit)
          characters commands kind fuel true (← (Reader.next : Reader _))
        else characters commands kind fuel false (← nextHere)
      else return c

end WordReader

namespace Reader

/-- Reads a text from its first character on; gives the character behind it. -/
def text (commands : Reader (Option Command)) (kind : TextKind) (rules : Rules)
    (first : Option Char) : Reader (Option Char) := do
  let level : Level := { rules, inDouble := rules = .inDouble }
  let (c, w) ← (WordReader.characters commands kind maxSteps true first).run { level }
  if w.level.rules = .inArithmetic then wrong "Missing '))'"
  if w.level.rules != .base && kind = .word then wrong "Unterminated quoted string"
  if w.level.parameters != 0 then wrong "Missing '\x7d'"
  modify fun r ↦ { r with word := w.pieces.reverse, isQuoted := w.isQuoted }
  return c

end Reader

end ShellEngine.Machine.Script
