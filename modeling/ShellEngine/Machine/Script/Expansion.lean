import ShellEngine.Machine.Script.Shell

/-!
# Expansion

A word is expanded into cells: characters, which may be escaped, and the marks where quotes stood.
Regions of the cells are remembered, in which separators end a field. Then the cells are cut into
fields, and a field that is a pattern is replaced by the paths that it matches.

Where fields are not wanted, no marks and no escapes are made, and the cells are the text.
-/

namespace ShellEngine.Machine.Script

/-- A piece of what a word expands to. -/
inductive Cell
  | mark
  | plain (c : Char)
  | escaped (c : Char)
  deriving DecidableEq, Inhabited

/-- A part of the cells that is to be cut into fields. -/
structure Region where
  start : Nat
  stop : Nat
  /-- Whether fields are ended by nothing but the end of an argument. -/
  keepsArguments : Bool
  deriving Inhabited

/-- How far an expansion has come. -/
structure Expanding where
  cells : Array Cell := #[]
  regions : Array Region := #[]

abbrev Expand := StateT Expanding Act

/-- How something is expanded. -/
structure Manner where
  /-- Whether fields are wanted. -/
  fields : Bool := false
  /-- Whether a pattern is wanted. -/
  isPattern : Bool := false
  /-- Whether a tilde at the start may stand for a directory. -/
  tilde : Bool := false
  /-- Whether this is an assignment, where a tilde may also follow a colon; and whether its first
  equals sign is past. -/
  isAssignment : Bool := false
  isPastEquals : Bool := false
  /-- Whether this is the word of a parameter. -/
  isWord : Bool := false
  isQuoted : Bool := false
  /-- Whether nothing comes of it. -/
  discards : Bool := false

namespace Manner

/-- Whether marks and escapes are wanted. -/
def escapes (m : Manner) : Bool := m.fields || m.isPattern

end Manner

namespace Cell

/-- The characters of cells. -/
def text (cells : List Cell) : Octets :=
  cells.filterMap fun
    | .mark => none
    | .plain c | .escaped c => some c

/-- The cells as a pattern, in which backslashes stand before what was escaped. -/
def pattern (cells : List Cell) : Octets := go true cells
where
  /-- The flag tells that there is no backslash just before. -/
  go (clear : Bool) : List Cell → Octets
    | [] => []
    | .mark :: rest => go true rest
    | .plain '\\' :: rest => '\\' :: go false rest
    | .plain c :: rest => c :: go true rest
    | .escaped c :: rest => if clear then '\\' :: c :: go true rest else c :: go true rest

/-- The cell of a character of a value. -/
def ofValue (m : Manner) (c : Char) : Cell :=
  if m.escapes &&
    (WordReader.isControl c || (m.isQuoted && "!*?[=~:/-]\\".toList.contains c)) then .escaped c
  else .plain c

end Cell

namespace Expand

def act {α : Type} (a : Act α) : Expand α := a

/-- How many cells there are. -/
def position : Expand Nat := return (← get).cells.size

def put (c : Cell) : Expand Unit := modify fun e ↦ { e with cells := e.cells.push c }

def putAll (cells : List Cell) : Expand Unit :=
  modify fun e ↦ { e with cells := cells.foldl Array.push e.cells }

/-- Puts the characters of a value. -/
def putValue (m : Manner) (os : Octets) : Expand Unit := putAll (os.map (Cell.ofValue m))

/-- Drops the cells from a position on. -/
def cut (start : Nat) : Expand Unit :=
  modify fun e ↦ { e with cells := e.cells.extract 0 start }

/-- The cells from a position on. -/
def from_ (start : Nat) : Expand (List Cell) := do
  let e ← get
  return (e.cells.extract start e.cells.size).toList

/-- Remembers a region from a position on. -/
def record (start : Nat) (keepsArguments : Bool := false) : Expand Unit :=
  modify fun e ↦
    { e with regions := e.regions.push ⟨start, e.cells.size, keepsArguments⟩ }

/-- Forgets the regions behind a position. -/
def forget (limit : Nat) : Expand Unit :=
  modify fun e ↦
    let shorten (r : Region) : Region := { r with stop := min r.stop limit }
    match e.regions[0]? with
    | none => e
    | some first =>
      let kept :=
        if limit < first.stop then (if limit < first.start then #[] else #[first])
        else #[first] ++ (e.regions.extract 1 e.regions.size).takeWhile fun r ↦ r.start < limit
      { e with regions := kept.modify (kept.size - 1) shorten }

/-! ## Tildes -/

/-- The home directories of users. -/
def homes : List (String × String) :=
  [("root", "/root"), ("daemon", "/usr/sbin"), ("bin", "/bin"), ("sys", "/dev"), ("sync", "/bin"),
   ("games", "/usr/games"), ("man", "/var/cache/man"), ("lp", "/var/spool/lpd"),
   ("mail", "/var/mail"), ("news", "/var/spool/news"), ("uucp", "/var/spool/uucp"),
   ("proxy", "/bin"), ("www-data", "/var/www"), ("backup", "/var/backups"),
   ("list", "/var/list"), ("irc", "/run/ircd"), ("_apt", "/nonexistent"),
   ("nobody", "/nonexistent")]

/-- Puts the directory that a tilde before a text stands for; gives what is left of the text. -/
def tilde (m : Manner) (w : List Piece) : Expand (List Piece) := do
  match w with
  | .plain '~' :: rest =>
    let name := rest.takeWhile fun
      | .plain c => c != '/' && !(c == ':' && m.isAssignment)
      | _ => false
    let after := rest.drop name.length
    let ends :=
      match after with
      | [] | .plain _ :: _ => true
      | _ => false
    if !ends then return w
    if m.discards then return after
    let name := Word.characters name
    let home ←
      if name.isEmpty then act (Act.valueOf "HOME")
      else pure ((homes.lookup (String.ofList name)).map String.toList)
    match home with
    | none => return w
    | some home =>
      putValue { m with isQuoted := true } home
      return after
  | w => return w

/-! ## Parameters -/

/-- The text of a number under a name of a parameter, as far as it is one. -/
def numbered? (name : Octets) : Act (Option (Option Octets)) := do
  let s ← get
  match name with
  | ['$'] => return some (some (Octets.ofNat s.pid))
  | ['?'] => return some (some (Octets.ofNat s.status))
  | ['#'] => return some (some (Octets.ofNat s.positional.length))
  | ['!'] =>
    return some (if s.lastBackground = 0 then none else some (Octets.ofNat s.lastBackground))
  | ['-'] => return some (some (← Act.optionLetters))
  | c :: _ =>
    if c.isDigit then
      match readDecimal? name with
      | some 0 => return some (some s.name)
      | some (n + 1) => return some s.positional[n]?
      | none => return some none
    else return none
  | [] => return none

/-- Puts arguments with a separator between them; gives their length together. -/
def arguments (m : Manner) (separator : Option Char) : List Octets → Expand Nat
  | [] => return 0
  | [arg] => do
    putValue m arg
    return arg.length
  | arg :: rest => do
    putValue m arg
    putValue m separator.toList
    return arg.length + separator.toList.length + (← arguments m separator rest)

/-- What stands between the positional parameters. A NUL ends a field in any case. -/
def between (m : Manner) (name : Octets) : Act (Option Char) := do
  if m.fields && m.isQuoted && name = ['@'] then return some '\x00'
  match ← Act.valueOf "IFS" with
  | none => return some ' '
  | some ifs => return if m.fields && !m.isQuoted then some '\x00' else ifs.head?

/-- Puts the value of a parameter; gives its length, or none if it is not set. With `measures`,
nothing is left of it but the length. -/
def value (m : Manner) (name : Octets) (measures : Bool) : Expand (Option Nat) := do
  let start ← position
  let m := if measures then { m with fields := false, isPattern := false } else m
  let length? ←
    if name = ['@'] || name = ['*'] then do
      let args := (← act get).positional
      pure (some (← arguments m (← act (between m name)) args))
    else do
      let found ←
        match ← act (numbered? name) with
        | some found => pure found
        | none => act (Act.value? name)
      match found with
      | none => pure none
      | some os =>
        putValue m os
        pure (some os.length)
  if measures then cut start
  return length?

/-- Complains that a parameter is not set. -/
def unset {α : Type} (name message : Octets) : Act α :=
  Act.fail (name ++ ": ".toList ++ message)

/-- How words are expanded inside a word. -/
abbrev Inner := Manner → List Piece → Expand Unit

/-- Puts what becomes of the word of a parameter, once it is known whether its value counts. -/
def parameter (inner : Inner) (m : Manner) (name : Octets) (op : Operation) (emptyIsNone : Bool)
    (word : List Piece) : Expand Unit := do
  let start ← position
  if op = .bad then
    if m.discards then return
    act (Act.fail "Bad substitution".toList)
  let measures := op = .alternative || op = .length || m.discards
  let length? ← value m name measures
  let isSet :=
    match length? with
    | none => false
    | some n => !(emptyIsNone && n = 0)
  let finish : Expand Unit := do
    if m.isQuoted then
      if name.head? = some '@' && !(← act get).positional.isEmpty then record start true
    else record start
  let wordManner (discards : Bool) : Manner :=
    { m with tilde := true, isWord := true, discards }
  let needed : Act Unit := do
    if !isSet && !m.discards && (← Act.hasOption "nounset") then
      unset name "parameter not set".toList
  match op with
  | .alternative =>
    inner (wordManner (m.discards || !isSet)) word
    if !m.discards && !isSet then finish
  | .orDefault =>
    inner (wordManner (m.discards || isSet)) word
    if !m.discards && isSet then finish
  | .orAssigned | .demanded =>
    if isSet || m.discards then
      if !m.discards then finish
    else
      inner { tilde := true } word
      let text := Cell.text (← from_ start)
      if op = .demanded then
        let usual := "parameter not set" ++ if emptyIsNone then " or null" else ""
        act (unset name (if word.isEmpty then usual.toList else text))
      act (Act.assign name (some text))
      cut start
      forget start
      let _ ← value m name false
      finish
  | .length =>
    act needed
    if m.discards then return
    putValue m (Octets.ofNat (length?.getD 0))
    finish
  | .value | .bad =>
    act needed
    if !m.discards && isSet then finish
  | .withoutEnd longest | .withoutStart longest =>
    act needed
    let discards := m.discards || !isSet
    let middle ← position
    inner { tilde := true, isPattern := true, discards } word
    if discards then return
    let pattern := Cell.pattern (← from_ middle)
    cut middle
    let cells ← from_ start
    let text := Cell.text cells
    let left :=
      if op = .withoutStart longest then
        (Pattern.startLength? pattern longest text).map cells.drop
      else (Pattern.endStart? pattern longest text).map cells.take
    cut start
    putAll (left.getD cells)
    forget start
    finish

/-! ## Commands and expressions -/

/-- The output of a command, without the line feeds at its end. -/
def output (m : Manner) (capture : Option Command → Act Octets) (body : Option Command) :
    Expand Unit := do
  if m.discards then return
  let start ← position
  let os ← act (capture body)
  let os := ((os.filter (· != '\x00')).reverse.dropWhile (· == '\n')).reverse
  putValue m os
  if !m.isQuoted then record start

/-- The value of an expression. -/
def calculated (os : Octets) : Act Int := do
  let s ← get
  let value (name : Octets) : Octets :=
    ((s.bindings.lookup name).bind Variable.value).getD []
  let isReadOnly (name : Octets) : Bool :=
    ((s.bindings.lookup name).map Variable.readOnly).getD false
  let (result, assigned) := calculate value isReadOnly os
  for (name, n) in assigned.reverse do
    Act.assign name (some (Octets.ofInt n))
  let wrong (what : String) : Act Int :=
    Act.fail (("arithmetic expression: " ++ what ++ ": \"").toList ++ os ++ ['"'])
  match result with
  | .ok n => return n
  | .error (.expecting what) => wrong ("expecting " ++ what)
  | .error .divisionByZero => wrong "division by zero"
  | .error (.illegalNumber text) => Act.badNumber text
  | .error (.readOnly name) => Act.fail (name ++ ": is read only".toList)

def arithmetic (inner : Inner) (m : Manner) (expression : List Piece) : Expand Unit := do
  let start ← position
  inner { discards := m.discards } expression
  if m.discards then return
  let os := Cell.text (← from_ start)
  cut start
  forget start
  let n ← act (calculated os)
  putValue m (Octets.ofInt n)
  if !m.isQuoted then record start

/-! ## Words -/

/-- Expands the pieces of a word. Plain text in the word of a parameter may be cut into fields; the
run of it that began at `run` is not remembered yet. -/
def pieces (inner : Inner) (capture : Option Command → Act Octets) (m : Manner) :
    Nat → Bool → Nat → List Piece → Expand Unit
  | 0, _, _, _ => return
  | fuel + 1, inQuotes, run, w => do
    let ends : Expand Unit := do
      if m.isWord && !m.isQuoted && !inQuotes && !m.discards && run < (← position) then record run
    let here := { m with isQuoted := m.isQuoted || inQuotes, tilde := false }
    let goOn (w : List Piece) : Expand Unit := do
      pieces inner capture m fuel inQuotes (← position) w
    match w with
    | [] => ends
    | .plain c :: rest =>
      if !m.discards then put (.plain c)
      if m.isAssignment && (c == ':' || (c == '=' && !m.isPastEquals)) then
        let m := { m with isPastEquals := m.isPastEquals || c == '=' }
        ends
        let rest ← tilde { m with isQuoted := m.isQuoted || inQuotes } rest
        pieces inner capture m fuel inQuotes (← position) rest
      else pieces inner capture m fuel inQuotes run rest
    | .quote :: .parameter ['@'] .value false [] :: .quote :: rest =>
      if inQuotes then
        ends
        if m.escapes && !m.discards then put .mark
        pieces inner capture m fuel false (← position)
          (.parameter ['@'] .value false [] :: .quote :: rest)
      else
        ends
        parameter inner { m with isQuoted := true, tilde := false } ['@'] .value false []
        goOn rest
    | .quote :: rest =>
      ends
      if m.escapes && !m.discards then put .mark
      pieces inner capture m fuel (!inQuotes) (← position) rest
    | .escaped c :: rest =>
      ends
      if !m.discards then put (if m.escapes then .escaped c else .plain c)
      goOn rest
    | .parameter name op emptyIsNone word :: rest =>
      ends
      parameter inner here name op emptyIsNone word
      goOn rest
    | .output body :: rest =>
      ends
      output here capture body
      goOn rest
    | .arithmetic expression :: rest =>
      ends
      arithmetic inner here expression
      goOn rest

/-- How deep words may stand in words. -/
def maxDepth : Nat := 100000

/-- Expands a word, down to a depth. -/
def word (capture : Option Command → Act Octets) : Nat → Inner
  | 0 => fun _ _ ↦ return
  | depth + 1 => fun m w ↦ do
    let w ← if m.tilde then tilde m w else pure w
    let m := { m with tilde := false }
    pieces (word capture depth) capture m (w.length + 1) false (← position) w

end Expand

/-! ## Fields -/

/-- How far the cutting of cells into fields has come. -/
structure Cutting where
  fields : List (List Cell) := []
  /-- Where the field begins that is being read. -/
  start : Nat := 0
  /-- Whether the last separator was a blank. -/
  afterBlank : Bool := false
  /-- How many more fields may be ended; none, if there is no such limit. -/
  left : Option Nat := none
  /-- Where that which is to be dropped at the end begins. -/
  dropped : Option Nat := none

namespace Cutting

/-- Cuts at one cell of a region. `afterArguments` tells that arguments are kept here or just
before. -/
def step (cells : Array Cell) (separators : Octets) (afterArguments : Bool) (s : Cutting)
    (q : Nat) : Cutting :=
  let c :=
    match cells.getD q .mark with
    | .mark => '\x88'
    | .plain c | .escaped c => c
  let p := q + 1
  let isSeparator := c == '\x00' || separators.contains c
  let isBlank := isSeparator && (c == '\x00' || c == ' ' || c == '\t' || c == '\n')
  if s.left = some 0 then
    if isBlank then { s with dropped := some (s.dropped.getD q) }
    else
      { s with dropped := if isSeparator && s.afterBlank then s.dropped else none
               afterBlank := false }
  else
    let s := if s.afterBlank then { s with start := if isSeparator then p else q } else s
    if s.afterBlank && isBlank then s
    else
      if isSeparator && !s.afterBlank then
        let s := if afterArguments then s else { s with afterBlank := isBlank }
        if q = s.start && s.afterBlank then { s with start := p, afterBlank := false }
        else
          match s.left with
          | some (n + 1) =>
            if n = 0 then { s with left := some 0, dropped := some q }
            else
              { s with left := some n, start := p
                       fields := (cells.extract s.start q).toList :: s.fields }
          | _ =>
            { s with start := p, fields := (cells.extract s.start q).toList :: s.fields }
      else { s with afterBlank := false }

/-- Cuts cells into fields, at most `limit` of them. -/
def cut (e : Expanding) (separators : Octets) (limit : Option Nat) : List (List Cell) :=
  let region (s : Cutting × Bool) (r : Region) : Cutting × Bool :=
    let after := s.2 || r.keepsArguments
    let separators := if r.keepsArguments then [] else separators
    let positions := (List.range (r.stop - r.start)).map (r.start + ·)
    (positions.foldl (step e.cells separators after) { s.1 with afterBlank := false },
      r.keepsArguments)
  let (s, keepsArguments) := e.regions.foldl region ({ left := limit }, false)
  let stop := s.dropped.getD e.cells.size
  let last := (e.cells.extract s.start stop).toList
  let ended := s.fields.reverse
  if keepsArguments || !last.isEmpty then ended ++ [last] else ended

end Cutting

namespace Act

/-- Expands a word in some manner. -/
def expanded (capture : Option Command → Act Octets) (m : Manner) (w : Word) : Act Expanding := do
  let ((), e) ← StateT.run (Expand.word capture Expand.maxDepth m w) {}
  return e

/-- The text of a word, not cut into fields. -/
def textOf (capture : Option Command → Act Octets) (m : Manner) (w : Word) : Act Octets := do
  return Cell.text (← expanded capture m w).cells.toList

/-- The pattern that a word is. -/
def patternOf (capture : Option Command → Act Octets) (w : Word) : Act Octets := do
  return Cell.pattern (← expanded capture { tilde := true, isPattern := true } w).cells.toList

/-- The fields of a word, with paths in the place of patterns. -/
def fieldsOf (capture : Option Command → Act Octets) (w : Word) : Act (List Octets) := do
  let e ← expanded capture { fields := true, tilde := true } w
  let found := Cutting.cut e (← separators) none
  let keeps ← hasOption "noglob"
  let rec all : List (List Cell) → Act (List Octets)
    | [] => return []
    | cells :: rest => do
      let text := Cell.text cells
      let paths ←
        if keeps || !text.any fun c ↦ c == '*' || c == '?' || c == '[' then pure []
        else
          doing (Doing.look fun w ↦ Pattern.paths w.tree w.current.cwd (Cell.pattern cells))
      let here := if paths.isEmpty then [text] else paths
      return here ++ (← all rest)
  all found

end Act

end ShellEngine.Machine.Script
