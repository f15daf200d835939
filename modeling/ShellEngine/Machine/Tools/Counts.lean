import ShellEngine.Machine.Tools.Order

/-!
# Counts

How many lines, words, characters and bytes there are in files, and how long the longest line is.
-/

namespace ShellEngine.Machine.Tools

/-- The counts of some bytes. -/
structure Counts where
  lines : Nat := 0
  words : Nat := 0
  characters : Nat := 0
  bytes : Nat := 0
  longest : Nat := 0

namespace Counts

def add (x y : Counts) : Counts :=
  { lines := x.lines + y.lines, words := x.words + y.words
    characters := x.characters + y.characters, bytes := x.bytes + y.bytes
    longest := max x.longest y.longest }

/-- How far counting has come: the counts, the column, and whether a word has begun. -/
structure Progress where
  counts : Counts := {}
  column : Nat := 0
  inWord : Bool := false

/-- Ends a line, or what counts as one for its length. -/
def Progress.rewind (p : Progress) : Progress :=
  { p with
    column := 0, inWord := false
    counts := { p.counts with longest := max p.counts.longest p.column } }

/-- Counts a byte. Bytes that cannot be printed are part of words, but make none. -/
def Progress.step (p : Progress) (c : Char) : Progress :=
  match c with
  | '\n' =>
    let p := p.rewind
    { p with counts := { p.counts with lines := p.counts.lines + 1 } }
  | '\r' | '\x0c' => p.rewind
  | '\t' => { p with column := p.column + 8 - p.column % 8, inWord := false }
  | ' ' => { p with column := p.column + 1, inWord := false }
  | '\x0b' => { p with inWord := false }
  | c =>
    if Quoting.isPrintable c then
      { p with
        column := p.column + 1, inWord := true
        counts := { p.counts with words := p.counts.words + if p.inWord then 0 else 1 } }
    else p

/-- The counts of some bytes. In Unicode, a character beyond ASCII is one that can be printed. -/
def of (unicode : Bool) (os : Octets) : Counts :=
  let isInner (c : Char) : Bool := unicode && 128 ≤ c.toNat && c.toNat < 192
  let glyphs := if unicode then (os.filter fun c ↦ !isInner c).map fun c ↦
    if 128 ≤ c.toNat then 'x' else c else os
  let p := (glyphs.foldl Progress.step {}).rewind
  { p.counts with bytes := os.length, characters := glyphs.length }

end Counts

/-- The counts that can be asked for, in the order in which they are shown. -/
def countKeys : List (String × (Counts → Nat)) :=
  [("lines", Counts.lines), ("words", Counts.words), ("chars", Counts.characters),
   ("bytes", Counts.bytes), ("max-line-length", Counts.longest)]

def countOptions : List OptionSpec :=
  [.flag "bytes" "c", .flag "chars" "m", .flag "lines" "l", .flag "words" "w", .flag "debug",
   .valued "files0-from", .flag "max-line-length" "L", .valued "total"]

/-- When the sums of all files are shown. -/
inductive Totals
  | several
  | always
  | only
  | never
  deriving DecidableEq

def totalWords : List (String × Totals) :=
  [("auto", .several), ("always", .always), ("only", .only), ("never", .never)]

/-- The width of a column: the digits of the size of all files, and at least seven if the size of
one of them is not known. -/
def columnWidth (files : List Octets) (w : World) : Nat :=
  let size? (path : Octets) : Option (Option Nat) :=
    let node? : Option Nat :=
      if path = ['-'] then
        match (w.current.streams.lookup 0).map fun f ↦ (w.file f).target with
        | some (.node n) => some n
        | some (.channel _) => some FileTree.root
        | none => none
      else (w.tree.resolve w.current.cwd path).toOption
    node?.map fun n ↦
      match w.tree.content n with
      | .file contents => some contents.length
      | .program _ => some World.programHead.length
      | _ => none
  let sizes := files.filterMap size?
  let total := (sizes.filterMap id).foldl (· + ·) 0
  max (if sizes.any Option.isNone then 7 else 1) (Octets.ofNat total).length

/-- A row of counts with a name behind them. -/
def countRow (i : Invocation) (chosen : List (Counts → Nat)) (width : Nat) (c : Counts)
    (name : Option Octets) : Octets :=
  let cells := chosen.map fun f ↦
    let digits := Octets.ofNat (f c)
    List.replicate (width - digits.length) ' ' ++ digits
  let name :=
    match name with
    | none => []
    | some name => ' ' :: if name.contains '\n' then i.nameOf name else name
  (List.intersperse [' '] cells).flatten ++ name ++ ['\n']

/-- Whether a descriptor of the running process leads to a plain file. -/
def isPlainFile (fd : Nat) (w : World) : Bool :=
  match (w.current.streams.lookup fd).map fun f ↦ (w.file f).target with
  | some (.node n) => (w.tree.content n matches .file _)
  | _ => false

/-- The names that a file lists, and whether it is a plain one. -/
def namesToCount (i : Invocation) (a : Arguments) (list : Octets) :
    Doing (Except Nat (List Octets × Bool)) := do
  if let some operand := a.operands.head? then
    return .error (← refuseOperand i operand 1)
  withInput list fun
    | .error e => do
      i.failWith ("cannot open ".toList ++ i.quoted list ++ " for reading".toList) e
      return .error 1
    | .ok fd => do
      match ← Doing.readAll fd with
      | .ok os => return .ok (namesIn os, ← Doing.look (isPlainFile fd))
      | .error e =>
        i.failWith (i.nameOf list ++ ": read error".toList) e
        return .error 1

/-- What is wrong with a name to begin with. `listed` is the file that lists it, and `number` its
place in there. -/
def nameFault? (i : Invocation) (listed : Option Octets) (number : Nat) (name : Octets) :
    Option Octets :=
  if listed = some ['-'] && name = ['-'] then
    some ("when reading file names from stdin, no file name of ".toList ++ i.quoted name ++
      " allowed".toList)
  else if name.isEmpty then
    let place : Octets :=
      match listed with
      | some list => i.nameOf list ++ ':' :: Octets.ofNat number ++ ": ".toList
      | none => []
    some (place ++ "invalid zero-length file name".toList)
  else none

/-- Counts what is in one file; nothing if it cannot be opened, and false if it cannot be read. -/
def countFile (i : Invocation) (isNamed : Bool) (path : Octets) : Doing (Option (Bool × Counts)) :=
  withInput path fun
    | .error e => do
      i.failWith (i.nameOf path) e
      return none
    | .ok fd => do
      match ← Doing.readAll fd with
      | .ok os => return some (true, Counts.of i.isUnicode os)
      | .error e =>
        i.failWith (i.nameOf (if isNamed then path else "standard input".toList)) e
        return some (false, {})

/-- Counts what is in files, and shows the counts of each; whether that went well, and the sum. -/
def countFiles (i : Invocation) (listed : Option Octets)
    (show_ : Counts → Octets → Doing Unit) (isNamed : Bool) :
    Nat → List Octets → Doing (Bool × Counts)
  | _, [] => return (true, {})
  | number, path :: rest => do
    let counted ←
      match nameFault? i listed number path with
      | some fault => do
        i.complain fault
        pure none
      | none => do
        let counted ← countFile i isNamed path
        if let some (_, c) := counted then show_ c path
        pure counted
    let (ok, sum) ← countFiles i listed show_ isNamed (number + 1) rest
    match counted with
    | some (good, c) => return (good && ok, c.add sum)
    | none => return (false, sum)

/-- What `wc` shows: which counts, and whether their sums. -/
structure CountStyle where
  chosen : List (Counts → Nat)
  totals : Totals

/-- Takes the settings from the options. -/
def countStyle (i : Invocation) (a : Arguments) : Doing (Except Nat CountStyle) := do
  let asked := countKeys.filter fun k ↦ a.has k.1
  let chosen := (if asked.isEmpty then
    countKeys.filter fun k ↦ ["lines", "words", "bytes"].contains k.1 else asked).map (·.2)
  match a.value? "total" with
  | none => return .ok { chosen, totals := .several }
  | some word =>
    match wordAmong? totalWords word with
    | .ok totals => return .ok { chosen, totals }
    | .error ambiguous => return .error (← refuseWord i "--total" totalWords word ambiguous 1)

def wordCount (i : Invocation) : Doing Nat :=
  let a := i.arguments countOptions
  i.closing 1 <| i.withArguments a 1 do
    match ← countStyle i a with
    | .error code => return code
    | .ok style =>
      let listed := a.value? "files0-from"
      let names ←
        match listed with
        | none => pure (.ok (inputsOf a.operands, true))
        | some list => namesToCount i a list
      match names with
      | .error code => return code
      | .ok (files, isKnown) =>
        let isLone := style.totals = .only || !isKnown ||
          (files.length = 1 && style.chosen.length = 1)
        let width ← if isLone then pure 1 else Doing.look (columnWidth files)
        let isNamed := listed.isSome || !a.operands.isEmpty
        let row (c : Counts) (name : Option Octets) : Doing Unit :=
          Doing.out (countRow i style.chosen width c name)
        let show_ (c : Counts) (name : Octets) : Doing Unit :=
          if style.totals = .only then pure () else row c (if isNamed then some name else none)
        let (ok, sum) ← countFiles i listed show_ isNamed 1 files
        match style.totals with
        | .always => row sum (some "total".toList)
        | .only => row sum none
        | .several => if 1 < files.length then row sum (some "total".toList)
        | .never => pure ()
        return status ok

end ShellEngine.Machine.Tools
