import ShellEngine.Machine.Tools.Streams
import ShellEngine.Text.Floating

/-!
# Sorting

Lines in the order of some keys, each of which is a part of the line that is compared in its own
way. Lines that no key tells apart are compared byte by byte, unless the order is to stay, or only
one of them is wanted.
-/

namespace ShellEngine.Machine.Tools

/-- How a key is compared. -/
inductive Manner
  | bytes
  | numeric
  | general
  | human
  | month
  | version
  | random
  deriving DecidableEq

/-- Which characters of a key count. -/
inductive Attention
  | all
  /-- Letters, digits and blanks. -/
  | dictionary
  | printing
  deriving DecidableEq

/-- A key: where it starts and ends in a line, and how it is compared. Positions count from zero; a
key without an end goes to the end of the line, and one without a start begins with it. -/
structure SortKey where
  startField : Nat := 0
  startCharacter : Nat := 0
  end_ : Option (Nat × Nat) := none
  isWhole : Bool := false
  manners : List Manner := []
  attention : Attention := .all
  folds : Bool := false
  skipsStart : Bool := false
  skipsEnd : Bool := false
  reversed : Bool := false

namespace SortKey

/-- Whether nothing is said about how the key is compared. -/
def isPlain (k : SortKey) : Bool :=
  k.manners.isEmpty && k.attention = .all && !k.folds && !k.skipsStart && !k.skipsEnd &&
    !k.reversed

/-- The key with the manners of another one. -/
def comparedAs (k g : SortKey) : SortKey :=
  { g with
    startField := k.startField, startCharacter := k.startCharacter, end_ := k.end_
    isWhole := k.isWhole }

/-- Takes note of a letter about the comparison; false if it means nothing. `atEnd` tells that it
stands behind the end of the key. -/
def mark (k : SortKey) (c : Char) (blankAtStart blankAtEnd : Bool) : Option SortKey :=
  match c with
  | 'b' =>
    some { k with
      skipsStart := k.skipsStart || blankAtStart, skipsEnd := k.skipsEnd || blankAtEnd }
  | 'd' => some { k with attention := .dictionary }
  | 'f' => some { k with folds := true }
  | 'g' => some { k with manners := k.manners ++ [.general] }
  | 'h' => some { k with manners := k.manners ++ [.human] }
  | 'i' => some { k with attention := if k.attention = .all then .printing else k.attention }
  | 'M' => some { k with manners := k.manners ++ [.month] }
  | 'n' => some { k with manners := k.manners ++ [.numeric] }
  | 'R' => some { k with manners := k.manners ++ [.random] }
  | 'r' => some { k with reversed := true }
  | 'V' => some { k with manners := k.manners ++ [.version] }
  | _ => none

/-- Takes note of letters up to the first that means nothing. -/
def marks (k : SortKey) (blankAtStart blankAtEnd : Bool) : Octets → SortKey × Octets
  | [] => (k, [])
  | c :: rest =>
    match k.mark c blankAtStart blankAtEnd with
    | some k => k.marks blankAtStart blankAtEnd rest
    | none => (k, c :: rest)

/-- The letters of manners that exclude each other, if there are several. -/
def conflict? (k : SortKey) : Option Octets :=
  let has (m : Manner) : Bool := k.manners.contains m
  let count (b : Bool) : Nat := if b then 1 else 0
  let sorts := count (has .numeric) + count (has .general) + count (has .human) +
    count (has .month) + count (has .version || has .random || k.attention != .all)
  if sorts ≤ 1 then none
  else
    let letter (b : Bool) (c : Char) : Octets := if b then [c] else []
    some (letter (k.attention = .dictionary) 'd' ++ letter k.folds 'f' ++
      letter (has .general) 'g' ++ letter (has .human) 'h' ++
      letter (k.attention = .printing) 'i' ++ letter (has .month) 'M' ++
      letter (has .numeric) 'n' ++ letter (has .random) 'R' ++ letter (has .version) 'V')

def isBlank (c : Char) : Bool := c == ' ' || c == '\t' || c == '\n'

/-- What is left of a line behind some fields. With `more`, the separator behind the last of them is
skipped as well. -/
def afterFields (separator : Option Char) (more : Bool) : Nat → Octets → Octets
  | 0, os => os
  | count + 1, os =>
    match separator with
    | some c =>
      let rest := os.dropWhile (· != c)
      let rest := if count != 0 || more then rest.drop 1 else rest
      afterFields separator more count rest
    | none => afterFields separator more count ((os.dropWhile isBlank).dropWhile (!isBlank ·))

/-- The part of a line that a key is. -/
def extract (k : SortKey) (separator : Option Char) (line : Octets) : Octets :=
  let start :=
    if k.isWhole then (if k.skipsStart then line.dropWhile isBlank else line)
    else
      let rest := afterFields separator true k.startField line
      let rest := if k.skipsStart then rest.dropWhile isBlank else rest
      rest.drop k.startCharacter
  match k.end_ with
  | none => start
  | some (field, character) =>
    let fields := if character = 0 then field + 1 else field
    let rest := afterFields separator (character != 0) fields line
    let rest := if character != 0 && k.skipsEnd then rest.dropWhile isBlank else rest
    let behind := rest.drop character
    start.take (start.length - behind.length)

/-! ## Comparison -/

/-- Compares bytes one by one; what comes first in its whole comes first. -/
def compareBytes : Octets → Octets → Ordering
  | [], [] => .eq
  | [], _ :: _ => .lt
  | _ :: _, [] => .gt
  | a :: as, b :: bs => if a = b then compareBytes as bs else if a < b then .lt else .gt

/-- A decimal number at the start of a text: its sign, and its digits before and behind the point
without zeros that do not count. -/
structure Figure where
  negative : Bool
  whole : Octets
  fraction : Octets

def figureOf (os : Octets) : Figure :=
  let os := os.dropWhile isBlank
  let (negative, os) := if os.head? = some '-' then (true, os.drop 1) else (false, os)
  let whole := os.takeWhile Char.isDigit
  let fraction :=
    match os.drop whole.length with
    | '.' :: rest => rest.takeWhile Char.isDigit
    | _ => []
  let whole := whole.dropWhile (· == '0')
  let fraction := (fraction.reverse.dropWhile (· == '0')).reverse
  { negative := negative && !(whole.isEmpty && fraction.isEmpty), whole, fraction }

def Figure.compare (x y : Figure) : Ordering :=
  let size (x y : Figure) : Ordering :=
    match Ord.compare x.whole.length y.whole.length with
    | .eq => (compareBytes x.whole y.whole).then (compareBytes x.fraction y.fraction)
    | unequal => unequal
  match x.negative, y.negative with
  | false, false => size x y
  | true, true => size y x
  | true, false => .lt
  | false, true => .gt

def compareNumeric (x y : Octets) : Ordering := (figureOf x).compare (figureOf y)

/-- How many thousands the letter behind a number stands for, with the sign of the number. -/
def magnitude (os : Octets) : Int :=
  let os := os.dropWhile isBlank
  let (negative, os) := if os.head? = some '-' then (true, os.drop 1) else (false, os)
  let digits := os.takeWhile Char.isDigit
  let rest := os.drop digits.length
  let (fraction, rest) :=
    match rest with
    | '.' :: more => (more.takeWhile Char.isDigit, more.dropWhile Char.isDigit)
    | _ => ([], rest)
  if (digits ++ fraction).all (· == '0') then 0
  else
    let power := (rest.head?.bind fun c ↦
      [('K', 1), ('k', 1), ('M', 2), ('G', 3), ('T', 4), ('P', 5), ('E', 6), ('Z', 7), ('Y', 8),
       ('R', 9), ('Q', 10)].lookup c).getD (0 : Int)
    if negative then -power else power

/-- The place of the month at the start of a text in the year; zero if there is none. -/
def monthOf (os : Octets) : Nat :=
  let months := ["JAN", "FEB", "MAR", "APR", "MAY", "JUN", "JUL", "AUG", "SEP", "OCT", "NOV", "DEC"]
  let name := String.ofList (((os.dropWhile isBlank).take 3).map Char.toUpper)
  if months.contains name then months.idxOf name + 1 else 0

/-- Compares floating-point numbers: what is no number at all comes first, then what is called
none. -/
def compareGeneral (x y : Octets) : Ordering :=
  let read (os : Octets) : Option Text.Floating :=
    (Text.Floating.read? .extended os).map Text.Floating.Reading.value
  match read x, read y with
  | none, none => .eq
  | none, some _ => .lt
  | some _, none => .gt
  | some (.nan _), some (.nan _) => .eq
  | some (.nan _), some _ => .lt
  | some _, some (.nan _) => .gt
  | some a, some b => if a.lt b then .lt else if b.lt a then .gt else .eq

/-- The rank of the character at the start of a part of a version. -/
def versionRank : Octets → Int
  | [] => -1
  | c :: _ =>
    if c.isDigit then 0 else if c.isAlpha then c.toNat else if c == '~' then -2 else c.toNat + 256

/-- Compares versions: what stands between numbers by its characters, and numbers by their value. -/
def compareVersionParts : Nat → Octets → Octets → Ordering
  | 0, _, _ => .eq
  | fuel + 1, x, y =>
    if x.isEmpty && y.isEmpty then .eq
    else
      let isText (os : Octets) : Bool :=
        match os with
        | c :: _ => !c.isDigit
        | [] => false
      if isText x || isText y then
        let a := versionRank x
        let b := versionRank y
        if a != b then (if a < b then .lt else .gt)
        else compareVersionParts fuel (x.drop 1) (y.drop 1)
      else
        let digits (os : Octets) : Octets := (os.takeWhile Char.isDigit).dropWhile (· == '0')
        let rest (os : Octets) : Octets := os.dropWhile Char.isDigit
        match Ord.compare (digits x).length (digits y).length with
        | .eq =>
          match compareBytes (digits x) (digits y) with
          | .eq => compareVersionParts fuel (rest x) (rest y)
          | unequal => unequal
        | unequal => unequal

/-- Whether a text consists of endings: each a point, a letter and what may follow it. -/
def isEndings (os : Octets) : Bool :=
  let isLetter (c : Char) : Bool := c.isAlpha || c == '~'
  match Octets.splitOn '.' os with
  | [] :: parts => parts.all fun
    | c :: rest => isLetter c && rest.all fun c ↦ isLetter c || c.isDigit
    | [] => false
  | _ => false

/-- A name without its endings. -/
def stem (os : Octets) : Octets :=
  let lengths := (List.range os.length).drop 1
  os.take ((lengths.find? fun k ↦ isEndings (os.drop k)).getD os.length)

/-- Compares names with version numbers in them. -/
def compareVersions (x y : Octets) : Ordering :=
  let rank (os : Octets) : Nat :=
    match os with
    | [] => 0
    | ['.'] => 1
    | ['.', '.'] => 2
    | '.' :: _ => 3
    | _ => 4
  let parts (a b : Octets) : Ordering := compareVersionParts (a.length + b.length + 1) a b
  match Ord.compare (rank x) (rank y) with
  | .eq =>
    if rank x < 3 then .eq
    else
      match parts (stem x) (stem y) with
      | .eq => parts x y
      | unequal => unequal
  | unequal => unequal

/-- What counts of a key. -/
def attended (k : SortKey) (os : Octets) : Octets :=
  let os :=
    match k.attention with
    | .all => os
    | .dictionary => os.filter fun c ↦ isBlank c || c.isAlphanum
    | .printing => os.filter Quoting.isPrintable
  if k.folds then os.map Char.toUpper else os

/-- Compares two lines by a key. -/
def compare (k : SortKey) (separator : Option Char) (x y : Octets) : Ordering :=
  let a := k.extract separator x
  let b := k.extract separator y
  let result :=
    match k.manners.head? with
    | some .numeric => compareNumeric a b
    | some .general => compareGeneral a b
    | some .human =>
      match Ord.compare (magnitude a) (magnitude b) with
      | .eq => compareNumeric a b
      | unequal => unequal
    | some .month => Ord.compare (monthOf a) (monthOf b)
    | some .version => compareVersions (k.attended a) (k.attended b)
    | _ => compareBytes (k.attended a) (k.attended b)
  if k.reversed then result.swap else result

end SortKey

/-- The settings of a sort. -/
structure SortStyle where
  keys : List SortKey := []
  /-- How keys of which nothing is said are compared. -/
  usual : SortKey := { isWhole := true }
  separator : Option Char := none
  unique : Bool := false
  stable : Bool := false
  /-- The letter of the option that asks for a check only. -/
  checks : Option Char := none
  merges : Bool := false
  output : Option Octets := none
  compressor : Option Octets := none
  lineEnd : Char := '\n'

namespace SortStyle

/-- Compares two lines by all keys. -/
def compareKeys (s : SortStyle) (x y : Octets) : Ordering :=
  s.keys.foldl (fun result k ↦ result.then (k.compare s.separator x y)) .eq

/-- Compares two lines. -/
def compare (s : SortStyle) (x y : Octets) : Ordering :=
  match s.compareKeys x y with
  | .eq =>
    if !s.keys.isEmpty && (s.unique || s.stable) then .eq
    else
      let result := SortKey.compareBytes x y
      if s.usual.reversed then result.swap else result
  | unequal => unequal

/-- The first of each row of lines that are equal. -/
def distinct (s : SortStyle) : List Octets → List Octets
  | x :: y :: rest =>
    if s.compare x y = .eq then distinct s (x :: rest) else x :: distinct s (y :: rest)
  | lines => lines
  termination_by lines => lines.length

/-- Merges rows of lines that are in order: the first line of one of the rows comes next. -/
def merge (s : SortStyle) : Nat → List (List Octets) → List Octets
  | 0, _ => []
  | fuel + 1, rows =>
    let heads := rows.filterMap List.head?
    match heads with
    | [] => []
    | first :: others =>
      let least := others.foldl (fun l x ↦ if s.compare x l = .lt then x else l) first
      let rec dropFirst : List (List Octets) → List (List Octets)
        | [] => []
        | (x :: rest) :: more =>
          if s.compare x least = .eq && x = least then rest :: more
          else (x :: rest) :: dropFirst more
        | [] :: more => dropFirst more
      least :: merge s fuel (dropFirst rows)

end SortStyle

def sortOptions : List OptionSpec :=
  [.flag "ignore-leading-blanks" "b", .perhaps "check", { key := "c", letters := ['c'] },
   { key := "C", letters := ['C'] }, .valued "compress-program", .flag "debug",
   .flag "dictionary-order" "d", .flag "ignore-case" "f", .valued "files0-from",
   .flag "general-numeric-sort" "g", .flag "ignore-nonprinting" "i", .valued "key" "k",
   .flag "merge" "m", .flag "month-sort" "M", .flag "numeric-sort" "n",
   .flag "human-numeric-sort" "h", .flag "version-sort" "V", .flag "random-sort" "R",
   .valued "random-source", .valued "sort", .valued "output" "o", .flag "reverse" "r",
   .flag "stable" "s", .valued "batch-size",
   { key := "S", letters := ['S'], takes := .value }, .valued "buffer-size",
   .valued "field-separator" "t", .valued "temporary-directory" "T", .flag "unique" "u",
   .flag "zero-terminated" "z", .valued "parallel",
   { key := "y", letters := ['y'], takes := .perhaps }]

/-- The letters of the options about the comparison. -/
def sortLetters : List (String × Char) :=
  [("ignore-leading-blanks", 'b'), ("dictionary-order", 'd'), ("ignore-case", 'f'),
   ("general-numeric-sort", 'g'), ("ignore-nonprinting", 'i'), ("month-sort", 'M'),
   ("numeric-sort", 'n'), ("human-numeric-sort", 'h'), ("version-sort", 'V'),
   ("random-sort", 'R'), ("reverse", 'r')]

/-- The status of a sort that failed. -/
def sortFailure : Nat := 2

/-- Why the text of a key is none. -/
inductive KeyError
  | field (what : String)
  | count (what : String) (at_ : Octets)

/-- Reads a count at the start of a text; one that is too large is as good as the largest. -/
def readCount? (os : Octets) : Option (Nat × Octets) :=
  let body := os.dropWhile isSpace
  let body := if body.head? = some '+' then body.drop 1 else body
  let digits := body.takeWhile Char.isDigit
  (readDecimal? digits).map fun n ↦ (min n Size.largest, body.drop digits.length)

/-- Reads a key. -/
def readKey (os : Octets) : Except KeyError SortKey := do
  let count (what : String) (os : Octets) : Except KeyError (Nat × Octets) :=
    match readCount? os with
    | some found => .ok found
    | none => .error (.count what os)
  let (field, rest) ← count "invalid number at field start" os
  if field = 0 then throw (.field "field number is zero")
  let (character, rest) ←
    match rest with
    | '.' :: more => do
      let (n, rest) ← count "invalid number after '.'" more
      if n = 0 then throw (.field "character offset is zero")
      pure (n - 1, rest)
    | _ => pure (0, rest)
  let k : SortKey :=
    { startField := field - 1, startCharacter := character
      isWhole := field = 1 && character = 0 }
  let (k, rest) := k.marks true false rest
  let (k, rest) ←
    match rest with
    | ',' :: more => do
      let (field, rest) ← count "invalid number after ','" more
      if field = 0 then throw (.field "field number is zero")
      let (character, rest) ←
        match rest with
        | '.' :: more => count "invalid number after '.'" more
        | _ => pure (0, rest)
      pure ({ k with end_ := some (field - 1, character) }.marks false true rest)
    | _ => pure (k, rest)
  if rest.isEmpty then return k else throw (.field "stray character in field spec")

/-- Reads a key in its old form: a plus sign and how many fields, and perhaps characters, stand in
front of the key; then perhaps a minus sign and where the key ends. `none` if the first part is
none; the second part must then be one. -/
def readOldKey (start : Octets) (end_ : Option Octets) : Option (Except KeyError SortKey) := do
  let (field, rest) ← readCount? (start.drop 1)
  let (character, rest) ←
    match rest with
    | '.' :: more => readCount? more
    | _ => some (0, rest)
  let k : SortKey :=
    { startField := field, startCharacter := character, isWhole := field = 0 && character = 0 }
  let (k, rest) := k.marks true false rest
  if !rest.isEmpty then failure
  match end_ with
  | none => return .ok k
  | some os => return do
    let count (what : String) (os : Octets) : Except KeyError (Nat × Octets) :=
      match readCount? os with
      | some found => .ok found
      | none => .error (.count what os)
    let (field, rest) ← count "invalid number after '-'" (os.drop 1)
    let (character, rest) ←
      match rest with
      | '.' :: more => count "invalid number after '.'" more
      | _ => pure (0, rest)
    let field := if character = 0 then field - 1 else field
    let (k, rest) := { k with end_ := some (field, character) }.marks false true rest
    if rest.isEmpty then return k else throw (.field "stray character in field spec")

/-- An operand that is a key in its old form. What ends the key follows a zero byte. -/
def oldKey : Arguments.Disguise := fun arg next ↦ do
  if arg.head? != some '+' then failure
  let end_ := next.filter fun os ↦
    os.head? = some '-' && (os.drop 1).head?.any Char.isDigit
  let _ ← readOldKey arg end_
  return ("old key", arg ++ (end_.map ('\x00' :: ·)).getD [], end_.isSome)

/-- Complains, and gives the status of a failed sort. -/
def sortFault {α : Type} (i : Invocation) (message : Octets) : Doing (Except Nat α) := do
  i.complain message
  return .error sortFailure

/-- The words that say how to sort, or to check. -/
def sortWords : List (String × Char) :=
  [("general-numeric", 'g'), ("human-numeric", 'h'), ("month", 'M'), ("numeric", 'n'),
   ("random", 'R'), ("version", 'V')]

/-- The meaning of a word among some, which may be cut short as long as it stays clear. -/
def wordAmong? {α : Type} [DecidableEq α] (words : List (String × α)) (os : Octets) :
    Except Bool α :=
  match words.find? fun e ↦ e.1.toList = os with
  | some e => .ok e.2
  | none =>
    match words.filter fun e ↦ os.isPrefixOf e.1.toList with
    | [] => .error false
    | first :: others =>
      if others.all fun e ↦ decide (e.2 = first.2) then .ok first.2 else .error true

/-- Complains about a word that is none of some. -/
def refuseWord {α : Type} [DecidableEq α] (i : Invocation) (option : String)
    (words : List (String × α)) (os : Octets) (ambiguous : Bool) (code : Nat) : Doing Nat := do
  let how := if ambiguous then "ambiguous argument " else "invalid argument "
  i.complain (how.toList ++ i.shown os ++ " for ".toList ++ i.shown option.toList)
  let rec groups (last : Option α) : List (String × α) → Octets
    | [] => []
    | (word, meaning) :: rest =>
      let same := last = some meaning
      (if same then ", ".toList else "\n  - ".toList) ++ i.shown word.toList ++
        groups (some meaning) rest
  Doing.put 2 ("Valid arguments are:".toList ++ groups none words ++ ['\n'])
  i.seeHelp code

/-- Says several things. -/
def forLines (i : Invocation) : List Octets → Doing Unit
  | [] => return
  | line :: rest => do
    i.complain line
    forLines i rest

/-- How many files a sort can merge at a time. -/
def mostMerged : Nat := 19997

/-- What is wrong with the number that limits what a sort uses, if something is. -/
def resourceFault? (key : String) (value : Octets) : Option (List Octets) :=
  let option := if key = "S" then "-S" else "--" ++ key
  match key with
  | "parallel" =>
    match Size.read "" value with
    | .ok 0 => some ["number in parallel must be nonzero".toList]
    | .ok _ | .error .tooLarge => none
    | .error e => some [e.message option value]
  | "batch-size" =>
    let tooLarge : List Octets :=
      [SizeError.tooLarge.message option value,
       ("maximum " ++ option ++ " argument with current rlimit is ").toList ++
         Octets.ofNat mostMerged]
    match Size.read "" value with
    | .ok n =>
      if n < 2 then
        some [SizeError.invalid.message option value,
          ("minimum " ++ option ++ " argument is '2'").toList]
      else if mostMerged < n then some tooLarge
      else none
    | .error .tooLarge => some tooLarge
    | .error e => some [e.message option value]
  | _ =>
    match Size.read "EgGkKmMPQRtTYZ" value with
    | .ok n =>
      let isPlain := value.getLast?.any Char.isDigit
      if isPlain && Size.largest / 1024 < n then some [SizeError.tooLarge.message option value]
      else none
    | .error .suffix =>
      let suffix := value.reverse.takeWhile fun c ↦ !c.isDigit
      if suffix = ['b'] || suffix = ['%'] then none
      else some [SizeError.suffix.message option value]
    | .error e => some [e.message option value]

/-- Takes the settings of a sort from its options. -/
def sortStyle (i : Invocation) (s : SortStyle) :
    List (String × Option Octets) → Doing (Except Nat SortStyle)
  | [] => return .ok s
  | (key, value?) :: rest => do
    let value := value?.getD []
    let marked (c : Char) : SortStyle :=
      { s with usual := (s.usual.mark c true true).getD s.usual }
    let keyed (text : Octets) : Except KeyError SortKey → Doing (Except Nat SortStyle)
      | .ok k => sortStyle i { s with keys := s.keys ++ [k] } rest
      | .error (.field what) =>
        sortFault i (what.toList ++ ": invalid field specification ".toList ++ i.shown text)
      | .error (.count what os) =>
        sortFault i (what.toList ++ ": invalid count at start of ".toList ++ i.shown os)
    let check (c : Char) : Doing (Except Nat SortStyle) := do
      match s.checks with
      | some d =>
        if d = c then sortStyle i s rest
        else sortFault i "options '-cC' are incompatible".toList
      | none => sortStyle i { s with checks := some c } rest
    match sortLetters.lookup key with
    | some c => sortStyle i (marked c) rest
    | none =>
      match key with
      | "c" => check 'c'
      | "C" => check 'C'
      | "check" =>
        match value? with
        | none => check 'c'
        | some word =>
          let words := [("quiet", 'C'), ("silent", 'C'), ("diagnose-first", 'c')]
          match wordAmong? words word with
          | .ok c => check c
          | .error ambiguous => return .error (← refuseWord i "--check" words word ambiguous 1)
      | "sort" =>
        match wordAmong? sortWords value with
        | .ok c => sortStyle i (marked c) rest
        | .error ambiguous => return .error (← refuseWord i "--sort" sortWords value ambiguous 1)
      | "key" => keyed value (readKey value)
      | "old key" =>
        let start := value.takeWhile (· != '\x00')
        let end_ := value.drop (start.length + 1)
        match readOldKey start (if value.contains '\x00' then some end_ else none) with
        | some result => keyed end_ result
        | none => sortStyle i s rest
      | "field-separator" =>
        let separate (c : Char) : Doing (Except Nat SortStyle) :=
          if s.separator.isSome && s.separator != some c then
            sortFault i "incompatible tabs".toList
          else sortStyle i { s with separator := some c } rest
        match value with
        | [] => sortFault i "empty tab".toList
        | [c] => separate c
        | ['\\', '0'] => separate '\x00'
        | _ => sortFault i ("multi-character tab ".toList ++ i.shown value)
      | "output" =>
        if s.output.isSome && s.output != some value then
          sortFault i "multiple output files specified".toList
        else sortStyle i { s with output := some value } rest
      | "merge" => sortStyle i { s with merges := true } rest
      | "stable" => sortStyle i { s with stable := true } rest
      | "unique" => sortStyle i { s with unique := true } rest
      | "zero-terminated" => sortStyle i { s with lineEnd := '\x00' } rest
      | "compress-program" =>
        if s.compressor.isSome && s.compressor != some value then
          sortFault i "multiple compress programs specified".toList
        else sortStyle i { s with compressor := some value } rest
      | "S" | "buffer-size" | "parallel" | "batch-size" =>
        match resourceFault? key value with
        | none => sortStyle i s rest
        | some messages =>
          forLines i messages
          return .error sortFailure
      | _ => sortStyle i s rest

/-- The settings with what is said for all keys said for those of which nothing is said. -/
def SortStyle.settled (s : SortStyle) : SortStyle :=
  let keys := s.keys.map fun k ↦ if k.isPlain then k.comparedAs s.usual else k
  let keys :=
    if keys.isEmpty && !{ s.usual with reversed := false }.isPlain then [s.usual] else keys
  { s with keys }

/-- The lines of an input without their ends. -/
def sortLines (s : SortStyle) (os : Octets) : List Octets :=
  (linesBy s.lineEnd os).map fun line ↦
    if line.getLast? = some s.lineEnd then line.dropLast else line

/-- Reads the lines of each input; a status if one of them cannot be read. -/
def readInputs (i : Invocation) (s : SortStyle) :
    List Octets → Doing (Except Nat (List (List Octets)))
  | [] => return .ok []
  | path :: rest => do
    let contents : Except (String × Errno) Octets ← withInput path fun
      | .error e => return .error ("open failed: ", e)
      | .ok fd => do
        match ← Doing.readAll fd with
        | .ok os => return .ok os
        | .error e => return .error ("read failed: ", e)
    match contents with
    | .error (what, e) =>
      i.failWith (what.toList ++ i.nameOf path) e
      return .error sortFailure
    | .ok os =>
      match ← readInputs i s rest with
      | .error code => return .error code
      | .ok more => return .ok (sortLines s os :: more)

/-- Checks the order of lines: the number of the first that is out of order, and that line. -/
def disorder? (s : SortStyle) : Nat → List Octets → Option (Nat × Octets)
  | n, x :: y :: rest =>
    let result := s.compare x y
    if result = .gt || (s.unique && result = .eq) then some (n + 1, y)
    else disorder? s (n + 1) (y :: rest)
  | _, _ => none

/-- Writes sorted lines, to a file if one is given. -/
def writeSorted (i : Invocation) (s : SortStyle) (os : Octets) : Doing Nat := do
  match s.output with
  | none =>
    Doing.out os
    return 0
  | some path =>
    match ← Doing.openFree path (.output false) with
    | .error e =>
      i.failWith ("open failed: ".toList ++ i.nameOf path) e
      return sortFailure
    | .ok fd =>
      match ← Doing.write fd os with
      | .ok () =>
        Doing.close fd
        return 0
      | .error e =>
        i.failWith ("write failed: ".toList ++ i.nameOf path) e
        return sortFailure

/-- The names of the inputs: the operands, or what a file lists. -/
def sortNames (i : Invocation) (a : Arguments) : Doing (Except Nat (List Octets)) := do
  match a.value? "files0-from" with
  | none => return .ok (inputsOf a.operands)
  | some list =>
    if let some operand := a.operands.head? then
      return .error (← refuseOperand i operand sortFailure)
    let contents : Except Octets Octets ← withInput list fun
      | .error e =>
        return .error ("open failed: ".toList ++ i.nameOf list ++ ": ".toList ++ e.text.toList)
      | .ok fd => do
        match ← Doing.readAll fd with
        | .ok os => return .ok os
        | .error _ => return .error ("cannot read file names from ".toList ++ i.quoted list)
    match contents with
    | .error what => sortFault i what
    | .ok os =>
      let names := namesIn os
      let bad := names.findIdx fun name ↦ name = ['-'] || name.isEmpty
      match names[bad]? with
      | some ['-'] =>
        sortFault i ("when reading file names from stdin, no file name of ".toList ++
          i.quoted ['-'] ++ " allowed".toList)
      | some _ =>
        sortFault i (i.nameOf list ++ ':' :: Octets.ofNat (bad + 1) ++
          ": invalid zero-length file name".toList)
      | none =>
        if names.isEmpty then sortFault i ("no input from ".toList ++ i.quoted list)
        else return .ok names

def sort (i : Invocation) : Doing Nat :=
  let a := i.arguments sortOptions false oldKey
  i.closing sortFailure do
    match ← sortStyle i {} a.options with
    | .error code => return code
    | .ok s =>
      i.withArguments a sortFailure do
        let s := s.settled
        match ← sortNames i a with
        | .error code => return code
        | .ok files =>
          if let some letters := s.keys.findSome? SortKey.conflict? then
            i.complain ("options '-".toList ++ letters ++ "' are incompatible".toList)
            return sortFailure
          if let some c := s.checks then
            if let some extra := files[1]? then
              let rule := " not allowed with -".toList ++ [c]
              i.complain ("extra operand ".toList ++ i.quoted extra ++ rule)
              return sortFailure
            if s.output.isSome then
              i.complain ("options '-".toList ++ [c] ++ "o' are incompatible".toList)
              return sortFailure
          else
            let missing ← Doing.look fun w ↦ files.findSome? fun path ↦
              if path = ['-'] then none
              else
                match w.tree.resolve w.current.cwd path with
                | .ok _ => none
                | .error e => some (path, e)
            if let some (path, e) := missing then
              i.failWith ("cannot read: ".toList ++ i.nameOf path) e
              return sortFailure
            if let some path := s.output then
              match ← Doing.openFree path { writes := true, creates := true } with
              | .ok fd => Doing.close fd
              | .error e =>
                i.failWith ("open failed: ".toList ++ i.nameOf path) e
                return sortFailure
          match ← readInputs i s files with
          | .error code => return code
          | .ok rows =>
            let all := rows.flatten
            match s.checks with
            | some c =>
              match disorder? s 1 all with
              | none => return 0
              | some (n, line) =>
                if c = 'c' then
                  let name := (files.head?).getD []
                  i.complain (name ++ ':' :: Octets.ofNat n ++ ": disorder: ".toList ++ line)
                return 1
            | none =>
              let sorted :=
                if s.merges then s.merge (all.length + 1) rows
                else all.mergeSort fun x y ↦ s.compare x y != .gt
              let chosen := if s.unique then s.distinct sorted else sorted
              writeSorted i s (chosen.flatMap fun line ↦ line ++ [s.lineEnd])

end ShellEngine.Machine.Tools
