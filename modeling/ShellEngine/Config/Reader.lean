import ShellEngine.Config.Document
import ShellEngine.Text.Numeral

/-!
# Reading documents

A reader for TOML 1.0. Every function takes the text that is left and gives back what it read with
the rest, or `none` when the text is no document; which fault it was is not recorded, because no
caller tells faults apart. Values nest, so the functions that read them take a bound on their steps,
for which the length of the text is always enough; how deep they may nest is bounded besides.
-/

namespace ShellEngine.Config

/-! ## Blanks, breaks and comments -/

def isSpace (c : Char) : Bool := c == ' ' || c == '\t'

def skipSpaces (cs : List Char) : List Char := cs.dropWhile isSpace

/-- Whether a character may stand in comments and strings: no control character but the tab. -/
def isPlain (c : Char) : Bool := c == '\t' || (c.toNat ≥ 0x20 && c.toNat ≠ 0x7F)

/-- The text after a comment, if one stands here. The comment itself must be plain. -/
def skipComment : List Char → Option (List Char)
  | '#' :: rest => some (rest.dropWhile isPlain)
  | cs => some cs

/-- The text after a line break. -/
def skipBreak? : List Char → Option (List Char)
  | '\n' :: rest => some rest
  | '\r' :: '\n' :: rest => some rest
  | _ => none

/-- The text after the end of a line: spaces, perhaps a comment, and a break or the end of all. -/
def endLine (cs : List Char) : Option (List Char) := do
  match ← skipComment (skipSpaces cs) with
  | [] => some []
  | rest => skipBreak? rest

/-- The text after any spaces, breaks and comments, as they may stand inside an array. -/
def skipFiller : Nat → List Char → List Char
  | 0, cs => cs
  | fuel + 1, cs =>
    match skipSpaces cs with
    | '#' :: rest =>
      match skipBreak? (rest.dropWhile isPlain) with
      | some rest => skipFiller fuel rest
      | none => '#' :: rest
    | rest =>
      match skipBreak? rest with
      | some rest => skipFiller fuel rest
      | none => rest

/-! ## Strings -/

/-- The character of `width` hexadecimal digits. -/
def hexScalar (width : Nat) (cs : List Char) : Option (Char × List Char) :=
  let digits := cs.take width
  if digits.length < width || !digits.all (Text.digit? 16 · |>.isSome) then none
  else
    match Text.readNat 16 0xFFFFFFFF digits with
    | .ok n => if n.isValidChar then some (Char.ofNat n, cs.drop width) else none
    | .error _ => none

/-- The character after a backslash. -/
def escape : List Char → Option (Char × List Char)
  | 'b' :: rest => some ('\x08', rest)
  | 't' :: rest => some ('\t', rest)
  | 'n' :: rest => some ('\n', rest)
  | 'f' :: rest => some ('\x0c', rest)
  | 'r' :: rest => some ('\r', rest)
  | '"' :: rest => some ('"', rest)
  | '\\' :: rest => some ('\\', rest)
  | 'u' :: rest => hexScalar 4 rest
  | 'U' :: rest => hexScalar 8 rest
  | _ => none

/-- The rest of a string on one line, up to its double quote. -/
def basicString : Nat → List Char → List Char → Option (String × List Char)
  | 0, _, _ => none
  | fuel + 1, acc, cs =>
    match cs with
    | '"' :: rest => some (String.ofList acc.reverse, rest)
    | '\\' :: rest => do
      let (c, rest) ← escape rest
      basicString fuel (c :: acc) rest
    | c :: rest => if isPlain c then basicString fuel (c :: acc) rest else none
    | [] => none

/-- The rest of a literal string on one line, up to its single quote. -/
def literalString (cs : List Char) : Option (String × List Char) :=
  match cs.dropWhile fun c ↦ isPlain c && c != '\'' with
  | '\'' :: rest => some (String.ofList (cs.takeWhile (· != '\'')), rest)
  | _ => none

/-- The quotes at the end of a string of several lines: three close it, and one or two more before
them belong to it. Gives the number that belong to the string. -/
def closingQuotes (quote : Char) (cs : List Char) : Option (Nat × List Char) :=
  let run := (cs.takeWhile (· == quote)).length
  if run < 3 then none
  else
    let kept := min (run - 3) 2
    some (kept, cs.drop (kept + 3))

/-- The rest of a string of several lines, `quote` closing it; only one in double quotes has
escapes. -/
def multiline (quote : Char) : Nat → List Char → List Char → Option (String × List Char)
  | 0, _, _ => none
  | fuel + 1, acc, cs =>
    match closingQuotes quote cs with
    | some (kept, rest) =>
      some (String.ofList (acc.reverse ++ List.replicate kept quote), rest)
    | none =>
      match cs, skipBreak? cs with
      | _, some rest => multiline quote fuel ('\n' :: acc) rest
      | '\\' :: rest, none =>
        if quote == '"' then
          match skipBreak? (skipSpaces rest) with
          | some after => multiline quote fuel acc (skipBlankLines fuel after)
          | none => do
            let (c, rest) ← escape rest
            multiline quote fuel (c :: acc) rest
        else multiline quote fuel ('\\' :: acc) rest
      | c :: rest, none => if isPlain c then multiline quote fuel (c :: acc) rest else none
      | [], none => none
where
  /-- Drops spaces and breaks up to the next other character. -/
  skipBlankLines : Nat → List Char → List Char
    | 0, cs => cs
    | fuel + 1, cs =>
      match skipBreak? (skipSpaces cs) with
      | some rest => skipBlankLines fuel rest
      | none => skipSpaces cs

/-- A string of several lines may start with a break, which is not part of it. -/
def multilineString (quote : Char) (cs : List Char) : Option (String × List Char) :=
  multiline quote (cs.length + 1) [] ((skipBreak? cs).getD cs)

/-- A string of any of the four forms. -/
def string : List Char → Option (String × List Char)
  | '"' :: '"' :: '"' :: rest => multilineString '"' rest
  | '"' :: rest => basicString (rest.length + 1) [] rest
  | '\'' :: '\'' :: '\'' :: rest => multilineString '\'' rest
  | '\'' :: rest => literalString rest
  | _ => none

/-! ## Numbers and points in time -/

/-- Digits with single underscores between them, underscores removed. -/
def digitGroup (isDigit : Char → Bool) (cs : List Char) : Option (List Char) :=
  let groups := splitOn '_' cs
  if groups.all fun g ↦ !g.isEmpty && g.all isDigit then some groups.flatten else none
where
  splitOn (mark : Char) (cs : List Char) : List (List Char) :=
    cs.foldr (fun c groups ↦
      if c == mark then [] :: groups
      else match groups with
        | g :: rest => (c :: g) :: rest
        | [] => [[c]]) [[]]

/-- The largest whole number. -/
def largestInteger : Nat := 9223372036854775807

/-- A whole number of 64 bits. -/
def inRange (i : Int) : Option Value :=
  if -(largestInteger : Int) - 1 ≤ i && i ≤ largestInteger then some (.integer i) else none

/-- A whole number with a radix mark. -/
def radixNumber (radix : Nat) (cs : List Char) : Option Value := do
  let digits ← digitGroup (Text.digit? radix · |>.isSome) cs
  match Text.readNat radix largestInteger digits with
  | .ok n => inRange n
  | .error _ => none

/-- Whether a text is a decimal number without its sign: digits in groups, no leading zero. -/
def isDecimal (cs : List Char) : Bool :=
  match digitGroup Char.isDigit cs with
  | some ['0'] => true
  | some (c :: _) => c != '0'
  | _ => false

/-- Whether a text is the exponent of a float: a sign, perhaps, and digits in groups. -/
def isExponent : List Char → Bool
  | '+' :: rest | '-' :: rest => (digitGroup Char.isDigit rest).isSome
  | cs => (digitGroup Char.isDigit cs).isSome

/-- Whether a text is a float without its sign. -/
def isFloat (cs : List Char) : Bool :=
  if cs = "inf".toList || cs = "nan".toList then true
  else
    let mark (c : Char) : Bool := c == 'e' || c == 'E'
    let mantissa := cs.takeWhile (!mark ·)
    let exponent := cs.dropWhile (!mark ·)
    let whole := mantissa.takeWhile (· != '.')
    let fraction := mantissa.dropWhile (· != '.')
    isDecimal whole && (!exponent.isEmpty || !fraction.isEmpty) &&
      (exponent.isEmpty || isExponent (exponent.drop 1)) &&
      (fraction.isEmpty || (digitGroup Char.isDigit (fraction.drop 1)).isSome)

/-- Whether a float without its sign lies beyond the largest double. -/
def isTooLarge (cs : List Char) : Bool :=
  let mark (c : Char) : Bool := c == 'e' || c == 'E'
  let number (digits : List Char) : Nat :=
    (digits.filter Char.isDigit).foldl (fun n c ↦ n * 10 + (c.toNat - '0'.toNat)) 0
  let mantissa := (cs.takeWhile (!mark ·)).filter (· != '_')
  let exponent := (cs.dropWhile (!mark ·)).drop 1
  let places := ((mantissa.dropWhile (· != '.')).drop 1).length
  let sign : Int := if exponent.head? = some '-' then -1 else 1
  let power : Int := sign * (number exponent : Int) - places
  let digits := number mantissa
  let size := (toString digits).length + power
  if digits = 0 || size < 308 then false
  else if size > 310 then true
  else
    -- half a step beyond the largest double
    let bound := Nat.pow 2 1024 - Nat.pow 2 970
    if power ≥ 0 then bound ≤ digits * Nat.pow 10 power.toNat
    else bound * Nat.pow 10 (-power).toNat ≤ digits

/-- The number of a text that is all digits and has the given width. -/
def fixedNumber? (width : Nat) (cs : List Char) : Option Nat :=
  if cs.length = width && cs.all Char.isDigit then
    (Text.readNat 10 (Nat.pow 10 width) cs).toOption
  else none

/-- Whether a text is a date. Every month may have 31 days. -/
def isDate (cs : List Char) : Bool :=
  match fixedNumber? 4 (cs.take 4), cs.drop 4 with
  | some _, '-' :: rest =>
    match fixedNumber? 2 (rest.take 2), rest.drop 2 with
    | some month, '-' :: rest =>
      match fixedNumber? 2 rest with
      | some day => 1 ≤ month && month ≤ 12 && 1 ≤ day && day ≤ 31
      | none => false
    | _, _ => false
  | _, _ => false

/-- Whether a text is a time of day, perhaps with a fraction of a second. -/
def isTime (cs : List Char) : Bool :=
  let clock := cs.take 8
  let fraction := cs.drop 8
  (match fixedNumber? 2 (clock.take 2), fixedNumber? 2 ((clock.drop 3).take 2),
      fixedNumber? 2 (clock.drop 6) with
    | some h, some m, some s =>
      h ≤ 23 && m ≤ 59 && s ≤ 60 && clock[2]? == some ':' && clock[5]? == some ':'
    | _, _, _ => false) &&
  (match fraction with
    | [] => true
    | '.' :: digits => !digits.isEmpty && digits.all Char.isDigit
    | _ => false)

/-- Whether a text is the offset of a time zone. -/
def isOffset (cs : List Char) : Bool :=
  match cs with
  | ['Z'] | ['z'] => true
  | sign :: rest =>
    (sign == '+' || sign == '-') && rest[2]? == some ':' && rest.length == 5 &&
      (match fixedNumber? 2 (rest.take 2), fixedNumber? 2 (rest.drop 3) with
        | some h, some m => h ≤ 23 && m ≤ 59
        | _, _ => false)
  | [] => false

/-- Whether a text is a date, a time, or both with or without an offset. -/
def isMoment (cs : List Char) : Bool :=
  let date := cs.take 10
  match cs.drop 10 with
  | [] => isDate date || isTime cs
  | mark :: clock =>
    if isDate date && (mark == 'T' || mark == 't' || mark == ' ') then
      let zone (c : Char) : Bool := c == 'Z' || c == 'z' || c == '+' || c == '-'
      let offset := clock.dropWhile (!zone ·)
      isTime (clock.takeWhile (!zone ·)) && (offset.isEmpty || isOffset offset)
    else isTime cs

/-- The value of a bare text. -/
def bareValue (cs : List Char) : Option Value :=
  match cs with
  | '0' :: 'x' :: rest => radixNumber 16 rest
  | '0' :: 'o' :: rest => radixNumber 8 rest
  | '0' :: 'b' :: rest => radixNumber 2 rest
  | _ =>
    if cs = "true".toList then some (.boolean true)
    else if cs = "false".toList then some (.boolean false)
    else
      let unsigned := match cs with
        | '+' :: rest | '-' :: rest => rest
        | cs => cs
      if isDecimal unsigned then do
        let digits ← digitGroup Char.isDigit unsigned
        match Text.readNat 10 (largestInteger + 1) digits with
        | .ok n => inRange (if cs.head? = some '-' then -(n : Int) else n)
        | .error _ => none
      else if isFloat unsigned then
        if cs.head? != some '-' && isTooLarge unsigned then none else some .float
      else if isMoment cs then some .moment
      else none

/-- Whether a character may stand in a bare value. -/
def isBareValue (c : Char) : Bool :=
  c.isAlphanum || c == '+' || c == '-' || c == '_' || c == '.' || c == ':'

/-- A bare value. A date takes the time after a single space with it. -/
def bare (cs : List Char) : Option (Value × List Char) :=
  let first := cs.takeWhile isBareValue
  let rest := cs.dropWhile isBareValue
  match rest with
  | ' ' :: more =>
    let second := more.takeWhile isBareValue
    if isDate first && (second.head?.map Char.isDigit).getD false then
      (bareValue (first ++ ' ' :: second)).map fun v ↦ (v, more.dropWhile isBareValue)
    else (bareValue first).map fun v ↦ (v, rest)
  | _ => (bareValue first).map fun v ↦ (v, rest)

/-! ## Keys and values -/

/-- Whether a character may stand in a key without quotes. -/
def isBareKey (c : Char) : Bool := c.isAlphanum || c == '-' || c == '_'

/-- One part of a key. -/
def simpleKey (cs : List Char) : Option (String × List Char) :=
  match cs with
  | '"' :: '"' :: '"' :: _ | '\'' :: '\'' :: '\'' :: _ => none
  | '"' :: _ | '\'' :: _ => string cs
  | _ =>
    match cs.takeWhile isBareKey with
    | [] => none
    | name => some (String.ofList name, cs.dropWhile isBareKey)

/-- A key: parts with dots between them. -/
def dottedKey : Nat → List Char → Option (List String × List Char)
  | 0, _ => none
  | fuel + 1, cs => do
    let (part, rest) ← simpleKey (skipSpaces cs)
    match skipSpaces rest with
    | '.' :: rest =>
      let (parts, rest) ← dottedKey fuel rest
      return (part :: parts, rest)
    | rest => return ([part], rest)

/-- How many parts a key may have, and how deep values may nest. -/
def maxDepth : Nat := 127

/-- A key that is not too deep. -/
def key (cs : List Char) : Option (List String × List Char) :=
  (dottedKey cs.length cs).filter fun (parts, _) ↦ parts.length ≤ maxDepth

/-- The path and the last part of a key. -/
def splitKey (parts : List String) : List String × String :=
  (parts.dropLast, parts.getLastD "")

mutual

/-- Any value, with arrays and inline tables at most `levels` deep. -/
def value : Nat → Nat → List Char → Option (Value × List Char)
  | _, 0, _ => none
  | levels, fuel + 1, cs =>
    match cs, levels with
    | '"' :: _, _ | '\'' :: _, _ => (string cs).map fun (s, rest) ↦ (.string s, rest)
    | '[' :: _, 0 | '{' :: _, 0 => none
    | '[' :: rest, levels + 1 => items levels fuel [] rest
    | '{' :: rest, levels + 1 =>
      match skipSpaces rest with
      | '}' :: rest => some (.table [], rest)
      | rest => entries levels fuel [] rest
    | _, _ => bare cs

/-- The rest of an array, `found` holding its items so far, reversed. -/
def items : Nat → Nat → List Value → List Char → Option (Value × List Char)
  | _, 0, _, _ => none
  | levels, fuel + 1, found, cs =>
    match skipFiller cs.length cs with
    | ']' :: rest => some (.array found.reverse, rest)
    | rest => do
      let (v, rest) ← value levels fuel rest
      match skipFiller rest.length rest with
      | ',' :: rest => items levels fuel (v :: found) rest
      | ']' :: rest => some (.array (v :: found).reverse, rest)
      | _ => none

/-- The rest of an inline table, which has at least one entry more. -/
def entries : Nat → Nat → List (String × Value) → List Char → Option (Value × List Char)
  | _, 0, _, _ => none
  | levels, fuel + 1, found, cs => do
    let (parts, rest) ← key cs
    match rest with
    | '=' :: rest =>
      let (v, rest) ← value levels fuel (skipSpaces rest)
      let (path, name) := splitKey parts
      let found ← Value.extend path name v found
      match skipSpaces rest with
      | ',' :: rest => entries levels fuel found rest
      | '}' :: rest => some (.table found, rest)
      | _ => none
    | _ => none

end

/-! ## Lines -/

/-- A document being read: its tables, and the header that the next key belongs under. -/
structure Progress where
  root : Node.Entries := []
  header : List String := []

/-- Reads one line that is not empty: a header or a key with its value. -/
def line (p : Progress) (cs : List Char) : Option (Progress × List Char) :=
  match cs with
  | '[' :: '[' :: rest => do
    let (parts, rest) ← key rest
    match rest with
    | ']' :: ']' :: rest =>
      let (path, name) := splitKey parts
      let root ← Node.alter path (Node.openItem name) p.root
      return ({ root, header := parts }, ← endLine rest)
    | _ => none
  | '[' :: rest => do
    let (parts, rest) ← key rest
    match rest with
    | ']' :: rest =>
      let (path, name) := splitKey parts
      let root ← Node.alter path (Node.openTable name) p.root
      return ({ root, header := parts }, ← endLine rest)
    | _ => none
  | _ => do
    let (parts, rest) ← key cs
    match rest with
    | '=' :: rest =>
      let (v, rest) ← value maxDepth rest.length (skipSpaces rest)
      let (path, name) := splitKey parts
      let root ← Node.alter p.header (Node.assign path name v) p.root
      return ({ p with root }, ← endLine rest)
    | _ => none

/-- Reads line after line. -/
def lines : Nat → Progress → List Char → Option Progress
  | 0, p, cs => if cs.isEmpty then some p else none
  | fuel + 1, p, cs =>
    match skipSpaces cs with
    | [] => some p
    | '#' :: rest => do lines fuel p (← endLine ('#' :: rest))
    | rest =>
      match skipBreak? rest with
      | some rest => lines fuel p rest
      | none => do
        let (p, rest) ← line p rest
        lines fuel p rest

/-- The document of a text, a byte order mark at its start left out. -/
def document? (cs : List Char) : Option (List (String × Value)) :=
  let cs := match cs with
    | '\uFEFF' :: rest => rest
    | cs => cs
  (lines (cs.length + 1) {} cs).map fun p ↦ Node.toEntries p.root

end ShellEngine.Config
