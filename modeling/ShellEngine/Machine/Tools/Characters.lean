import ShellEngine.Machine.Tools.Streams

/-!
# Characters for others

The tool that replaces the characters of one set by those of another, drops those of a set, or keeps
one of each row of equal ones. A set is written as characters, ranges, named classes, equivalents
and repetitions; `SetPart` is one of these.
-/

namespace ShellEngine.Machine.Tools

/-! ## Escapes -/

/-- The character that a letter behind a backslash denotes. -/
def namedEscape? (c : Char) : Option Char :=
  [('a', '\x07'), ('b', '\x08'), ('f', '\x0c'), ('n', '\n'), ('r', '\r'), ('t', '\t'),
   ('v', '\x0b')].lookup c

/-- The octal digits at the start, at most `count`. -/
def octalDigits (count : Nat) (cs : Octets) : Octets :=
  (cs.take count).takeWhile fun c ↦ '0' ≤ c && c ≤ '7'

/-- The number that octal digits denote. -/
def octalValue (digits : Octets) : Nat := digits.foldl (fun n c ↦ n * 8 + (c.toNat - '0'.toNat)) 0

/-- The byte that octal digits denote. -/
def octalByte (digits : Octets) : Char := Char.ofNat (octalValue digits % 256)

/-- All bytes that satisfy `p`, in order. -/
def bytesWhere (p : Char → Bool) : Octets := ((List.range 256).map Char.ofNat).filter p

/-! ## Sets -/

/-- A part of a set as it is written. -/
inductive SetPart
  | character (c : Char)
  | range (a b : Char)
  | class_ (name : Octets)
  | equivalent (c : Char)
  /-- Without a count, as many as are needed. -/
  | repeated (c : Char) (count : Option Nat)
  deriving DecidableEq

/-- What is wrong with a set. -/
inductive SetError
  | backwards (a b : Char)
  | noClassName
  | noEquivalent
  | unknownClass (name : Octets)
  | longEquivalent (text : Octets)
  | badCount (text : Octets)

/-- The named classes of characters. -/
def classTests : List (String × (Char → Bool)) :=
  let isGraph (c : Char) : Bool := '!' ≤ c && c ≤ '~'
  [("alpha", Char.isAlpha), ("digit", Char.isDigit), ("alnum", Char.isAlphanum),
   ("upper", Char.isUpper), ("lower", Char.isLower), ("space", isSpace),
   ("blank", fun c ↦ c == ' ' || c == '\t'),
   ("punct", fun c ↦ isGraph c && !c.isAlphanum),
   ("cntrl", fun c ↦ c.toNat < 32 || c.toNat = 127),
   ("print", fun c ↦ c == ' ' || isGraph c), ("graph", isGraph),
   ("xdigit", fun c ↦ c.isDigit || ('a' ≤ c && c ≤ 'f') || ('A' ≤ c && c ≤ 'F'))]

/-- Resolves the escapes of a set, and says what is doubtful about them. The flag tells of the
characters that were escaped. -/
def unquoteSet (unicode : Bool) : Nat → Octets → List (Char × Bool) × List Octets
  | 0, _ => ([], [])
  | fuel + 1, os =>
    match os with
    | [] => ([], [])
    | ['\\'] =>
      ([('\\', false)],
        ["warning: an unescaped backslash at end of string is not portable".toList])
    | '\\' :: c :: rest =>
      let three := octalDigits 3 (c :: rest)
      let digits := if 255 < octalValue three then three.take 2 else three
      let doubts : List Octets :=
        if digits.length < three.length then
          let last := three.drop 2
          ["warning: the ambiguous octal escape ".toList ++ '\\' :: three ++
            " is being\n\tinterpreted as the 2-byte sequence ".toList ++ '\\' :: '0' :: digits ++
            ", ".toList ++ last]
        else []
      let (char, rest) :=
        if digits.isEmpty then ((namedEscape? c).getD c, rest)
        else (octalByte digits, (c :: rest).drop digits.length)
      let (more, others) := unquoteSet unicode fuel rest
      ((char, true) :: more, doubts ++ others)
    | c :: rest =>
      let (more, doubts) := unquoteSet unicode fuel rest
      ((c, false) :: more, doubts)

/-- A character as it is shown in a message. -/
def shownCharacter (c : Char) : Octets :=
  if Quoting.isPrintable c then [c] else '\\' :: Quoting.byNumber c

/-- A text as it is shown in a message. -/
def shownText (os : Octets) : Octets :=
  os.flatMap fun c ↦
    match Quoting.letterOf? c with
    | some letter => ['\\', letter]
    | none => shownCharacter c

/-- The text up to a mark and a closing bracket, and what follows them. -/
def upToMark? (mark : Char) : List (Char × Bool) → Option (Octets × List (Char × Bool))
  | (c, e) :: (d, f) :: rest =>
    if c = mark && d = ']' && !e && !f then some ([], rest)
    else (upToMark? mark ((d, f) :: rest)).map fun (text, after) ↦ (c :: text, after)
  | _ => none

/-- Whether a text begins like a repetition behind its character: a star, digits and a bracket. -/
def isCountedStar (cs : List (Char × Bool)) : Bool :=
  match cs with
  | ('*', false) :: rest =>
    match rest.dropWhile fun c ↦ c.1.isDigit && !c.2 with
    | (']', false) :: _ => true
    | _ => false
  | _ => false

/-- The repetition behind an opening bracket, and what follows it. -/
def repetition? (cs : List (Char × Bool)) :
    Except SetError (Option (SetPart × List (Char × Bool))) :=
  match cs with
  | (c, _) :: ('*', false) :: rest =>
    let inner := rest.takeWhile fun d ↦ d.1 != ']' && !d.2
    match rest.drop inner.length with
    | (']', false) :: after =>
      let text := inner.map (·.1)
      if text.isEmpty then .ok (some (.repeated c none, after))
      else
        let body := text.dropWhile isSpace
        let body := if body.head? = some '+' then body.drop 1 else body
        let octal := body.head? = some '0'
        let fits := !body.isEmpty && body.all fun d ↦ d.isDigit && (!octal || d ≤ '7')
        let n := if octal then octalValue body else (readDecimal? body).getD 0
        if !fits || Size.largest ≤ n then .error (.badCount text)
        else .ok (some (.repeated c (if n = 0 then none else some n), after))
    | _ => .ok none
  | _ => .ok none

/-- Reads the parts of a set. -/
def setParts : Nat → List (Char × Bool) → Except SetError (List SetPart)
  | 0, _ => .ok []
  | fuel + 1, cs =>
    let plain (c : Char) (rest : List (Char × Bool)) : Except SetError (List SetPart) :=
      (setParts fuel rest).map (.character c :: ·)
    let ranged (cs : List (Char × Bool)) : Except SetError (List SetPart) :=
      match cs with
      | (a, _) :: ('-', false) :: (b, _) :: rest =>
        if b < a then .error (.backwards a b) else (setParts fuel rest).map (.range a b :: ·)
      | (c, _) :: rest => plain c rest
      | [] => .ok []
    let repeated (cs : List (Char × Bool)) : Except SetError (List SetPart) := do
      match ← repetition? (cs.drop 1) with
      | some (part, rest) => return part :: (← setParts fuel rest)
      | none => ranged cs
    match cs with
    | (a, _) :: [] => plain a []
    | (a, _) :: (b, e) :: [] => plain a [(b, e)]
    | ('[', false) :: (mark, false) :: rest =>
      if mark = ':' || mark = '=' then
        match upToMark? mark rest with
        | none => repeated cs
        | some (text, after) =>
          if text.isEmpty then
            .error (if mark = ':' then .noClassName else .noEquivalent)
          else if mark = ':' then
            if (classTests.lookup (String.ofList text)).isSome then
              (setParts fuel after).map (.class_ text :: ·)
            else if isCountedStar rest then repeated cs
            else .error (.unknownClass text)
          else
            match text with
            | [c] => (setParts fuel after).map (.equivalent c :: ·)
            | _ => if isCountedStar rest then repeated cs else .error (.longEquivalent text)
      else repeated cs
    | ('[', false) :: _ => repeated cs
    | cs => ranged cs

namespace SetPart

def isClass : SetPart → Bool
  | .class_ _ => true
  | _ => false

/-- Whether a part is a class of letters of one case. -/
def isCase : SetPart → Bool
  | .class_ name => name = "upper".toList || name = "lower".toList
  | _ => false

/-- The characters of a part; a repetition without a count has `fill` of them. -/
def characters (fill : Nat) : SetPart → Octets
  | .character c | .equivalent c => [c]
  | .range a b => bytesWhere fun c ↦ a ≤ c && c ≤ b
  | .class_ name =>
    ((classTests.lookup (String.ofList name)).map bytesWhere).getD []
  | .repeated c count => List.replicate (count.getD fill) c

/-- The part of which a set that is too short takes more; none for a class. -/
def last? : SetPart → Option Char
  | .character c | .equivalent c | .repeated c _ => some c
  | .range _ b => some b
  | .class_ _ => none

end SetPart

/-- The characters of a set. -/
def charactersOf (fill : Nat) (parts : List SetPart) : Octets :=
  parts.flatMap (SetPart.characters fill)

/-- How many repetitions of a set have no count. -/
def openRepetitions (parts : List SetPart) : Nat :=
  parts.countP fun
    | .repeated _ none => true
    | _ => false

/-! ## Mappings -/

/-- Pairs of characters, with the classes of letters of one case taken as single items. -/
inductive SetItem
  | one (c : Char)
  | upper
  | lower
  deriving DecidableEq

/-- The items of a set. -/
def itemsOf (fill : Nat) (parts : List SetPart) : List SetItem :=
  parts.flatMap fun
    | .class_ name =>
      if name = "upper".toList then [.upper]
      else if name = "lower".toList then [.lower]
      else (SetPart.characters fill (.class_ name)).map .one
    | part => (part.characters fill).map .one

/-- The characters of an item. -/
def SetItem.characters : SetItem → Octets
  | .one c => [c]
  | .upper => bytesWhere Char.isUpper
  | .lower => bytesWhere Char.isLower

/-- Whether classes of one case in the second set stand opposite to such classes. -/
def casesMatch : List SetItem → List SetItem → Bool
  | .one _ :: xs, .one _ :: ys => casesMatch xs ys
  | .one _ :: _, _ :: _ => false
  -- a class that faces a character stands for its characters
  | x :: xs, .one _ :: ys =>
    let more := x.characters.length - 1
    (ys.take more).all (fun
      | .one _ => true
      | _ => false) && casesMatch xs (ys.drop more)
  | _ :: xs, _ :: ys => casesMatch xs ys
  | [], ys => ys.all fun
    | .one _ => true
    | _ => false
  | _, [] => true
  termination_by xs => xs.length

/-- The pairs of a mapping; of two pairs for one character, the later counts. -/
def pairs : List SetItem → List SetItem → List (Char × Char)
  | .lower :: xs, .upper :: ys =>
    (bytesWhere Char.isLower).map (fun c ↦ (c, c.toUpper)) ++ pairs xs ys
  | .upper :: xs, .lower :: ys =>
    (bytesWhere Char.isUpper).map (fun c ↦ (c, c.toLower)) ++ pairs xs ys
  | .one a :: xs, .one b :: ys => (a, b) :: pairs xs ys
  | .one _ :: _, _ :: _ => []
  | x :: xs, .one b :: ys =>
    let cs := x.characters
    let bs := b :: (ys.take (cs.length - 1)).flatMap SetItem.characters
    cs.zip bs ++ pairs xs (ys.drop (cs.length - 1))
  | _ :: xs, _ :: ys => pairs xs ys
  | _, _ => []

/-- Keeps one of each row of an equal character of a set. -/
def squeeze (set : Char → Bool) (last : Option Char) : Octets → Octets
  | [] => []
  | c :: rest =>
    if some c = last && set c then squeeze set last rest else c :: squeeze set (some c) rest

/-! ## The tool -/

/-- What a run of the tool does to a block, given the last character that was written. -/
structure Exchange where
  drops : Char → Bool := fun _ ↦ false
  /-- What the characters are replaced by, in their order; those beyond the end stay. -/
  image : Array Char := #[]
  squeezes : Option (Char → Bool) := none

def Exchange.apply (x : Exchange) (last : Option Char) (block : Octets) : Octets :=
  let kept := (block.filter fun c ↦ !x.drops c).map fun c ↦ x.image.getD c.toNat c
  match x.squeezes with
  | some set => squeeze set last kept
  | none => kept

def exchangeOptions : List OptionSpec :=
  [.flag "complement" "cC", .flag "delete" "d", .flag "squeeze-repeats" "s",
   .flag "truncate-set1" "t"]

/-- The wording of what is wrong with a set. -/
def SetError.message (i : Invocation) : SetError → Octets
  | .backwards a b =>
    "range-endpoints of '".toList ++ shownCharacter a ++ '-' :: shownCharacter b ++
      "' are in reverse collating sequence order".toList
  | .noClassName => "missing character class name '[::]'".toList
  | .noEquivalent => "missing equivalence class character '[==]'".toList
  | .unknownClass name => "invalid character class ".toList ++ i.shown (shownText name)
  | .longEquivalent text =>
    shownText text ++ ": equivalence class operand must be a single character".toList
  | .badCount text =>
    "invalid repeat count ".toList ++ i.shown (shownText text) ++ " in [c*n] construct".toList

/-- Why two sets make no exchange. -/
def mismatch? (complement truncates : Bool) (first second : List SetPart) : Option String :=
  let firstCharacters := charactersOf 0 first
  let size := if complement then (bytesWhere fun c ↦ !firstCharacters.contains c).length
    else firstCharacters.length
  let fill := size - (charactersOf 0 second).length
  let items := itemsOf fill second
  let firstItems := if complement then [] else itemsOf 0 first
  let paired := firstItems.any (fun x ↦ !(match x with | .one _ => true | _ => false))
  let sizes (xs : List SetItem) : Nat :=
    (xs.map fun x ↦ if paired then 1 else x.characters.length).foldl (· + ·) 0
  let isShort :=
    if complement then decide ((charactersOf fill second).length < size)
    else if second.any SetPart.isClass && paired then decide (sizes items < sizes firstItems)
    else decide ((charactersOf fill second).length < size)
  let uniform :=
    match charactersOf fill second with
    | c :: rest => rest.all (· == c)
    | [] => true
  if second.any fun | .equivalent _ => true | _ => false then
    some "[=c=] expressions may not appear in string2 when translating"
  else if second.any fun p ↦ p.isClass && !p.isCase then
    some ("when translating, the only character classes that may appear in\n" ++
      "string2 are 'upper' and 'lower'")
  else if !complement && second.any SetPart.isClass && !casesMatch firstItems items then
    some "misaligned [:upper:] and/or [:lower:] construct"
  else if isShort && !truncates && second.isEmpty then
    some "when not truncating set1, string2 must be non-empty"
  else if isShort && !truncates && ((second.getLast?.bind SetPart.last?).isNone) then
    some ("when translating with string1 longer than string2,\n" ++
      "the latter string must not end with a character class")
  else if complement && first.any SetPart.isClass &&
      !(((charactersOf fill second).length = size || (isShort && !truncates)) && uniform) then
    some ("when translating with complemented character classes,\n" ++
      "string2 must map all characters in the domain to one")
  else none

/-- What all characters are replaced by where one set is mapped to another. -/
def imageOf (complement truncates : Bool) (first second : List SetPart) : Array Char :=
  let firstCharacters := charactersOf 0 first
  let others := bytesWhere fun c ↦ !firstCharacters.contains c
  let size := if complement then others.length else firstCharacters.length
  let fill := size - (charactersOf 0 second).length
  let firstItems := if complement then others.map .one else itemsOf 0 first
  let items := itemsOf fill second
  let padding :=
    match second.getLast?.bind SetPart.last? with
    | some c => if truncates then [] else List.replicate 256 (SetItem.one c)
    | none => []
  let table := (pairs firstItems (items ++ padding)).reverse
  ((List.range 256).map fun n ↦ (table.lookup (Char.ofNat n)).getD (Char.ofNat n)).toArray

/-- Passes the standard input through an exchange. -/
def runExchange (i : Invocation) (x : Exchange) : Nat → Option Char → Doing Nat
  | 0, _ => return 0
  | fuel + 1, last => do
    match ← Doing.read 0 Doing.blockSize with
    | .error e =>
      i.failWith "read error".toList e
      return 1
    | .ok [] => return 0
    | .ok block =>
      let shown := x.apply last block
      Doing.out shown
      if (← Doing.task).unwritten.isSome then return 1
      let last := match shown.getLast? with
        | some c => some c
        | none => last
      runExchange i x fuel last

def exchange (i : Invocation) : Doing Nat :=
  let a := i.arguments exchangeOptions true
  i.closing 1 <| i.withArguments a 1 do
    let complement := a.has "complement"
    let deletes := a.has "delete"
    let squeezes := a.has "squeeze-repeats"
    let truncates := a.has "truncate-set1"
    let least := if deletes == squeezes then 2 else 1
    let most := if deletes && !squeezes then 1 else 2
    let operands := a.operands
    if operands.isEmpty then return ← i.misuse "missing operand".toList 1
    if operands.length < least then
      i.complain ("missing operand after ".toList ++ i.shown (operands.getLastD []))
      let advice :=
        if squeezes then
          "Two strings must be given when both deleting and squeezing repeats.\n"
        else "Two strings must be given when translating.\n"
      Doing.put 2 advice.toList
      return ← i.seeHelp 1
    if most < operands.length then
      i.complain ("extra operand ".toList ++ i.shown (operands.getD most []))
      if operands.length = 2 then
        Doing.put 2
          "Only one string may be given when deleting without squeezing repeats.\n".toList
      return ← i.seeHelp 1
    let rec readSets : List Octets → Doing (Option (List (List SetPart)))
      | [] => return some []
      | os :: rest => do
        let (cs, doubts) := unquoteSet i.isUnicode (os.length + 1) os
        doubts.forM i.complain
        match setParts (cs.length + 1) cs with
        | .error e =>
          i.complain (e.message i)
          return none
        | .ok parts => return (← readSets rest).map (parts :: ·)
    match ← readSets operands with
    | none => return 1
    | some sets =>
      let first := sets.headD []
      let second? := sets[1]?
      let fail (message : String) : Doing Nat := do
        i.complain message.toList
        return 1
      if 0 < openRepetitions first then
        return ← fail "the [c*] repeat construct may not appear in string1"
      let firstCharacters := charactersOf 0 first
      let isFirst (c : Char) : Bool := firstCharacters.contains c != complement
      let inFirst := ((List.range 256).map fun n ↦ isFirst (Char.ofNat n)).toArray
      let isFirst (c : Char) : Bool := inFirst.getD c.toNat false
      match second? with
      | none =>
        if deletes then runExchange i { drops := isFirst } Doing.maxSteps none
        else runExchange i { squeezes := some isFirst } Doing.maxSteps none
      | some second =>
        if 1 < openRepetitions second then
          return ← fail "only one [c*] repeat construct may appear in string2"
        if deletes then
          if 0 < openRepetitions second then
            return ← fail "the [c*] construct may appear in string2 only when translating"
          let set := charactersOf 0 second
          runExchange i { drops := isFirst, squeezes := some set.contains } Doing.maxSteps none
        else
          if let some message := mismatch? complement truncates first second then
            return ← fail message
          let size := if complement then (bytesWhere isFirst).length else firstCharacters.length
          let set := charactersOf (size - (charactersOf 0 second).length) second
          runExchange i
            { image := imageOf complement truncates first second
              squeezes := if squeezes then some set.contains else none } Doing.maxSteps none

end ShellEngine.Machine.Tools
