import ShellEngine.Machine.FileTree

/-!
# Patterns

Patterns of texts and names: a star for any text, a question mark for any byte, brackets for a
choice of bytes. A backslash takes the meaning from what follows it.

Bytes are ordered as signed numbers in the ranges of a choice, so those beyond ASCII come first.
-/

namespace ShellEngine.Machine.Script

namespace Pattern

/-- The classes of bytes that have names in a choice. -/
def classes : List (String × (Char → Bool)) :=
  [(":alnum:]", Char.isAlphanum), (":cntrl:]", isControl), (":lower:]", Char.isLower),
   (":space:]", isSpace), (":alpha:]", Char.isAlpha), (":digit:]", Char.isDigit),
   (":print:]", fun c ↦ isGraphic c || c == ' '), (":upper:]", Char.isUpper),
   (":blank:]", fun c ↦ c == ' ' || c == '\t'), (":graph:]", isGraphic),
   (":punct:]", fun c ↦ isGraphic c && !c.isAlphanum),
   (":xdigit:]", fun c ↦ c.isDigit || ('a' ≤ c && c ≤ 'f') || ('A' ≤ c && c ≤ 'F'))]
where
  isControl (c : Char) : Bool := c.toNat < 32 || c.toNat = 127
  isSpace (c : Char) : Bool := c == ' ' || (9 ≤ c.toNat && c.toNat ≤ 13)
  isGraphic (c : Char) : Bool := 32 < c.toNat && c.toNat < 127

/-- A byte as a signed number. -/
def signed (c : Char) : Int := if c.toNat < 128 then c.toNat else (c.toNat : Int) - 256

/-- Whether a choice has a byte in it, and what follows the choice; none if it is not closed. The
first character of the choice may be a closing bracket. -/
def choice (byte : Char) : Nat → Bool → Octets → Option (Bool × Octets)
  | 0, _, _ => none
  | fuel + 1, found, p =>
    let goOn (found : Bool) (p : Octets) : Option (Bool × Octets) :=
      match p with
      | ']' :: rest => some (found, rest)
      | p => choice byte fuel found p
    let single (c : Char) (rest : Octets) : Option (Bool × Octets) :=
      match rest with
      | '-' :: d :: more =>
        if d == ']' then goOn (found || byte == c) rest
        else
          let (d, more) :=
            match d, more with
            | '\\', e :: more => (e, more)
            | d, more => (d, more)
          goOn (found || (signed c ≤ signed byte && signed byte ≤ signed d)) more
      | rest => goOn (found || byte == c) rest
    match p with
    | [] => none
    | '[' :: rest =>
      match classes.find? fun k ↦ k.1.toList.isPrefixOf rest with
      | some (name, test) => goOn (found || test byte) (rest.drop name.length)
      | none => single '[' rest
    | ['\\'] => none
    | '\\' :: c :: rest => single c rest
    | c :: rest => single c rest

/-- Whether a pattern matches a whole text. -/
def matchesText : Nat → Octets → Octets → Bool
  | 0, _, _ => false
  | fuel + 1, p, q =>
    let same (c : Char) (p : Octets) : Bool :=
      match q with
      | d :: q => c == d && matchesText fuel p q
      | [] => false
    match p with
    | [] => q.isEmpty
    | '\\' :: c :: p => same c p
    | '?' :: p =>
      match q with
      | _ :: q => matchesText fuel p q
      | [] => false
    | '*' :: p =>
      let p := p.dropWhile (· == '*')
      let rec anywhere : Octets → Bool
        | [] => matchesText fuel p []
        | c :: q => matchesText fuel p (c :: q) || anywhere q
      anywhere q
    | '[' :: rest =>
      match q with
      | [] => false
      | byte :: q =>
        let (inverted, body) :=
          match rest with
          | '!' :: body | '^' :: body => (true, body)
          | body => (false, body)
        match choice byte (body.length + 1) false body with
        | none => same '[' rest
        | some (found, p) => found != inverted && matchesText fuel p q
    | c :: p => same c p

/-- Whether a pattern matches a whole text, which ends at its first NUL. -/
def isMatch (p text : Octets) : Bool :=
  matchesText (p.length + 1) p (text.takeWhile (· != '\x00'))

/-- How long the shortest or longest part at the start of a text is that a pattern matches. -/
def startLength? (p : Octets) (longest : Bool) (text : Octets) : Option Nat :=
  let lengths := List.range (text.length + 1)
  (if longest then lengths.reverse else lengths).find? fun n ↦ isMatch p (text.take n)

/-- Where the shortest or longest part at the end of a text begins that a pattern matches. -/
def endStart? (p : Octets) (longest : Bool) (text : Octets) : Option Nat :=
  let starts := List.range (text.length + 1)
  (if longest then starts else starts.reverse).find? fun n ↦ isMatch p (text.drop n)

/-! ## Names of files -/

/-- A text without its escapes. -/
def unescaped : Octets → Octets
  | '\\' :: c :: rest => c :: unescaped rest
  | c :: rest => c :: unescaped rest
  | [] => []

/-- Whether a bracket is closed before the end of a name. -/
def isClosed (p : Octets) : Bool :=
  let rec go : Nat → Octets → Bool
    | 0, _ => false
    | fuel + 1, q =>
      let q := if q.head? = some '\\' then q.drop 1 else q
      match q with
      | [] | '/' :: _ => false
      | _ :: rest => if rest.head? = some ']' then true else go fuel rest
  go (p.length + 1) (if p.head? = some '!' then p.drop 1 else p)

/-- Cuts a path at the first name in it that is a pattern: what comes before the name, the name, and
what comes behind the slash after it, if there is one. -/
structure Cut where
  before : Octets
  name : Octets
  rest : Option Octets

/-- Finds the first name that is a pattern; `before` and `name` are passed in reverse. -/
def cut? (isPattern : Bool) (before name : Octets) : Octets → Option Cut
  | [] => if isPattern then some ⟨before.reverse, name.reverse, none⟩ else none
  | '\\' :: '/' :: rest | '/' :: rest =>
    if isPattern then some ⟨before.reverse, name.reverse, some rest⟩
    else cut? false ('/' :: (name ++ before)) [] rest
  | '\\' :: c :: rest => cut? isPattern before (c :: '\\' :: name) rest
  | c :: rest =>
    let meaning := c == '*' || c == '?' || (c == '[' && isClosed rest)
    cut? (isPattern || meaning) before (c :: name) rest

/-- The names in a directory, those that stand for itself and for its parent among them. -/
def namesIn (t : FileTree) (cwd : Nat) (path : Octets) : List Octets :=
  match t.resolve cwd (if path.isEmpty then ['.'] else path) with
  | .ok n =>
    match t.content n with
    | .directory entries .. => ['.'] :: ['.', '.'] :: entries.map (·.1)
    | _ => []
  | .error _ => []

/-- The paths that a pattern matches, each behind the path `dir`. -/
def expand (t : FileTree) (cwd : Nat) : Nat → Octets → Octets → List Octets
  | 0, _, _ => []
  | fuel + 1, dir, p =>
    match cut? false [] [] p with
    | none =>
      let path := dir ++ unescaped p
      if !dir.isEmpty && ((t.place cwd path false).toOption.bind Place.node).isSome then [path]
      else []
    | some c =>
      let base := dir ++ unescaped c.before
      let first := if c.name.head? = some '\\' then c.name.drop 1 else c.name
      let showsHidden := first.head? = some '.'
      let wanted := (namesIn t cwd base).filter fun name ↦
        (showsHidden || name.head? != some '.') && isMatch c.name name
      match c.rest with
      | none => wanted.map (base ++ ·)
      | some rest => wanted.flatMap fun name ↦ expand t cwd fuel (base ++ name ++ ['/']) rest

/-- The paths that a pattern matches, in order. -/
def paths (t : FileTree) (cwd : Nat) (p : Octets) : List Octets :=
  (expand t cwd (p.length + 1) [] p).mergeSort fun a b ↦ !decide (b < a)

end Pattern

end ShellEngine.Machine.Script
