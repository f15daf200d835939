import ShellEngine.Machine.World

/-!
# Names in messages

How tools write a name in a message. Where the name stands for itself (`name`), quotes are left out
unless a shell would read it as something else; where it stands in a sentence (`quoted`), there are
always quotes. An argument that is no name (`shown`) stands in quotes as well, with backslashes
before what would be misread.

Bytes that cannot be printed are given by number. Which bytes those are depends on the encoding of
the messages.
-/

namespace ShellEngine.Machine

namespace Quoting

/-- A byte that can be printed in any encoding. -/
def isPrintable (c : Char) : Bool := 32 ≤ c.toNat && c.toNat < 127

/-- The letter that stands for a control character behind a backslash. -/
def letterOf? (c : Char) : Option Char :=
  [('\x07', 'a'), ('\x08', 'b'), ('\x0c', 'f'), ('\n', 'n'), ('\r', 'r'), ('\t', 't'),
   ('\x0b', 'v')].lookup c

/-- A byte by its number. -/
def byNumber (c : Char) : Octets :=
  [64, 8, 1].map fun unit ↦ Char.ofNat (48 + c.toNat / unit % 8)

/-- What stands for a byte behind a backslash, if it has to stand there. -/
def escaped? (c : Char) : Option Octets :=
  match letterOf? c with
  | some letter => some [letter]
  | none => if isPrintable c then none else some (byNumber c)

/-- How many bytes at the start are one character beyond ASCII of the encoding. -/
def characterLength (unicode : Bool) (os : Octets) : Nat :=
  match os with
  | c :: _ =>
    let n := c.toNat
    let length := if n < 0xc2 then 0 else if n < 0xe0 then 2 else if n < 0xf0 then 3
      else if n < 0xf5 then 4 else 0
    if unicode && length != 0 && (Octets.toText? (os.take length)).isSome &&
      (os.take length).length = length then length else 0
  | [] => 0

/-- A piece of a name: bytes that are printed as they are, or a byte that is not. -/
inductive Piece
  | plain (os : Octets)
  | escaped (os : Octets)

/-- Cuts a name into pieces. -/
def pieces (unicode : Bool) : Nat → Octets → List Piece
  | 0, _ => []
  | fuel + 1, os =>
    match os with
    | [] => []
    | c :: rest =>
      let length := characterLength unicode os
      if length != 0 then .plain (os.take length) :: pieces unicode fuel (os.drop length)
      else
        match escaped? c with
        | some code => .escaped code :: pieces unicode fuel rest
        | none => .plain [c] :: pieces unicode fuel rest

def piecesOf (unicode : Bool) (os : Octets) : List Piece := pieces unicode (os.length + 1) os

/-- Whether a name has something in it that a shell would not read as itself. -/
def isSpecial (os : Octets) (ps : List Piece) : Bool :=
  os.isEmpty || os = ['\x7b'] || os = ['\x7d'] || os.head? = some '#' || os.head? = some '~' ||
    os.any (" !\"$&()*;<=>[^`|'\\?".toList.contains ·) ||
    ps.any fun
      | .plain _ => false
      | .escaped _ => true

/-- Whether double quotes would do for a name in which single quotes stand. -/
def fitsDoubleQuotes (os : Octets) (ps : List Piece) : Bool :=
  let harmless (c : Char) : Bool := !("!\"$&()*;<=>[^`|\\?#~\x7b\x7d".toList.contains c)
  (os.drop 1).all harmless &&
    (os.take 1).all (fun c ↦ harmless c || c == '#' || c == '~') &&
    ps.all fun
      | .plain _ => true
      | .escaped _ => false

/-- The pieces inside single quotes. The flag tells that the last one left them. -/
def inQuotes : Bool → List Piece → Octets
  | _, [] => []
  | _, .plain ['\''] :: rest => "'\\''".toList ++ inQuotes false rest
  | out, .plain os :: rest => (if out then ['\'', '\''] else []) ++ os ++ inQuotes false rest
  | out, .escaped code :: rest =>
    (if out then [] else "'$'".toList) ++ '\\' :: code ++ inQuotes true rest

/-- A name in the quotes of a shell. -/
def quoted (unicode : Bool) (os : Octets) : Octets :=
  let ps := piecesOf unicode os
  if os.contains '\'' && fitsDoubleQuotes os ps then '"' :: os ++ ['"']
  else '\'' :: inQuotes false ps ++ ['\'']

/-- A name, in the quotes of a shell if it needs them. -/
def name (unicode : Bool) (os : Octets) : Octets :=
  if isSpecial os (piecesOf unicode os) || os.contains ':' then quoted unicode os else os

/-- An argument in the quotes of a text. -/
def shown (unicode : Bool) (os : Octets) : Octets :=
  let (left, right) :=
    if unicode then (Octets.ofString "‘", Octets.ofString "’") else (['\''], ['\''])
  let inner := (piecesOf unicode os).flatMap fun
    | .plain ['\\'] => ['\\', '\\']
    | .plain os => if os = right then '\\' :: os else os
    | .escaped code => '\\' :: code
  left ++ inner ++ right

end Quoting

namespace Invocation

/-- Whether the encoding of messages is Unicode, by the variables that choose it. -/
def isUnicode (i : Invocation) : Bool :=
  let chosen := ["LC_ALL", "LC_CTYPE", "LANG"].filterMap fun name ↦
    (i.valueOf? name).filter fun value ↦ !value.isEmpty
  match chosen with
  | first :: _ => ["C.UTF-8", "C.utf8"].contains (String.ofList first)
  | [] => false

/-- A name in a message. -/
def nameOf (i : Invocation) (os : Octets) : Octets := Quoting.name i.isUnicode os

/-- A name in quotes. -/
def quoted (i : Invocation) (os : Octets) : Octets := Quoting.quoted i.isUnicode os

/-- An argument in quotes. -/
def shown (i : Invocation) (os : Octets) : Octets := Quoting.shown i.isUnicode os

end Invocation

end ShellEngine.Machine
