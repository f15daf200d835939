import ShellEngine.Text.Utf8

/-!
# Octets

Programs on the machine pass bytes around, and most of what they do with them is written in terms of
characters: a slash ends a name, a line feed ends a line. `Octets` holds each byte as the character
of its number, so that patterns over character literals apply and no byte is lost, whether the bytes
are UTF-8 or not. At the edge to the engine, whose texts are Unicode, `ofString` and `toText`
convert.
-/

namespace ShellEngine

/-- Bytes, each held as the character of its number. -/
abbrev Octets := List Char

namespace Octets

def ofBytes (bs : Bytes) : Octets := Text.decodeLatin1 bs

def toBytes (os : Octets) : Bytes := os.map fun c ↦ UInt8.ofNat c.toNat

def ofString (s : String) : Octets := ofBytes (Text.bytes s)

/-- The text that the bytes encode; what is no UTF-8 is replaced. -/
def toText (os : Octets) : String := String.ofList (Text.decodeLossy (toBytes os))

/-- The text that the bytes encode, if they do. -/
def toText? (os : Octets) : Option String := (Text.decode? (toBytes os)).map String.ofList

/-- A byte in the range of ASCII or not, as a decimal number. -/
def ofNat (n : Nat) : Octets := Nat.toDigits 10 n

def ofInt (i : Int) : Octets := if i < 0 then '-' :: ofNat i.natAbs else ofNat i.toNat

/-- Cuts at every character `sep`. -/
def splitOn (sep : Char) (os : Octets) : List Octets :=
  go [] [] os
where
  go (found : List Octets) (part : Octets) : Octets → List Octets
    | [] => (part.reverse :: found).reverse
    | c :: rest => if c = sep then go (part.reverse :: found) [] rest else go found (c :: part) rest

/-- Cuts behind the first line feed. -/
def splitLine (os : Octets) : Octets × Octets :=
  go [] os
where
  go (line : Octets) : Octets → Octets × Octets
    | [] => (line.reverse, [])
    | '\n' :: rest => (('\n' :: line).reverse, rest)
    | c :: rest => go (c :: line) rest

/-- The lines with their line feeds; the last one may lack it. -/
def lines (os : Octets) : List Octets :=
  go [] [] os
where
  go (found : List Octets) (line : Octets) : Octets → List Octets
    | [] => (if line.isEmpty then found else line.reverse :: found).reverse
    | '\n' :: rest => go (('\n' :: line).reverse :: found) [] rest
    | c :: rest => go found (c :: line) rest

end Octets

end ShellEngine
