/-!
# UTF-8

Text as bytes. `encode` writes a text, `decode?` reads bytes that are valid throughout, and
`decodeLossy` reads any bytes, putting one replacement character in the place of each maximal
prefix of a character that cannot be completed. All three are built on `scalarAt`, which reads
the first character of a byte list or measures the prefix that spoils it.
-/

namespace ShellEngine

/-- A sequence of bytes, as read from a file, a pipe or a terminal. -/
abbrev Bytes := List UInt8

namespace Text

/-- The character that stands for undecodable bytes. -/
def replacement : Char := '\uFFFD'

/-- The bytes of a text. -/
def encode (cs : List Char) : Bytes :=
  (cs.foldl (fun acc c ↦ (String.utf8EncodeChar c).foldl (fun acc b ↦ b :: acc) acc) []).reverse

/-- The bytes of a string. -/
def bytes (s : String) : Bytes := s.toUTF8.toList

/-- The payload of a continuation byte. -/
def continuation? (b : UInt8) : Option Nat :=
  if 0x80 ≤ b && b ≤ 0xBF then some (b.toNat - 0x80) else none

/-- The first character of `b :: rest` with its width, or `none` with the length of the longest
prefix that some valid character starts with (at least one byte). -/
def scalarAt (b : UInt8) (rest : Bytes) : Option Char × Nat :=
  let n := b.toNat
  if n < 0x80 then (some (Char.ofNat n), 1)
  else if 0xC2 ≤ n && n ≤ 0xDF then
    match rest with
    | b1 :: _ =>
      match continuation? b1 with
      | some c1 => (some (Char.ofNat ((n - 0xC0) * 64 + c1)), 2)
      | none => (none, 1)
    | [] => (none, 1)
  else if 0xE0 ≤ n && n ≤ 0xEF then
    match rest with
    | b1 :: rest =>
      if secondOf3 n b1.toNat then
        match rest with
        | b2 :: _ =>
          match continuation? b2 with
          | some c2 => (some (Char.ofNat ((n - 0xE0) * 4096 + (b1.toNat - 0x80) * 64 + c2)), 3)
          | none => (none, 2)
        | [] => (none, 2)
      else (none, 1)
    | [] => (none, 1)
  else if 0xF0 ≤ n && n ≤ 0xF4 then
    match rest with
    | b1 :: rest =>
      if secondOf4 n b1.toNat then
        match rest with
        | b2 :: rest =>
          match continuation? b2, rest with
          | some c2, b3 :: _ =>
            match continuation? b3 with
            | some c3 =>
              (some (Char.ofNat
                ((n - 0xF0) * 262144 + (b1.toNat - 0x80) * 4096 + c2 * 64 + c3)), 4)
            | none => (none, 3)
          | some _, [] => (none, 3)
          | none, _ => (none, 2)
        | [] => (none, 2)
      else (none, 1)
    | [] => (none, 1)
  else (none, 1)
where
  /-- Which second bytes may follow the first byte of a three-byte character: neither an
  overlong form nor a surrogate. -/
  secondOf3 (n m : Nat) : Bool :=
    if n == 0xE0 then 0xA0 ≤ m && m ≤ 0xBF
    else if n == 0xED then 0x80 ≤ m && m ≤ 0x9F
    else 0x80 ≤ m && m ≤ 0xBF
  /-- Which second bytes may follow the first byte of a four-byte character: neither an overlong
  form nor a value above the last scalar. -/
  secondOf4 (n m : Nat) : Bool :=
    if n == 0xF0 then 0x90 ≤ m && m ≤ 0xBF
    else if n == 0xF4 then 0x80 ≤ m && m ≤ 0x8F
    else 0x80 ≤ m && m ≤ 0xBF

/-- Reads bytes that are valid UTF-8 throughout. -/
def decode? (bs : Bytes) : Option (List Char) :=
  go [] bs
where
  go (acc : List Char) : Bytes → Option (List Char)
    | [] => some acc.reverse
    | b :: rest =>
      match scalarAt b rest with
      | (some c, width) => go (c :: acc) (rest.drop (width - 1))
      | (none, _) => none
  termination_by bs => bs.length
  decreasing_by simp only [List.length_cons, List.length_drop]; omega

/-- Reads any bytes; an undecodable prefix becomes one replacement character. -/
def decodeLossy (bs : Bytes) : List Char :=
  go [] bs
where
  go (acc : List Char) : Bytes → List Char
    | [] => acc.reverse
    | b :: rest =>
      match scalarAt b rest with
      | (found, width) => go (found.getD replacement :: acc) (rest.drop (width - 1))
  termination_by bs => bs.length
  decreasing_by simp only [List.length_cons, List.length_drop]; omega

/-- Reads each byte as the character of that number (ISO 8859-1). -/
def decodeLatin1 (bs : Bytes) : List Char := bs.map fun b ↦ Char.ofNat b.toNat

/-- The number of bytes that a text takes. -/
def width (cs : List Char) : Nat := cs.foldl (fun n c ↦ n + c.utf8Size) 0

end Text

end ShellEngine
