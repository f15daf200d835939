import ShellEngine.Error
import ShellEngine.Text.Dict
import ShellEngine.Text.Utf8

/-!
# Environment blocks

The form in which an environment lies in the memory of a process: entries `NAME=value`, each closed
by a NUL, and one more NUL after the last. What follows the first pair of NULs is ignored. A block
that is no UTF-8 is read byte by byte as ISO 8859-1, so that it is never lost as a whole.
-/

namespace ShellEngine.Environment

/-- The text before the first two NULs in a row. -/
def beforeDoubleNul (acc : List Char) : List Char → Option (List Char)
  | '\x00' :: '\x00' :: _ => some acc.reverse
  | c :: rest => beforeDoubleNul (c :: acc) rest
  | [] => none

/-- Cuts a text at every NUL. -/
def entriesOf (cs : List Char) : List (List Char) :=
  go [] [] cs
where
  go (found : List (List Char)) (current : List Char) : List Char → List (List Char)
    | [] => (current.reverse :: found).reverse
    | '\x00' :: rest => go (current.reverse :: found) [] rest
    | c :: rest => go found (c :: current) rest

/-- Cuts a text at its first equals sign. -/
def splitEquals (cs : List Char) : Option (List Char × List Char) :=
  match cs.dropWhile (· != '=') with
  | _ :: value => some (cs.takeWhile (· != '='), value)
  | [] => none

/-- The variable that an entry defines. An equals sign at the start belongs to the name. -/
def define (entry : List Char) : Option (String × String) :=
  match splitEquals entry with
  | some ([], rest) =>
    (splitEquals rest).map fun (name, value) ↦ (String.ofList ('=' :: name), String.ofList value)
  | some (name, value) => some (String.ofList name, String.ofList value)
  | none => none

/-- Reads the text of a block. -/
def parse (block : List Char) : Except HarvestError Dict :=
  if block.length ≤ 2 then .error .empty
  else
    match beforeDoubleNul [] block with
    | none => .error .unterminated
    | some text =>
      let vars := Dict.ofList ((entriesOf text).filterMap define)
      if vars.entries.isEmpty then .error .empty else .ok vars

/-- The text of a block's bytes. -/
def blockText (bs : Bytes) : List Char := (Text.decode? bs).getD (Text.decodeLatin1 bs)

/-- Reads the bytes of a block. -/
def decode (bs : Bytes) : Except HarvestError Dict := parse (blockText bs)

end ShellEngine.Environment
