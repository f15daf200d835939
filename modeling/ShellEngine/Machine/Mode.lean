import ShellEngine.Text.Octets

/-!
# Modes

The permissions of a file as a number in base eight, or as changes to those that are usual: for
whom, whether they are added, taken away or set, and which ones.
-/

namespace ShellEngine.Machine

/-- What a change does, and with which permissions. -/
inductive Permissions
  | bits (n : Nat)
  /-- Those that the user, the group or the others have. -/
  | copied (from_ : Char)
  deriving DecidableEq

/-- One change of a mode. -/
structure ModeChange where
  /-- The bits of those that it is about; none if it is not said. -/
  scope : Nat
  sign : Char
  permissions : Permissions

namespace ModeChange

/-- The bits of a user, a group, the others, or all of them. -/
def scopeOf (c : Char) : Nat :=
  match c with
  | 'u' => 0o4700
  | 'g' => 0o2070
  | 'o' => 0o1007
  | _ => 0o7777

/-- The bits that a letter stands for, of all whom it may be about. -/
def bitsOf? (c : Char) : Option Nat :=
  match c with
  | 'r' => some 0o444
  | 'w' => some 0o222
  | 'x' | 'X' => some 0o111
  | 's' => some 0o6000
  | 't' => some 0o1000
  | _ => none

def octal? (os : Octets) : Option Nat :=
  if os.isEmpty || !os.all fun c ↦ '0' ≤ c && c ≤ '7' then none
  else some (os.foldl (fun n c ↦ n * 8 + (c.toNat - '0'.toNat)) 0)

/-- Reads changes behind a scope, up to a comma or the end. -/
def readSigns (scope : Nat) : Nat → Octets → Option (List ModeChange × Octets)
  | 0, _ => none
  | fuel + 1, os =>
    match os with
    | sign :: rest =>
      if !"=+-".toList.contains sign then none
      else
        let (permissions, rest) : Permissions × Octets :=
          match rest with
          | c :: more =>
            if c == 'u' || c == 'g' || c == 'o' then (.copied c, more)
            else
              let letters := rest.takeWhile fun c ↦ (bitsOf? c).isSome
              (.bits (letters.foldl (fun n c ↦ n ||| (bitsOf? c).getD 0) 0),
                rest.drop letters.length)
          | [] => (.bits 0, [])
        let change : ModeChange := { scope, sign, permissions }
        match rest with
        | c :: _ =>
          if "=+-".toList.contains c then
            (readSigns scope fuel rest).map fun (more, rest) ↦ (change :: more, rest)
          else some ([change], rest)
        | [] => some ([change], [])
    | [] => none

/-- Reads changes with commas between them. -/
def readAll? : Nat → Octets → Option (List ModeChange)
  | 0, _ => none
  | fuel + 1, os => do
    let who := os.takeWhile fun c ↦ "ugoa".toList.contains c
    let scope := who.foldl (fun n c ↦ n ||| scopeOf c) 0
    let (changes, rest) ← readSigns scope (os.length + 1) (os.drop who.length)
    match rest with
    | [] => return changes
    | ',' :: more => return changes ++ (← readAll? fuel more)
    | _ => none

/-- What a change makes of the mode of a directory. -/
def apply (umask mode : Nat) (c : ModeChange) : Nat :=
  let value :=
    match c.permissions with
    | .bits n => n
    | .copied from_ =>
      let shift := if from_ == 'u' then 6 else if from_ == 'g' then 3 else 0
      (mode >>> shift &&& 7) * 0o111
  let scope := if c.scope = 0 then 0o7777 &&& (0o7777 ^^^ umask) else c.scope
  let value := value &&& scope
  match c.sign with
  | '+' => mode ||| value
  | '-' => mode &&& (0o7777 ^^^ value)
  | _ => (mode &&& (0o7777 ^^^ (if c.scope = 0 then 0o7777 else c.scope) ||| 0o6000)) ||| value

end ModeChange

/-- The mode of a directory that a text asks for. -/
def directoryMode? (umask : Nat) (os : Octets) : Option Nat :=
  if (os.head?.map Char.isDigit).getD false then
    (ModeChange.octal? os).filter (· ≤ 0o7777)
  else
    (ModeChange.readAll? (os.length + 1) os).map fun changes ↦
      changes.foldl (ModeChange.apply umask) 0o777

end ShellEngine.Machine
