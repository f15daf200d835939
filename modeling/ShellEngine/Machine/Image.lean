import ShellEngine.Machine.World
import ShellEngine.Process.Status

/-!
# Program images

What is run when a file is executed: a program of the machine, or for a text file that begins with
`#!` the interpreter it names, with the file as an argument. A text file without that line cannot be
executed itself; whoever tries may hand it to the script interpreter.
-/

namespace ShellEngine.Machine

/-- A program that can be run, with the arguments that come before those of the caller. -/
structure Image where
  tool : Tool
  front : List Octets := []
  /-- The name under which the program runs, if not that of the caller. -/
  name : Option Octets := none

namespace Image

/-- The most interpreters that may run each other. -/
def maxInterpreters : Nat := 5

/-- How many bytes of a file are looked at to see how to run it. -/
def headSize : Nat := 256

def isSpace (c : Char) : Bool := c == ' ' || c == '\t'

/-- What comes before the first NUL. -/
def untilNul (os : Octets) : Octets := os.takeWhile (· != '\x00')

/-- The interpreter and its argument in the first line of a script. A line that does not end in the
head of the file may lack a part of the argument, but none of the interpreter. The head of a short
file is filled up with NULs. -/
def interpreterLine? (contents : Octets) : Option (Octets × List Octets) :=
  match contents.take headSize with
  | '#' :: '!' :: rest =>
    let isEnd (c : Char) : Bool := isSpace c || c == '\x00'
    let padded := rest ++ List.replicate (headSize - 2 - rest.length) '\x00'
    let line :=
      if padded.contains '\n' then
        let line := padded.takeWhile (· != '\n')
        (line.reverse.dropWhile isSpace).reverse
      else padded.dropLast ++ ['\x00']
    let whole := padded.contains '\n' || (padded.dropWhile isSpace).any isEnd
    let line := line.dropWhile isSpace
    let path := line.takeWhile fun c ↦ !isEnd c
    if path.isEmpty || !whole then none
    else
      match line.drop path.length with
      | c :: argument =>
        if isSpace c then some (path, [untilNul (argument.dropWhile isSpace)]) else some (path, [])
      | [] => some (path, [])
  | _ => none

/-- What a program is given: its arguments, the name of the program among them, and its
environment. -/
structure Luggage where
  args : List Octets
  env : List Octets

/-- The most bytes of one argument or one entry of an environment. -/
def maxEntry : Nat := 131071

/-- The most bytes of all that a program is given, together with the places that point to it. -/
def maxLuggage : Nat := 2097152

/-- How many bytes point to an entry. -/
def pointerSize : Nat := 8

/-- Whether a program at a path can be given so much. Each entry ends with a NUL. -/
def Luggage.fits (l : Luggage) (path : Octets) : Bool :=
  let entries := l.args ++ l.env
  let total := entries.foldl (fun sum e ↦ sum + e.length + 1 + pointerSize) (path.length + 1)
  entries.all (fun e ↦ e.length ≤ maxEntry) && total ≤ maxLuggage

/-- What is run when the file at a path is executed with some luggage. That is looked at when it is
clear that the file can be executed, and before it is looked into. -/
def find (t : FileTree) (cwd : Nat) (l : Luggage) : Nat → Octets → Except Errno Image
  | 0, _ => .error .tooManyLinks
  | depth + 1, path => do
    let n ← t.resolve cwd path
    match t.content n with
    | .program tool => if l.fits path then return { tool } else throw .tooManyArguments
    | .file contents =>
      if !t.isExecutable n then throw .accessDenied
      if !l.fits path then throw .tooManyArguments
      match interpreterLine? contents with
      | none => throw .execFormat
      | some (interpreter, argument) =>
        let image ← find t cwd l depth interpreter
        return { image with
          front := image.front ++ argument ++ [path], name := some (image.name.getD interpreter) }
    | _ => throw .accessDenied

/-- What is run when the file at a path is executed. -/
def ofPath (t : FileTree) (cwd : Nat) (l : Luggage) (path : Octets) : Except Errno Image :=
  find t cwd l (maxInterpreters + 1) path

/-- The path of a name in a directory. -/
def join (dir name : Octets) : Octets :=
  if dir.isEmpty then name
  else if dir.getLast? = some '/' then dir ++ name
  else dir ++ '/' :: name

/-- The paths at which a program of this name may be. -/
def candidates (searchPath : Octets) (name : Octets) : List Octets :=
  (Octets.splitOn ':' searchPath).map fun dir ↦ join dir name

/-- The first program of this name on a search path. Where there is none, the error of the most
telling candidate. -/
def search (t : FileTree) (cwd : Nat) (l : Luggage) (searchPath : Octets) (name : Octets) :
    Except Errno (Octets × Image) :=
  (candidates searchPath name).foldr (fun path rest ↦
    match ofPath t cwd l path with
    | .ok image => .ok (path, image)
    | .error .accessDenied =>
      match rest with
      | .ok found => .ok found
      | .error _ => .error .accessDenied
    | .error e =>
      if e = .execFormat || e = .tooManyArguments then .error e else rest) (.error .noEntry)

end Image

end ShellEngine.Machine
