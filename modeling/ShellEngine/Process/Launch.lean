import ShellEngine.Config.Settings
import ShellEngine.Plan.Stage

/-!
# How a target is started

A url goes to the opener. A path is judged by the extension of its last component: a script of the
engine is run by a new instance, a script of the POSIX interpreter through that, and anything else
directly.
-/

namespace ShellEngine

/-- The ways to start a target. -/
inductive LaunchStrategy
  | opener
  | shellScript
  | batch
  | direct
  deriving DecidableEq, Repr

namespace Launch

def isAsciiAlpha (c : Char) : Bool := c.isAlpha

def isSchemeCharacter (c : Char) : Bool := c.isAlphanum || c == '+' || c == '-' || c == '.'

/-- Cuts a text at the first `://`. -/
def splitScheme (acc : List Char) : List Char → Option (List Char × List Char)
  | ':' :: '/' :: '/' :: rest => some (acc.reverse, rest)
  | c :: rest => splitScheme (c :: acc) rest
  | [] => none

/-- Whether a target is a url: `mailto:` and anything, or a scheme, `://` and something. -/
def isUrl (target : String) : Bool :=
  let cs := target.toList
  if (cs.take 7).map Char.toLower = "mailto:".toList then true
  else
    match splitScheme [] cs with
    | some (scheme, rest) =>
      !rest.isEmpty && (scheme.head?.map isAsciiAlpha).getD false &&
        scheme.all isSchemeCharacter
    | none => false

/-- The components of a path that name something: neither empty nor a lone dot. -/
def components (path : List Char) : List (List Char) :=
  (path.splitOn '/').filter fun part ↦ !part.isEmpty && part != ['.']

/-- The extension of a path: what follows the last dot of its last component, unless that dot comes
first. The component `..` has none. -/
def extension? (path : String) : Option String :=
  match (components path.toList).getLast? with
  | none => none
  | some name =>
    if name = ['.', '.'] then none
    else
      let after := (name.reverse.takeWhile (· != '.')).reverse
      let before := name.take (name.length - after.length - 1)
      if after.length = name.length || before.isEmpty then none else some (String.ofList after)

/-- How a target is started under the given settings. The extension is compared in lower case. -/
def classify (target : String) (settings : Settings) : LaunchStrategy :=
  if isUrl target then .opener
  else
    match (extension? target).map fun e ↦ String.ofList (e.toList.map Char.toLower) with
    | some e =>
      if e = settings.launch.scriptExtension then .shellScript
      else if settings.harvest.batchExtensions.contains e then .batch
      else .direct
    | none => .direct

/-- The command that runs a script of the POSIX interpreter. It sources the script and then replaces
the interpreter by a fresh one that only exits, so that what the script exported is the environment
block of the process right before its end. -/
def batchCommand (interpreter script : String) (args : List String) : String × List String :=
  let wrapper := ". \"$0\"; status=$?; exec " ++ quoteArgument interpreter ++
    " -c 'exit \"$1\"' sh \"$status\""
  (interpreter, ["-c", wrapper, script] ++ args)

end Launch

end ShellEngine
