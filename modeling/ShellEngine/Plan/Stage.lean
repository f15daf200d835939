import ShellEngine.Text.Blank

/-!
# Stages and plans

A *stage* is one command with its arguments and the places its streams come from and go to. A
*plan* is a list of stages, each with the rule that links it to the next one. Both are plain
descriptions: what a running stage holds on to lives in `Engine`.
-/

namespace ShellEngine

/-- How the stage after this one is reached. -/
inductive Continuation
  | unconditional
  | concurrent
  | onSuccess
  | onFailure
  | never
  deriving DecidableEq, Repr

/-- Where a stage reads from. -/
inductive Input
  | inherit
  | file (path : String)
  | null
  /-- The output of the stage before. -/
  | pipe
  deriving DecidableEq, Repr

/-- Where a stage writes one of its two output streams. -/
inductive Output
  | inherit
  | overwrite (path : String)
  | append (path : String)
  | null
  /-- The input of the stage after; of use to standard output alone. -/
  | pipe
  /-- A buffer in memory. -/
  | buffer
  /-- The same place as the other output stream. -/
  | same
  deriving DecidableEq, Repr

/-- One command of a plan. -/
structure Stage where
  argv : List String
  /-- The stage as a command line, for handing it to another instance. -/
  text : String
  stdin : Input := .inherit
  stdout : Output := .inherit
  stderr : Output := .inherit
  next : Continuation := .unconditional
  /-- Whether the plan waits for the stage to end. -/
  waits : Bool := true
  /-- Whether the stage is asked to end before it is forced to. -/
  graceful : Bool := false
  deriving DecidableEq, Repr

/-- The command name; a stage without arguments has the empty one. -/
def Stage.program (s : Stage) : String := s.argv.headD ""

/-- The arguments after the command name. -/
def Stage.arguments (s : Stage) : List String := s.argv.drop 1

/-- A list of stages with the line it was read from. -/
structure Plan where
  text : String
  stages : List Stage
  /-- Whether the caller waits for the whole plan. -/
  waits : Bool
  deriving DecidableEq, Repr

namespace Plan

/-- A plan waits as its last stage does; an empty one does. -/
def ofStages (text : String) (stages : List Stage) : Plan :=
  { text, stages, waits := (stages.getLast?.map Stage.waits).getD true }

/-- The plan of one stage, under the text of that stage. -/
def single (stage : Stage) : Plan := ofStages stage.text [stage]

/-- The rules that link the stages. -/
def rules (p : Plan) : List Continuation := p.stages.map Stage.next

end Plan

/-! ## Quoting arguments -/

/-- Whether a character forces quotes around an argument. -/
def needsQuotes (c : Char) : Bool :=
  Text.isBlank c || "|&;<>'\"`$()\\".toList.contains c

/-- An argument as a word of a command line: as it is, or in single quotes with each single quote
written outside of them. -/
def quoteArgument (arg : String) : String :=
  let cs := arg.toList
  if !cs.isEmpty && !cs.any needsQuotes then arg
  else
    let body := cs.flatMap fun c ↦ if c == '\'' then ['\'', '\\', '\'', '\''] else [c]
    String.ofList ('\'' :: body ++ ['\''])

/-- A stage that runs the given arguments, its text made of the quoted arguments. -/
def Stage.ofArgv (argv : List String) : Stage :=
  { argv, text := " ".intercalate (argv.map quoteArgument) }

end ShellEngine
