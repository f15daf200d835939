/-!
# Tools

The programs that the machine provides, by name. What each of them does is told in `Machine.Tools`
and `Machine.Script`.
-/

namespace ShellEngine.Machine

/-- A program of the machine. -/
inductive Tool
  | alwaysTrue
  | alwaysFalse
  | cat
  | echo
  | env
  | head
  | link
  | makeDirectory
  | printf
  | removeDirectory
  | script
  | sequence
  | sleep
  | sort
  | tail
  | test
  | testBracket
  | touch
  | exchange
  | wordCount
  | yes
  /-- A new instance of the engine. -/
  | engine
  deriving DecidableEq, Repr, Inhabited

namespace Tool

/-- The tools in the system's directory, under their file names. -/
def installed : List (String × Tool) :=
  [("[", testBracket), ("cat", cat), ("dash", script), ("echo", echo), ("env", env),
   ("false", alwaysFalse), ("head", head), ("ln", link), ("mkdir", makeDirectory),
   ("printf", printf), ("rmdir", removeDirectory), ("seq", sequence), ("sh", script),
   ("sleep", sleep), ("sort", sort), ("tail", tail), ("test", test), ("touch", touch),
   ("tr", exchange), ("true", alwaysTrue), ("wc", wordCount), ("yes", yes)]

end Tool

end ShellEngine.Machine
