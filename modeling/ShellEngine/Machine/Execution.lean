import ShellEngine.Machine.Script.Program
import ShellEngine.Machine.Tools.Counts
import ShellEngine.Machine.Tools.Environment
import ShellEngine.Machine.Tools.Names
import ShellEngine.Machine.Tools.Order
import ShellEngine.Machine.Tools.Pause
import ShellEngine.Machine.Tools.Print
import ShellEngine.Machine.Tools.Sequence
import ShellEngine.Machine.Tools.Streams
import ShellEngine.Machine.Tools.Trial

/-!
# Running the programs of the machine

Every program takes some time to come up, and ends with a code. Programs that run others do so one
level deeper; how deep that may go is bounded.

A new instance of the engine takes no turns. It is run at once when all of its input is there, and
ends for the others when its own clock says so.
-/

namespace ShellEngine.Machine

/-- How a new instance of the engine runs: its code, and the world behind it. -/
abbrev Nested := Invocation → World → Nat × World

namespace Execution

/-- How long it takes to start a program, in microseconds. -/
def loadTime : Nat := 1000

/-- What a tool does that runs no others. -/
def toolWork (tool : Tool) (i : Invocation) : Doing Nat :=
  match tool with
  | .alwaysTrue => return 0
  | .alwaysFalse => return 1
  | .cat => Tools.cat i
  | .echo => Tools.echo i
  | .head => Tools.head i
  | .link => Tools.link i
  | .makeDirectory => Tools.makeDirectory i
  | .printf => Tools.printf i
  | .removeDirectory => Tools.removeDirectory i
  | .sequence => Tools.sequence i
  | .sleep => Tools.sleep i
  | .sort => Tools.sort i
  | .tail => Tools.tail i
  | .test => Tools.test false i
  | .testBracket => Tools.test true i
  | .touch => Tools.touch i
  | .exchange => Tools.exchange i
  | .wordCount => Tools.wordCount i
  | .yes => Tools.yes i
  | .engine | .script | .env => return 0

/-- More than any channel is ever given. -/
def plenty : Nat := 1000000000000

/-- Waits until all that a task will ever read from its standard input is there. -/
def gatherInput : Doing Unit := do
  match ← Doing.look fun w ↦ (w.current.streams.lookup 0).bind w.channelOf? with
  | none => return
  | some c =>
    let isBounded ← Doing.look fun w ↦ (w.channel c).capacity.isSome
    if isBounded then
      Doing.alter fun w ↦ w.modifyChannel c fun ch ↦ { ch with capacity := some plenty }
      Doing.await (fun w ↦ !w.isHeld c OpenFile.writes) none

/-- Runs a new instance of the engine. -/
def engineWork (nested : Nested) (i : Invocation) : Doing Nat := do
  gatherInput
  let (code, finish) ← Doing.change fun w ↦
    let (code, after) := nested i w
    ((code, after.clock), { after with clock := w.clock, self := w.self })
  Doing.await (fun _ ↦ false) (some finish)
  return code

/-- The programs of the machine, with a number of levels of programs below them. -/
def programs (nested : Nested) : Nat → Programs
  | 0 => fun _ _ ↦ return .signaled World.killSignal
  | depth + 1 => fun tool i ↦ do
    Doing.spend loadTime
    let ended (work : Doing Nat) : Doing ProcessEnd := do return .exited ((← work) % 256)
    match tool with
    | .script => Script.program (programs nested depth) i
    | .env => ended (Tools.environment (programs nested depth) i)
    | .engine => ended (engineWork nested i)
    | tool => ended (toolWork tool i)

/-- How deep programs may run each other. -/
def maxDepth : Nat := 100000

/-- Runs a program of the machine. -/
def execute (nested : Nested) : Programs := programs nested maxDepth

end Execution

end ShellEngine.Machine
