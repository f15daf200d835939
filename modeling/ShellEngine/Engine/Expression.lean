import ShellEngine.Engine.Execute
import ShellEngine.Line.Substitution
import ShellEngine.Text.Blank

/-!
# Running lines and scripts

A line is expanded, planned and run. The commands embedded in it run first, each as a line of its
own whose output is captured; while they run, nothing can be sent to the background. A script is run
line by line.

Outputs may bring further commands into a line, and those again others, without an end. So a line is
expanded with a bound on replacements and nesting, and with ever higher ones until the bound does
not matter (`unbounded`).
-/

namespace ShellEngine

open Machine

/-- The plan with its output captured: what would go to the standard output goes to a buffer, and
stages that write to a buffer are waited for, as is the plan. -/
def Plan.captured (p : Plan) : Plan :=
  { p with
    waits := true
    stages := p.stages.map fun s ↦
      let s := if s.stdout = .inherit then { s with stdout := .buffer } else s
      if s.stdout = .buffer then { s with waits := true } else s }

namespace Action

def isCancelled : Action Bool := return (← get).cancellation.signaled

/-- Does something as a task that cannot be sent to the background. -/
def synchronously {α : Type} (act : Action α) : Action α := do
  let before := (← get).synchronous
  change fun s ↦ { s with synchronous := true }
  let a ← act
  change fun s ↦ { s with synchronous := before }
  return a

/-- Runs a plan and gives what its stages wrote to the standard output, as a part of a line. -/
def capturePlan (plan : Plan) : Action (List Char) := do
  let (buffer, _) ← execute plan.captured true
  match buffer with
  | some key => return Line.flatten ((← get).buffer key).text.toList
  | none => return []

/-- Runs a line and gives its output, once the commands embedded in it were run by `expand`. -/
def captureWith (expand : List Char → Action (List Char)) (line : List Char) :
    Action (Except EngineError (List Char)) :=
  synchronously do
    let line ← expand line
    match Line.parse (String.ofList line) with
    | .error e => return .error (.parse e)
    | .ok plan => return .ok (← capturePlan plan)

/-- Puts the outputs of embedded commands in their places, with a bound on how many are replaced and
how deep they are nested. -/
def expandNested : Nat → List Char → Action (List Char)
  | 0, _ => throw .unfinished
  | bound + 1, line => do
    let expansion ← Line.expandWith (captureWith (expandNested bound)) report isCancelled bound line
    if expansion.ended then return expansion.text else throw .unfinished

/-- Whether a bound was too low for something. -/
def isCutOff {α : Type} : Except Crash α → Bool
  | .error .unfinished => true
  | _ => false

/-- What something comes to under one of its bounds. A search without an end has a value only in the
logic, and being one of these it says that no bound is high enough. -/
def BoundedEnding {α : Type} (act : Nat → Action α) (s : Session) : Type :=
  { r : Except Crash α × Session // ∃ bound, (act bound).run.run s = r }

instance {α : Type} (act : Nat → Action α) (s : Session) : Nonempty (BoundedEnding act s) :=
  ⟨⟨(act 0).run.run s, 0, rfl⟩⟩

/-- Tries a bound, and gives the next one to try if it is too low. -/
def tryBound {α : Type} (act : Nat → Action α) (s : Session) (bound : Nat) :
    Nat ⊕ BoundedEnding act s :=
  let ending := (act bound).run.run s
  if isCutOff ending.1 then .inl (2 * bound + 1) else .inr ⟨ending, bound, rfl⟩

/-- Does something under ever higher bounds until one is high enough. -/
def unbounded {α : Type} (act : Nat → Action α) (start : Nat) : Action α :=
  ExceptT.mk fun s ↦ (repeatM (m := Id) (tryBound act s) start).val

/-- Puts the outputs of embedded commands in their places, however many there are. -/
def expandLine (line : List Char) : Action (List Char) :=
  unbounded (fun bound ↦ expandNested bound line) (line.length + 1)

/-- Puts the outputs of embedded commands in their places. -/
def expand (line : String) : Action String := return String.ofList (← expandLine line.toList)

/-- Runs a line and gives its output. -/
def capture (line : String) : Action (Except EngineError String) := do
  let output ← captureWith expandLine line.toList
  return output.map String.ofList

/-- Runs a line and gives the level it leaves. -/
def runLine (line : String) : Action Int := do
  match Line.parse (← expand line) with
  | .error e =>
    report (.parse e)
    setLevel exitFailure
    return exitFailure
  | .ok plan =>
    if !plan.stages.isEmpty then
      let _ ← execute plan false
    return (← get).level

/-- Runs a line that is cancelled some milliseconds after its start, unless it is done before. What
nobody waits for is killed by then if the line is cancelled, and goes on otherwise; since that is
known only at the end of the line, the line is run on the first assumption, and once more on the
second if the first was wrong. -/
def runLineWithin (milliseconds : Nat) (line : String) : Action Int := do
  let s ← get
  let time := s.now + milliseconds * 1000
  set { s with cancelAt := some time, backgroundLimit := some time }
  let level ← runLine line
  change fun s ↦ { s with cancelAt := none, backgroundLimit := none }
  if (← get).cancellation.signaled then return level
  set { s with cancelAt := some time }
  let level ← runLine line
  change fun s ↦ { s with cancelAt := none }
  return level

/-- The lines of a script that are run: neither empty nor comments, without the blanks around
them. -/
def scriptLines (text : String) : List String :=
  let lines := (Text.lines text.toList).map Text.trim
  (lines.filter fun l ↦ !l.isEmpty && l.head? != some '#').map String.ofList

/-- Runs lines until the session is to end or the line is cancelled. -/
def runLines : List String → Action Unit
  | [] => return
  | line :: rest => do
    let _ ← runLine line
    let s ← get
    if s.exitRequest.isSome || s.cancellation.signaled then return
    runLines rest

/-- The code that a session ends with. -/
def exitCode : Action Int := return (← get).exitRequest.getD (← get).level

/-- Runs a script and gives the code it ends with. -/
def runScript (path : String) : Action (Except EngineError Int) := do
  match (← get).host.readText path with
  | .error e => return .error (.script path e)
  | .ok text =>
    runLines (scriptLines text)
    return .ok (← exitCode)

end Action

end ShellEngine
