import ShellEngine.Error
import ShellEngine.Text.Dict

/-!
# The variables of a process

The environment that a process passes on, in the order in which its variables were first set. A
name must not be empty nor hold `=` or NUL, and a value must not hold NUL: setting or removing
against this rule is a crash.

A process sets each name once, but it may have been started with a name that is there more than
once. Then the first variable of the name is the one that is looked up and set, removing takes all
of them away, and the last one shows when all variables are captured by name.
-/

namespace ShellEngine

/-- The environment of a process. -/
structure Variables where
  entries : List (String × String) := []
  deriving DecidableEq, Repr

namespace Variables

/-- Whether a variable may have this name. -/
def validName (name : String) : Bool :=
  !name.isEmpty && !name.toList.contains '=' && !name.toList.contains '\x00'

/-- Whether a variable may have this value. -/
def validValue (value : String) : Bool := !value.toList.contains '\x00'

def get? (v : Variables) (name : String) : Option String := v.entries.lookup name

/-- Sets a variable: in its old place if it was set before, else behind all others. -/
def put (v : Variables) (name value : String) : Variables := ⟨place v.entries⟩
where
  place : List (String × String) → List (String × String)
    | [] => [(name, value)]
    | e :: rest => if e.1 == name then (name, value) :: rest else e :: place rest

/-- Removes a variable. -/
def drop (v : Variables) (name : String) : Variables := ⟨v.entries.filter (·.1 != name)⟩

/-- Sets a variable, or crashes on a name or a value that none may have. -/
def set (v : Variables) (name value : String) : Except Crash Variables :=
  if !validName name then .error (.variableName name)
  else if !validValue value then .error (.variableValue name value)
  else .ok (v.put name value)

/-- Removes a variable, or crashes on a name that none may have. -/
def remove (v : Variables) (name : String) : Except Crash Variables :=
  if !validName name then .error (.variableName name) else .ok (v.drop name)

/-- All variables by name. -/
def capture (v : Variables) : Dict := Dict.ofList v.entries

/-- Makes one change after the other until one crashes; the changes before it stay. -/
def change (v : Variables) : List (Variables → Except Crash Variables) → Option Crash × Variables
  | [] => (none, v)
  | f :: rest =>
    match f v with
    | .ok v => v.change rest
    | .error e => (some e, v)

/-- Removes a variable that `block` lacks. -/
def removal (block : Dict) (e : String × String) (v : Variables) : Except Crash Variables :=
  if block.contains e.1 then .ok v else v.remove e.1

/-- Sets a variable that differs; what no process can hold is passed over. -/
def setting (e : String × String) (v : Variables) : Except Crash Variables :=
  if e.1.isEmpty || e.1.toList.contains '\x00' || !validValue e.2 then .ok v
  else if v.get? e.1 = some e.2 then .ok v
  else v.set e.1 e.2

/-- Makes `block` the environment: removes what it lacks, then sets what differs, name by name. A
crash on the way leaves the rest undone. -/
def apply (v : Variables) (block : Dict) : Option Crash × Variables :=
  v.change (v.entries.map (removal block) ++ block.entries.map setting)

end Variables

end ShellEngine
