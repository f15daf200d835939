import ShellEngine.Config.Reader
import ShellEngine.Config.Settings
import ShellEngine.Machine.Host

/-!
# Loading settings

The settings of a session come from the file that a variable names; without the variable all of them
are the defaults.
-/

namespace ShellEngine.Settings

open Machine

/-- The variable that names the file. -/
def fileVariable : String := "SHEX_CONFIG"

/-- The settings in a file. -/
def ofFile (h : Host) (path : String) : Except SettingsError Settings :=
  match h.readText path with
  | .error e => .error (.unreadable path e)
  | .ok text =>
    match (Config.document? text.toList).bind Config.settings? with
    | some settings => .ok settings
    | none => .error (.invalid path)

/-- The settings in the file that the environment names, or the defaults. -/
def load (h : Host) : Except SettingsError Settings :=
  match h.environment.get? fileVariable with
  | some path => ofFile h path
  | none => .ok {}

end ShellEngine.Settings
