import ShellEngine.Config.Document

/-!
# Settings

What can be tuned about the engine, with defaults, and how a document sets it. A document names
only what it changes: a setting that it leaves out keeps its default, and a name that is no setting
is passed over. A value of the wrong kind or range makes the whole document invalid.

Times are in milliseconds.
-/

namespace ShellEngine

/-- How the keyboard is watched while a foreground stage runs. -/
structure MonitorSettings where
  /-- How often the detach chord must be seen again before it counts. -/
  detachStrikes : Nat := 3
  /-- How often a lost focus must be seen again before it counts. -/
  focusStrikes : Nat := 3
  pendingInputDelay : Nat := 100
  confirmDelay : Nat := 30
  /-- Whether keys typed while a stage ran go to the next prompt. -/
  keepTypeahead : Bool := false
  deriving DecidableEq, Repr

/-- How a cancelled plan ends. -/
structure CancelSettings where
  gracePeriod : Nat := 50
  deriving DecidableEq, Repr

/-- How the environment of a finished script is read. -/
structure HarvestSettings where
  /-- The size of the first read, before the offset into the page is taken off. -/
  probeWindow : Nat := 65536
  pageSize : Nat := 4096
  pollInterval : Nat := 5
  interpreter : String := "/bin/sh"
  batchExtensions : List String := ["sh"]
  deriving DecidableEq, Repr

/-- How targets that are no programs are started. -/
structure LaunchSettings where
  opener : String := "xdg-open"
  scriptExtension : String := "shx"
  deriving DecidableEq, Repr

/-- How a nested instance is started. -/
structure SubshellSettings where
  program : Option String := none
  switch : String := "--subshell"
  deriving DecidableEq, Repr

/-- Where the log goes. -/
structure LogSettings where
  directory : String := "."
  fileName : String := "shex.log"
  deriving DecidableEq, Repr

/-- All settings. -/
structure Settings where
  monitor : MonitorSettings := {}
  cancel : CancelSettings := {}
  harvest : HarvestSettings := {}
  launch : LaunchSettings := {}
  subshell : SubshellSettings := {}
  log : LogSettings := {}
  deriving DecidableEq, Repr

namespace Config

/-! ## Single values -/

/-- A whole number from `0` to `bound`. -/
def natOf? (bound : Nat) : Value → Option Nat
  | .integer i => if 0 ≤ i && i ≤ bound then some i.toNat else none
  | _ => none

/-- A count of 32 bits. -/
def countOf? : Value → Option Nat := natOf? 0xFFFFFFFF

/-- A size or a time of 64 bits. -/
def sizeOf? : Value → Option Nat := natOf? 0xFFFFFFFFFFFFFFFF

def flagOf? : Value → Option Bool
  | .boolean b => some b
  | _ => none

def textOf? : Value → Option String
  | .string s => some s
  | _ => none

def textsOf? : Value → Option (List String)
  | .array items => items.mapM textOf?
  | _ => none

/-! ## Groups of settings -/

/-- The named fields of a group. A group may also be written as an array, which gives its fields in
the order of `names`, or as a point in time, which gives none. -/
def fieldsOf? (names : List String) : Value → Option (List (String × Value))
  | .table entries => some entries
  | .array items => some (names.zip items)
  | .moment => some []
  | _ => none

/-- The field `name` read by `read?`, or `default` when it is left out. -/
def field {α : Type} (fields : List (String × Value)) (name : String) (read? : Value → Option α)
    (default : α) : Option α :=
  match fields.find? (·.1 == name) with
  | some (_, v) => read? v
  | none => some default

def monitorOf? (v : Value) : Option MonitorSettings := do
  let fs ← fieldsOf? ["detach_strikes", "focus_strikes", "pending_input_delay_ms",
    "confirm_delay_ms", "keep_typeahead"] v
  let d : MonitorSettings := {}
  return {
    detachStrikes := ← field fs "detach_strikes" countOf? d.detachStrikes
    focusStrikes := ← field fs "focus_strikes" countOf? d.focusStrikes
    pendingInputDelay := ← field fs "pending_input_delay_ms" sizeOf? d.pendingInputDelay
    confirmDelay := ← field fs "confirm_delay_ms" sizeOf? d.confirmDelay
    keepTypeahead := ← field fs "keep_typeahead" flagOf? d.keepTypeahead }

def cancelOf? (v : Value) : Option CancelSettings := do
  let fs ← fieldsOf? ["grace_period_ms"] v
  let d : CancelSettings := {}
  return { gracePeriod := ← field fs "grace_period_ms" sizeOf? d.gracePeriod }

def harvestOf? (v : Value) : Option HarvestSettings := do
  let fs ← fieldsOf? ["probe_window", "page_size", "poll_interval_ms", "interpreter",
    "batch_extensions"] v
  let d : HarvestSettings := {}
  return {
    probeWindow := ← field fs "probe_window" sizeOf? d.probeWindow
    pageSize := ← field fs "page_size" sizeOf? d.pageSize
    pollInterval := ← field fs "poll_interval_ms" sizeOf? d.pollInterval
    interpreter := ← field fs "interpreter" textOf? d.interpreter
    batchExtensions := ← field fs "batch_extensions" textsOf? d.batchExtensions }

def launchOf? (v : Value) : Option LaunchSettings := do
  let fs ← fieldsOf? ["opener", "script_extension"] v
  let d : LaunchSettings := {}
  return {
    opener := ← field fs "opener" textOf? d.opener
    scriptExtension := ← field fs "script_extension" textOf? d.scriptExtension }

def subshellOf? (v : Value) : Option SubshellSettings := do
  let fs ← fieldsOf? ["program", "switch"] v
  let d : SubshellSettings := {}
  return {
    program := ← field fs "program" (fun v ↦ (textOf? v).map some) d.program
    switch := ← field fs "switch" textOf? d.switch }

def logOf? (v : Value) : Option LogSettings := do
  let fs ← fieldsOf? ["directory", "file_name"] v
  let d : LogSettings := {}
  return {
    directory := ← field fs "directory" textOf? d.directory
    fileName := ← field fs "file_name" textOf? d.fileName }

/-- The settings of a document. -/
def settings? (document : List (String × Value)) : Option Settings := do
  return {
    monitor := ← field document "monitor" monitorOf? {}
    cancel := ← field document "cancel" cancelOf? {}
    harvest := ← field document "harvest" harvestOf? {}
    launch := ← field document "launch" launchOf? {}
    subshell := ← field document "subshell" subshellOf? {}
    log := ← field document "log" logOf? {} }

end Config

end ShellEngine
