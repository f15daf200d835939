import ShellEngine.Config.Settings
import ShellEngine.Machine.Host
import ShellEngine.Process.Probe

/-!
# Parameters of a process

What a process leaves behind for the engine: its environment and its directory. Each of the two is
read on its own, and what cannot be read is absent.

A process finds its environment at the top of its stack. The entries end where the path of its
program begins, and that ends with the last page but for a few bytes. Nothing can be read beyond.
-/

namespace ShellEngine

open Machine

/-- What a process leaves behind. -/
structure Parameters where
  environment : Option Dict := none
  directory : Option Octets := none

namespace Parameters

def isEmpty (p : Parameters) : Bool := p.environment.isNone && p.directory.isNone

/-- Makes parameters those of the engine. A directory that cannot be entered is passed over. A crash
among the variables leaves those before it set, and the directory as it was. -/
def apply (p : Parameters) (h : Host) : Option Crash × Host :=
  let (crash, environment) :=
    match p.environment with
    | some block => h.environment.apply block
    | none => (none, h.environment)
  let h := { h with environment }
  match crash, p.directory with
  | none, some path => (none, (h.enterDirectory path).toOption.getD h)
  | _, _ => (crash, h)

/-- The first address beyond the stack. -/
def stackEnd : Nat := 0x7ffffffff000

/-- The bytes that follow the path of the program. -/
def stackPadding : Nat := 8

/-- The environment as it lies in memory: each entry is followed by a NUL. -/
def environmentArea (block : List Octets) : Bytes :=
  Octets.toBytes (block.flatMap fun e ↦ e ++ ['\x00'])

/-- What lies on the stack from the environment on. -/
def stackFrom (block : List Octets) (program : Octets) : Bytes :=
  environmentArea block ++ Octets.toBytes (program ++ ['\x00']) ++ List.replicate stackPadding 0

/-- Reads the environment of a process from its stack. -/
def readEnvironment (settings : HarvestSettings) (block : List Octets) (program : Octets) :
    Except HarvestError Dict :=
  let stack := stackFrom block program
  let start := stackEnd - stack.length
  let stop := start + (environmentArea block).length
  if stop ≤ start then .error (.parameters "environment bounds withheld")
  else
    let memory (address size : Nat) : Probe.MemoryRead :=
      if address = start && start + size ≤ stackEnd then .read (stack.take size) else .fault
    Probe.readEnvironment memory start stop settings.probeWindow settings.pageSize

/-- The directory that a link names. -/
def linkedDirectory (link : Octets) : Octets :=
  match Octets.toText? link with
  | some text => Octets.ofString (Probe.linkedDirectory text)
  | none => link

/-- Reads what a process leaves behind. -/
def read (settings : HarvestSettings) (block : List Octets) (program link : Octets) :
    Except Crash Parameters :=
  if settings.pageSize = 0 && !block.isEmpty then .error .emptyPage
  else
    .ok { environment := (readEnvironment settings block program).toOption
          directory := some (linkedDirectory link) }

end Parameters

end ShellEngine
