/-!
# Exit statuses

A stage ends with a code. A process that ended by itself has the code it chose, one killed by a
signal has 128 plus the signal, and builtins and traced children report a code directly.
-/

namespace ShellEngine

def exitSuccess : Int := 0
def exitFailure : Int := 1

/-- The code of a process that a signal killed. -/
def signaledCode (signal : Int) : Int := 128 + signal

/-- How a process ended. -/
inductive ProcessEnd
  | exited (code : Nat)
  | signaled (signal : Nat)
  /-- It has not ended: the raw status tells of a stop. -/
  | stopped
  deriving DecidableEq, Repr

/-- Reads a raw wait status: the low seven bits hold the signal, or zero for an exit whose code is
in the next byte. -/
def ProcessEnd.ofRaw (raw : Int) : ProcessEnd :=
  let word := (raw % 4294967296).toNat
  let low := word % 128
  if low = 0 then .exited (word / 256 % 256)
  else if low = 127 then .stopped
  else .signaled low

/-- How a stage ended. -/
inductive StageStatus
  | process (how : ProcessEnd)
  | builtin (code : Int)
  | traced (code : Int)
  deriving DecidableEq, Repr

namespace StageStatus

def code : StageStatus → Int
  | .process (.exited code) => code
  | .process (.signaled signal) => signaledCode signal
  | .process .stopped => exitFailure
  | .builtin code => code
  | .traced code => code

def success (s : StageStatus) : Bool := s.code == exitSuccess

end StageStatus

end ShellEngine
