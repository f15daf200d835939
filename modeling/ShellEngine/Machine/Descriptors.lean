import ShellEngine.Error

/-!
# Descriptors

The numbers under which the engine knows open files. The three standard streams have the numbers
zero to two; every other number is given once and never again, so that a descriptor that was closed
can be told from one that was opened later.

The system may refuse a call. `refusals` says what becomes of the calls to come, one entry for each;
when it is used up, nothing is refused any more.
-/

namespace ShellEngine.Machine

/-- The descriptors of a process. -/
structure Descriptors where
  /-- The open file behind each number. -/
  table : List (Nat × Nat)
  /-- The number to give next. -/
  next : Nat := 3
  /-- The numbers that were closed, the latest first. -/
  closed : List Nat := []
  refusals : List (Option Errno) := []

namespace Descriptors

/-- The open file behind a number. -/
def file? (d : Descriptors) (fd : Nat) : Option Nat := d.table.lookup fd

/-- Gives a number to an open file. -/
def give (d : Descriptors) (file : Nat) : Nat × Descriptors :=
  (d.next, { d with table := (d.next, file) :: d.table, next := d.next + 1 })

/-- Closes a descriptor. -/
def close (d : Descriptors) (fd : Nat) : Descriptors :=
  { d with table := d.table.filter (·.1 != fd), closed := fd :: d.closed }

def closeAll (d : Descriptors) (fds : List Nat) : Descriptors := fds.foldl close d

/-- Makes `target` another descriptor of the open file behind `source`. -/
def replace (d : Descriptors) (source target : Nat) : Descriptors :=
  match d.file? source with
  | some file => { d with table := (target, file) :: d.table.filter (·.1 != target) }
  | none => d

/-- Takes a descriptor out of the table without closing it, for somebody else to keep. -/
def release (d : Descriptors) (fd : Nat) : Descriptors :=
  { d with table := d.table.filter (·.1 != fd) }

/-- Whether the next call is refused. -/
def call (d : Descriptors) : Option Errno × Descriptors :=
  match d.refusals with
  | [] => (none, d)
  | refusal :: rest => (refusal, { d with refusals := rest })

end Descriptors

end ShellEngine.Machine
