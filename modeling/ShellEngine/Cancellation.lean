/-!
# Cancellation

A signal that stays up until it is taken down, so that it can be looked at between stages as well
as waited for. Beside it stands the routing of the interrupt key: only while routing is on may the
key raise the signal; the rest of the time it belongs to the prompt.
-/

namespace ShellEngine

/-- The cancellation signal and the routing of the interrupt key. -/
structure Cancellation where
  signaled : Bool := false
  routed : Bool := false
  deriving DecidableEq, Repr

namespace Cancellation

def set (c : Cancellation) : Cancellation := { c with signaled := true }

def reset (c : Cancellation) : Cancellation := { c with signaled := false }

/-- Routes the key, or leaves it to the prompt; gives the routing from before. -/
def route (c : Cancellation) (routed : Bool) : Bool × Cancellation :=
  (c.routed, { c with routed })

def restore (c : Cancellation) (routed : Bool) : Cancellation := { c with routed }

end Cancellation

end ShellEngine
