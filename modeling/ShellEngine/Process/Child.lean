import ShellEngine.Error

/-!
# Traced children

A child whose end is reported by the thread that traces it. The thread publishes the exit code once
the child is gone; if the thread ends without having done so, the child is gone but nobody knows
how.
-/

namespace ShellEngine

/-- A child and what its tracer published about it. -/
structure TracedChild where
  pid : Int
  code : Option Int := none
  /-- Whether the tracer may still publish. -/
  publisher : Bool := true
  deriving DecidableEq, Repr

namespace TracedChild

/-- The tracer publishes a code; false if there is no tracer any more. -/
def publish (c : TracedChild) (code : Int) : Bool × TracedChild :=
  if c.publisher then (true, { c with code := some code }) else (false, c)

/-- The tracer ends; false if it had ended before. -/
def dropPublisher (c : TracedChild) : Bool × TracedChild :=
  (c.publisher, { c with publisher := false })

/-- The exit code, if it is known. -/
def status? (c : TracedChild) : Option Int := c.code

/-- Whether a code may still come. -/
def isRunning (c : TracedChild) : Bool := c.code.isNone && c.publisher

/-- Waits for the end of the child; `none` while that is still to come. -/
def wait (c : TracedChild) : Option (Except IoError Int) :=
  match c.code with
  | some code => some (.ok code)
  | none => if c.publisher then none else some (.error .childLost)

end TracedChild

end ShellEngine
