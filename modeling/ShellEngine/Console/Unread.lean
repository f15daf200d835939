/-!
# Unread input

Counts the looks in a row that found the same number of bytes queued. Any change means that
somebody reads or types; a number that stays for every strike means that nobody reads.
-/

namespace ShellEngine

/-- Consecutive looks at a queue of input. -/
structure UnreadInput where
  /-- How many looks must agree with the one before. -/
  strikes : Nat
  last : Nat := 0
  passes : Nat := 0
  deriving DecidableEq, Repr

namespace UnreadInput

/-- Records a look that found `pending` bytes, and tells whether they have stayed for every strike.
After that the count starts over. -/
def observe (u : UnreadInput) (pending : Nat) : Bool × UnreadInput :=
  if pending = 0 || pending ≠ u.last then (false, { u with last := pending, passes := 0 })
  else if u.passes + 1 < u.strikes then (false, { u with passes := u.passes + 1 })
  else (true, { u with last := 0, passes := 0 })

/-- Records some looks, in order. -/
def observeAll (u : UnreadInput) : List Nat → List Bool
  | [] => []
  | n :: rest =>
    let (ready, u) := u.observe n
    ready :: observeAll u rest

end UnreadInput

end ShellEngine
