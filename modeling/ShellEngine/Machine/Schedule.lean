import ShellEngine.Machine.Course

/-!
# Turns

The tasks of a run take turns in the order of their times: whoever comes first acts until it waits
for something, and the clock is set to its time before. A task that waits for the world gets its
turn at the moment at which the world is ready.

A run is over when no task has a turn any more, or when the next turn would come at its limit or
later. Nothing that would happen then happens.
-/

namespace ShellEngine.Machine

/-- A task with what it goes on to do, from a time on. -/
structure Turn where
  pid : Nat
  time : Nat
  course : Course

/-- Some tasks in a world of which nobody else takes turns. -/
structure Run where
  world : World
  turns : List Turn
  /-- When the tasks that ended did so, the latest first. -/
  ends : List (Nat × Nat) := []

namespace Run

/-- How long a task takes to start a child, and how long the child takes to come up. -/
def forkTime : Nat := 100
def riseTime : Nat := 150

/-- When a turn comes, as far as that is settled. -/
def timeOf? (w : World) (t : Turn) : Option Nat :=
  match t.course with
  | .await ready deadline _ => if ready w then some (max t.time w.clock) else deadline
  | _ => some t.time

/-- The first of some turns, with its time. -/
def first? (w : World) : List Turn → Option (Nat × Turn)
  | [] => none
  | t :: rest =>
    match timeOf? w t, first? w rest with
    | some time, some (other, u) => if time ≤ other then some (time, t) else some (other, u)
    | some time, none => some (time, t)
    | none, found => found

/-- Acts until there is something else to do. -/
def actOn : Nat → World → Course → World × Course
  | 0, w, c => (w, c)
  | fuel + 1, w, .act f =>
    let (w, c) := f w
    actOn fuel w c
  | _, w, c => (w, c)

/-- The most actions of one turn. -/
def maxActions : Nat := 10000

/-- Takes note of the end of a task. Those that nobody looks after are forgotten. -/
def finish (r : Run) (pid : Nat) (how : ProcessEnd) : Run :=
  let w := r.world.setStreams pid []
  let w := w.modifyTask pid fun t ↦ { t with ending := some how, pending := [] }
  let parent := (w.task pid).parent
  let w := if (w.task parent).caught.contains World.childSignal then
      w.send parent World.childSignal else w
  let adopter := 1
  let tasks := w.tasks.map fun e ↦
    if e.2.parent = pid then (e.1, { e.2 with parent := adopter }) else e
  let tasks := tasks.filter fun e ↦ !(e.2.ending.isSome && e.2.parent = adopter)
  { world := { w with tasks }
    turns := r.turns.filter (·.pid != pid)
    ends := (pid, w.clock) :: r.ends }

/-- Ends the tasks that were sent a signal which ends them. -/
def deliver (r : Run) : Run :=
  if r.world.tasks.all fun e ↦ e.2.pending.isEmpty then r
  else
    r.turns.foldl (fun r t ↦
      match World.fatalSignal? (r.world.task t.pid) with
      | some signal => r.finish t.pid (.signaled signal)
      | none => r) r

/-- Gives a turn to a task. -/
def give (r : Run) (time : Nat) (t : Turn) : Run :=
  let w := { r.world with clock := max time r.world.clock, self := t.pid }
  let course :=
    match t.course with
    | .await _ _ next => next
    | course => course
  let (w, course) := actOn maxActions w course
  let put (t : Turn) (more : List Turn) : List Turn :=
    (r.turns.map fun u ↦ if u.pid = t.pid then t else u) ++ more
  match course with
  | .ended how => { r with world := w }.finish t.pid how
  | .fork child next =>
    let pid := w.nextPid
    let copy :=
      { w.task t.pid with parent := t.pid, pending := [], caught := [], unwritten := none }
    { r with
      world := { w with nextPid := pid + 1, tasks := w.tasks ++ [(pid, copy)] }
      turns := put ⟨t.pid, w.clock + forkTime, next pid⟩ [⟨pid, w.clock + riseTime, child⟩] }
  | course => { r with world := w, turns := put ⟨t.pid, w.clock, course⟩ [] }

/-- Takes turns up to a limit. -/
def go (limit : Option Nat) : Nat → Run → Run
  | 0, r => r
  | fuel + 1, r =>
    let r := r.deliver
    match first? r.world r.turns with
    | none => r
    | some (time, t) =>
      if (limit.map fun limit ↦ decide (limit ≤ time)).getD false then r
      else go limit fuel (r.give time t)

/-- The most turns of a run. -/
def maxTurns : Nat := 20000000

end Run

/-- How a program ended, and what it left behind. -/
structure Ending where
  how : ProcessEnd
  /-- The environment that the program was last started with. -/
  block : List Octets
  directory : Nat
  /-- When the programs that it did not wait for end. -/
  orphans : List Nat := []

/-- Runs a program from its start to its end, or to the limit at which it is killed. Its children
go on after it, but the clock shows when the program itself ended. -/
def World.run (w : World) (s : Standing) (env : List Octets) (program : Doing ProcessEnd)
    (limit : Option Nat) : Ending × World :=
  let pid := w.nextPid
  let self := w.self
  let root : Task := { s with parent := 0, block := env }
  let start := { w with nextPid := pid + 1, tasks := w.tasks ++ [(pid, root)] }
  let r := Run.go limit Run.maxTurns
    { world := start, turns := [⟨pid, start.clock, program .ended⟩] }
  let stop := (limit.getD r.world.clock)
  let finish := (r.ends.lookup pid).getD stop
  let root := r.world.task pid
  let world := r.turns.foldl
    (fun w t ↦ (w.task t.pid).streams.foldl (fun w s ↦ w.holdOpen s.2 stop) w) r.world
  let how := root.ending.getD (.signaled World.killSignal)
  ({ how, block := root.block, directory := root.cwd
     orphans := (r.ends.map (·.2)).reverse.filter (finish < ·) },
    { world with clock := finish, self, tasks := w.tasks })

end ShellEngine.Machine
