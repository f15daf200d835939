/-!
# Jobs

The stages that the engine no longer waits for. A job may have a child and a harvester, the thread
that follows what the child left behind. It is finished once its child, if it has one, has a code
and its harvester, if it has one, has ended. The table refers to children and harvesters by their
keys; what has become of them is told by a `Supervision`.

Whoever asks a job for its status changes it: a finished job joins its harvester, and lets go of it.
-/

namespace ShellEngine

/-- What is known of a child. -/
structure ChildView where
  pid : Option Int := none
  code : Option Int := none
  deriving DecidableEq, Repr, Inhabited

/-- What is known of all children and harvesters, by their keys. -/
structure Supervision where
  child : Nat → ChildView
  harvesterEnded : Nat → Bool

/-- A stage in the background. -/
structure Job where
  id : Nat
  text : String
  child : Option Nat
  harvester : Option Nat
  deriving DecidableEq, Repr

/-- A job as it is listed; only a finished one has an exit code. -/
structure JobSummary where
  id : Nat
  text : String
  pid : Option Int
  exit : Option Int
  deriving DecidableEq, Repr

namespace Job

/-- The exit code as far as the child goes: that of the child, or zero without one. -/
def exit? (j : Job) (v : Supervision) : Option Int :=
  match j.child with
  | some key => (v.child key).code
  | none => some 0

/-- Asks for the exit code, which only a finished job has. Such a job joins its harvester. -/
def ask (j : Job) (v : Supervision) : Option Int × Job :=
  match j.exit? v with
  | none => (none, j)
  | some exit =>
    match j.harvester with
    | none => (some exit, j)
    | some key => if v.harvesterEnded key then (some exit, { j with harvester := none }) else (none, j)

def status? (j : Job) (v : Supervision) : Option Int := (j.ask v).1

def summary (j : Job) (v : Supervision) : JobSummary :=
  { id := j.id
    text := j.text
    pid := j.child.bind fun key ↦ (v.child key).pid
    exit := j.status? v }

end Job

/-- The jobs in order of registration, and the last id given. -/
structure JobTable where
  lastId : Nat := 0
  jobs : List Job := []
  deriving DecidableEq, Repr

namespace JobTable

/-- Enters a job; ids count up from one and are never used again. -/
def register (t : JobTable) (text : String) (child harvester : Option Nat) : Nat × JobTable :=
  let id := t.lastId + 1
  (id, { lastId := id, jobs := t.jobs ++ [{ id, text, child, harvester }] })

/-- Asks all jobs; finished ones stay until they are reaped. -/
def look (t : JobTable) (v : Supervision) : List JobSummary × JobTable :=
  (t.jobs.map (·.summary v), { t with jobs := t.jobs.map fun j ↦ (j.ask v).2 })

def list (t : JobTable) (v : Supervision) : List JobSummary := (t.look v).1

/-- Takes the finished jobs out of the table. -/
def reap (t : JobTable) (v : Supervision) : List JobSummary × JobTable :=
  ((t.jobs.filter fun j ↦ (j.status? v).isSome).map (·.summary v),
    { t with jobs := t.jobs.filter fun j ↦ (j.status? v).isNone })

end JobTable

end ShellEngine
