import ShellEngine.Proofs.Engine.Waiting

/-!
# The interrupt key during a wait

While the engine waits for a stage in the foreground, the interrupt key is routed to the
cancellation signal. Nothing that happens during the wait touches the routing: not the passing of
time, nor a look at the console, nor the end of the wait, whatever brings it about. So the routing
after a wait is settled by its two ends alone (`Session.routed_waitForStage`). A wait that comes to
an outcome puts back the routing from before. A wait for a child that is lost leaves the key
routed.
-/

namespace ShellEngine

namespace Session

def SameRouting (s t : Session) : Prop := t.cancellation.routed = s.cancellation.routed

namespace SameRouting

theorem lapse : Lapse SameRouting where
  refl _ := rfl
  trans h h' := h'.trans h
  clock _ _ _ := rfl
  adopt _ _ := rfl
  records _ _ := rfl
  harvesters _ _ _ := rfl
  modifyChild _ _ _ := rfl
  aliases _ _ := rfl
  sharedAliases _ _ := rfl
  cancel _ := rfl

theorem finalize (s : Session) (buffers : List Nat) : SameRouting s (s.finalize buffers) :=
  lapse.finalize (lapse.runPump (fun _ _ _ _ ↦ rfl) fun _ _ ↦ rfl) s buffers

end SameRouting

/-- **The routing after a wait** is the one from before, unless the wait ends with an error: then
the interrupt key stays routed. -/
theorem routed_waitForStage (s : Session) (stage : RunningStage) :
    (s.waitForStage stage).2.cancellation.routed =
      match (s.waitForStage stage).1 with
      | .ok _ => s.cancellation.routed
      | .error _ => true := by
  -- until it ends, the wait keeps the routing that it began with, so its end decides
  have hwaited {child : Nat} {result : Except IoError WaitOutcome} {t : Session}
      (hwait : s.waitForChild stage child = (result, t)) : t.cancellation.routed = true := by
    have hkept := SameRouting.lapse.waitForChild (fun _ _ ↦ rfl) s stage child
    rwa [hwait] at hkept
  rcases hends : s.waitForStage stage with ⟨result, t⟩
  cases waitEnds_of_waitForStage hends with
  | absent => rfl
  | lost _ hwait => exact hwaited hwait
  | completed =>
    refine Eq.trans (SameRouting.finalize _ _) ?_
    unfold cleared
    split <;> rfl
  | cancelled => rfl
  | backgrounded => rfl

/-- A session with a child of which nobody can tell how it ended. -/
def bereft : Session where
  settings := {}
  host := {
    world := { tree := { nodes := #[] } }
    cwd := 0
    descriptors := { table := [] } }
  children := #[{ pid := 7, traced := true, fate := some { time := 0, status := none } }]

def lostStage : RunningStage := { stage := .ofArgv ["./e.sh"], record := 0, child := some 0 }

/-- A wait for a child that is lost leaves the interrupt key routed. -/
theorem routed_waitForStage_of_bereft :
    bereft.cancellation.routed = false ∧
      (bereft.waitForStage lostStage).1 = .error .childLost ∧
      (bereft.waitForStage lostStage).2.cancellation.routed = true :=
  ⟨rfl, rfl, rfl⟩

end Session

end ShellEngine
