import ShellEngine.Proofs.Engine.Lapse

/-!
# Waiting for a stage

A wait is woken by the cancellation signal, by the end of the child, by input or by the end of a
delay (`Session.Woken`), and between two of these it takes a look at the console. So it keeps
whatever the passing of time and a look keep (`Session.Lapse.keeps_surroundings`). The engine waits
for a stage with the interrupt key routed to the cancellation signal, and does a few things more
when the wait has come to an outcome (`Session.WaitEnds`).
-/

namespace ShellEngine

/-! ## What a wait keeps -/

namespace Surroundings

variable {σ : Type}

/-- A relation between states, reflexive and transitive, that holds across everything that a wait
does. -/
structure Keeps (e : Surroundings σ) (R : σ → σ → Prop) : Prop where
  refl : ∀ s, R s s
  trans : ∀ {s t u}, R s t → R t u → R s u
  await : ∀ listens delay s, R s (e.await listens delay s).2
  look : ∀ s, R s (e.look s).2
  detach : ∀ s, R s (e.detach s)
  indicate : ∀ s, R s (e.indicate s)

/-- What each look keeps, the whole wait keeps, whatever wakes it and however it ends. -/
theorem Keeps.wait {e : Surroundings σ} {R : σ → σ → Prop} (h : e.Keeps R) (looks : Nat)
    (watch : GestureWatch) (delay : Option Nat) (s : σ) : R s (e.wait looks watch delay s).2 := by
  induction looks generalizing watch delay s with
  | zero =>
    have hawait := h.await false none s
    unfold Surroundings.wait
    split
    all_goals
      rename_i t heq
      rw [heq] at hawait
      exact hawait
  | succ looks ih =>
    have hawait := h.await (e.listens delay s) delay s
    unfold Surroundings.wait
    split
    · rename_i t heq
      rw [heq] at hawait
      exact hawait
    · rename_i t heq
      rw [heq] at hawait
      exact hawait
    · rename_i t _ _ heq
      rw [heq] at hawait
      have hlooked := h.trans hawait (h.look t)
      rcases hlook : e.look t with ⟨⟨events, pending⟩, u⟩
      rw [hlook] at hlooked
      dsimp only at hlooked ⊢
      rcases watch.observe events pending with ⟨look, watch⟩
      dsimp only
      split
      · exact h.trans hlooked (h.detach u)
      · refine h.trans hlooked (h.trans ?_ (ih watch look.delay _))
        split
        · exact h.indicate u
        · exact h.refl u

end Surroundings

namespace Session

/-! ## What wakes a wait -/

/-- What a wait for a child need not wait for any longer. -/
def wake? (s : Session) (child : Nat) : Option Wake :=
  if s.cancellation.signaled then some .cancelled else (s.ended? child).map .ended

/-- The ways in which a wait for a child is woken. -/
inductive Woken (s : Session) (child : Nat) (listens : Bool) (delay : Option Nat) :
    Wake → Session → Prop
  | already {wake : Wake} (hwake : s.wake? child = some wake) : Woken s child listens delay wake s
  | input (hlistens : listens = true) (console : Console) :
      Woken s child listens delay .input { s with console }
  /-- Nothing is to come. -/
  | never (console : Console) : Woken s child listens delay (.ended (.error .childLost)) { s with console }
  | later (console : Console) (time : Nat) {wake : Wake}
      (hwake : (({ s with console } : Session).passUntil time).wake? child = some wake) :
      Woken s child listens delay wake (({ s with console } : Session).passUntil time)
  | elapsed (console : Console) (time : Nat) (hdelay : delay.isSome = true) :
      Woken s child listens delay .elapsed (({ s with console } : Session).passUntil time)
  | vainly (console : Console) (time : Nat) :
      Woken s child listens delay (.ended (.error .childLost))
        (({ s with console } : Session).passUntil time)

theorem woken_of_await {s t : Session} {child : Nat} {listens : Bool} {delay : Option Nat}
    {wake : Wake} (h : s.await child listens delay = (wake, t)) :
    Woken s child listens delay wake t := by
  have hlistens : (if listens then s.console.awaitInput else (false, s.console)).1 = true →
      listens = true := by
    cases listens <;> simp
  unfold await at h
  dsimp only at h
  split at h
  · rename_i hwake
    obtain ⟨rfl, rfl⟩ := Prod.mk.inj h
    exact .already hwake
  · generalize (if listens then s.console.awaitInput else (false, s.console)) = heard at hlistens h
    obtain ⟨came, console⟩ := heard
    dsimp only at hlistens h
    split at h
    · rename_i hcame
      obtain ⟨rfl, rfl⟩ := Prod.mk.inj h
      exact .input (hlistens hcame) console
    · split at h
      · obtain ⟨rfl, rfl⟩ := Prod.mk.inj h
        exact .never console
      · rename_i time _
        obtain ⟨hwake, rfl⟩ := Prod.mk.inj h
        cases hnext : (({ s with console } : Session).passUntil time).wake? child with
        | some next =>
          rw [wake?] at hnext
          rw [hnext, Option.getD_some] at hwake
          exact .later console time (hwake ▸ hnext)
        | none =>
          rw [wake?] at hnext
          rw [hnext, Option.getD_none] at hwake
          split at hwake
          · rename_i hdelay
            exact hwake ▸ .elapsed console time hdelay
          · exact hwake ▸ .vainly console time

/-! ## The session as the surroundings of a wait -/

section

variable {R : Session → Session → Prop}

theorem Lapse.await (h : Lapse R) (hconsole : ∀ s console, R s { s with console })
    (child : Nat) (listens : Bool) (delay : Option Nat) (s : Session) :
    R s (s.await child listens delay).2 := by
  have hpass (console : Console) (time : Nat) :
      R s (({ s with console } : Session).passUntil time) :=
    h.trans (hconsole s console) (h.passUntil _ time)
  rcases hawait : s.await child listens delay with ⟨wake, t⟩
  cases woken_of_await hawait with
  | already => exact h.refl s
  | input _ console => exact hconsole s console
  | never console => exact hconsole s console
  | later console time => exact hpass console time
  | elapsed console time => exact hpass console time
  | vainly console time => exact hpass console time

theorem Lapse.keeps_surroundings (h : Lapse R) (hconsole : ∀ s console, R s { s with console })
    (child record : Nat) : (surroundings child record).Keeps R where
  refl := h.refl
  trans := h.trans
  await listens delay s := h.await hconsole child listens delay s
  look s := hconsole s _
  detach s := h.trans (h.records s _) (h.trans (hconsole _ _) (hconsole _ _))
  indicate s := by
    unfold surroundings
    dsimp only
    split
    · exact h.refl s
    · split
      · exact h.records s _
      · exact h.trans (h.records s _) (hconsole _ _)

end

/-! ## The ends of a wait -/

def routed (s : Session) : Session := { s with cancellation := (s.cancellation.route true).2 }

/-- With the routing of the interrupt key put back. -/
def rerouted (s : Session) (before : Bool) : Session :=
  { s with cancellation := s.cancellation.restore before }

/-- With the message taken away that the stage is running. -/
def cleared (s : Session) (r : RunningStage) : Session :=
  if (s.record r.record).completionDisplayed then s.call .clear else s

def waitForChild (s : Session) (r : RunningStage) (child : Nat) :
    Except IoError WaitOutcome × Session :=
  (surroundings child r.record).wait (s.routed.maxLooks child) { settings := s.settings.monitor }
    none s.routed

/-- The ways in which a wait for a stage ends. -/
inductive WaitEnds (s : Session) (r : RunningStage) : Except IoError WaitOutcome → Session → Prop
  /-- There is no child to wait for. -/
  | absent (hchild : r.child = none) : WaitEnds s r (.ok (.completed (.builtin exitSuccess))) s
  | lost {child : Nat} {e : IoError} {t : Session} (hchild : r.child = some child)
      (hwait : s.waitForChild r child = (.error e, t)) : WaitEnds s r (.error e) t
  | completed {child : Nat} {status : StageStatus} {t : Session} (hchild : r.child = some child)
      (hwait : s.waitForChild r child = (.ok (.completed status), t)) :
      WaitEnds s r (.ok (.completed status))
        (((t.rerouted s.cancellation.routed).cleared r).finalize
          (r.stdoutBuffer.toList ++ r.stderrBuffer.toList))
  | cancelled {child : Nat} {t : Session} (hchild : r.child = some child)
      (hwait : s.waitForChild r child = (.ok .cancelled, t)) :
      WaitEnds s r (.ok .cancelled)
        ((t.kill child (if r.stage.graceful then terminateSignal else killSignal) true).rerouted
          s.cancellation.routed)
  | backgrounded {child : Nat} {t : Session} (hchild : r.child = some child)
      (hwait : s.waitForChild r child = (.ok .backgrounded, t)) :
      WaitEnds s r (.ok .backgrounded) (t.rerouted s.cancellation.routed)

theorem waitEnds_of_waitForStage {s t : Session} {r : RunningStage}
    {result : Except IoError WaitOutcome} (h : s.waitForStage r = (result, t)) :
    WaitEnds s r result t := by
  unfold waitForStage at h
  split at h
  · rename_i hchild
    obtain ⟨rfl, rfl⟩ := Prod.mk.inj h
    exact .absent hchild
  · rename_i child hchild
    dsimp only at h
    split at h
    · rename_i hwait
      obtain ⟨rfl, rfl⟩ := Prod.mk.inj h
      exact .lost hchild hwait
    · rename_i outcome u hwait
      cases outcome with
      | completed status =>
        obtain ⟨rfl, rfl⟩ := Prod.mk.inj h
        exact .completed hchild hwait
      | cancelled =>
        obtain ⟨rfl, rfl⟩ := Prod.mk.inj h
        exact .cancelled hchild hwait
      | backgrounded =>
        obtain ⟨rfl, rfl⟩ := Prod.mk.inj h
        exact .backgrounded hchild hwait

section

variable {R : Session → Session → Prop}

theorem Lapse.waitForChild (h : Lapse R) (hconsole : ∀ s console, R s { s with console })
    (s : Session) (r : RunningStage) (child : Nat) : R s.routed (s.waitForChild r child).2 :=
  (h.keeps_surroundings hconsole child r.record).wait _ _ _ _

/-- What a wait for a stage keeps, however it ends. -/
theorem Lapse.waitForStage (h : Lapse R) (hconsole : ∀ s console, R s { s with console })
    (hcancellation : ∀ s cancellation, R s { s with cancellation })
    (hhost : ∀ s host, R s { s with host }) (hfinalize : ∀ s buffers, R s (s.finalize buffers))
    (s : Session) (r : RunningStage) : R s (s.waitForStage r).2 := by
  have hwaited {child : Nat} {result : Except IoError WaitOutcome} {u : Session}
      (hwait : s.waitForChild r child = (result, u)) : R s u := by
    have hchild := h.waitForChild hconsole s r child
    rw [hwait] at hchild
    exact h.trans (hcancellation s _) hchild
  have hrerouted (t : Session) : R t (t.rerouted s.cancellation.routed) := hcancellation t _
  have hcleared (t : Session) : R t (t.cleared r) := by
    unfold cleared
    split
    · exact hconsole t _
    · exact h.refl t
  rcases hends : s.waitForStage r with ⟨result, t⟩
  cases waitEnds_of_waitForStage hends with
  | absent => exact h.refl s
  | lost _ hwait => exact hwaited hwait
  | completed _ hwait =>
    exact h.trans (hwaited hwait) (h.trans (hrerouted _) (h.trans (hcleared _) (hfinalize _ _)))
  | cancelled _ hwait =>
    exact h.trans (hwaited hwait) (h.trans (h.kill hhost _ _ _ _) (hrerouted _))
  | backgrounded _ hwait => exact h.trans (hwaited hwait) (hrerouted _)

end

end Session

end ShellEngine
