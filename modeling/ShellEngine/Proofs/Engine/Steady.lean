import ShellEngine.Proofs.Engine.Lapse

/-!
# What the passing of time leaves alone

While time passes, harvesters take note of what has happened, and children that are killed get a new
fate. None of this starts anything, changes the level, or takes the cancellation signal down
(`Session.Steady`).
-/

namespace ShellEngine

namespace Session

/-- Nothing was started, the level is what it was, and a cancellation signal that was up still
is. -/
structure Steady (s t : Session) : Prop where
  level : t.level = s.level
  signaled : s.cancellation.signaled = true → t.cancellation.signaled = true
  children : t.children.size = s.children.size

namespace Steady

theorem refl (s : Session) : Steady s s := ⟨rfl, id, rfl⟩

theorem trans {s t u : Session} (h : Steady s t) (h' : Steady t u) : Steady s u :=
  ⟨h'.level.trans h.level, h'.signaled ∘ h.signaled, h'.children.trans h.children⟩

theorem lapse : Lapse Steady where
  refl := refl
  trans := trans
  clock _ _ _ := ⟨rfl, id, rfl⟩
  adopt _ _ := ⟨rfl, id, rfl⟩
  records _ _ := ⟨rfl, id, rfl⟩
  harvesters _ _ _ := ⟨rfl, id, rfl⟩
  modifyChild _ _ _ := ⟨rfl, id, Array.size_modify⟩
  aliases _ _ := ⟨rfl, id, rfl⟩
  sharedAliases _ _ := ⟨rfl, id, rfl⟩
  cancel _ := ⟨rfl, fun _ ↦ rfl, rfl⟩

theorem foldl {ι : Type} {f : Session → ι → Session} (hf : ∀ s i, Steady s (f s i)) (is : List ι)
    (s : Session) : Steady s (is.foldl f s) :=
  lapse.foldl hf is s

end Steady

theorem steady_passUntil (s : Session) (time : Nat) : Steady s (s.passUntil time) :=
  Steady.lapse.passUntil s time

theorem steady_kill (s : Session) (child signal : Nat) (reruns : Bool) :
    Steady s (s.kill child signal reruns) :=
  Steady.lapse.kill (fun _ _ ↦ ⟨rfl, id, rfl⟩) s child signal reruns

theorem steady_killTraced (s : Session) (harvester record : Nat) :
    Steady s (s.killTraced harvester record) :=
  Steady.lapse.killTraced s harvester record

theorem steady_joinOf (s : Session) (harvester : Option Nat) :
    Steady s (harvester.elim s s.join) := by
  cases harvester <;> exact ⟨rfl, id, rfl⟩

end Session

end ShellEngine
