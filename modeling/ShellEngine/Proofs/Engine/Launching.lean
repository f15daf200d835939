import ShellEngine.Engine.Start
import ShellEngine.Proofs.Engine.Lapse

/-!
# What a launch does

There are several ways in which a stage is launched, and a stage may be tried in one way after the
other. To the session all of them do the same few things: processes run and become children, a
harvester is started, and what has happened by now is noticed (`Session.Launching`). The stage gets
the child and the harvester, and at most it is now to be ended gracefully
(`RunningStage.unstarted`). So whatever these changes keep, a launch keeps (`Session.exists_launched`).
-/

namespace ShellEngine

open Machine

def RunningStage.unstarted (r : RunningStage) : RunningStage :=
  { r with stage := { r.stage with graceful := false }, child := none, harvester := none }

namespace Session

/-- What is done to a session while a stage is launched, with the number of harvesters that are
started. -/
inductive Launching (s : Session) : Nat → Session → Prop
  | refl : Launching s 0 s
  | look {n : Nat} {t : Session} (h : Launching s n t) : Launching s n t.lookAtSharedAliases.2
  | processes {n : Nat} {t : Session} (h : Launching s n t) (world : World)
      (children : Array Child) (records : Array StageRecord) :
      Launching s n { t with host := { t.host with world }, children, records }
  | harvest {n : Nat} {t : Session} (h : Launching s n t) (harvester : Harvester)
      (hjoined : harvester.joined = false) :
      Launching s (n + 1) { t with harvesters := t.harvesters.push harvester }
  | catchUp {n : Nat} {t : Session} (h : Launching s n t) : Launching s n t.catchUp

theorem Launching.trans {s t u : Session} {n m : Nat} (h : Launching s n t)
    (h' : Launching t m u) : Launching s (n + m) u := by
  induction h' with
  | refl => exact h
  | look _ ih => exact ih.look
  | processes _ world children records ih => exact ih.processes world children records
  | harvest _ harvester hjoined ih => exact ih.harvest harvester hjoined
  | catchUp _ ih => exact ih.catchUp

structure Launched (s : Session) (r launched : RunningStage) (n : Nat) (t : Session) : Prop where
  launching : Launching s n t
  unstarted : launched.unstarted = r.unstarted
  /-- The stage has the harvester that was started, or the one from before. -/
  harvester : n = 0 ∧ launched.harvester = r.harvester ∨
    n = 1 ∧ launched.harvester = some s.harvesters.size

/-- Without a harvester that was started, the stage has the one from before. -/
theorem Launched.harvester_eq {s t : Session} {r launched : RunningStage}
    (h : Launched s r launched 0 t) : launched.harvester = r.harvester := by
  rcases h.harvester with ⟨-, hsame⟩ | ⟨hone, -⟩
  · exact hsame
  · cases hone

/-- A stage that could not be launched in one way was launched in another. -/
theorem Launched.trans {s t u : Session} {r refused launched : RunningStage}
    (h : Launched s r refused 0 t) (h' : Launched t refused launched 0 u) :
    Launched s r launched 0 u where
  launching := h.launching.trans h'.launching
  unstarted := h'.unstarted.trans h.unstarted
  harvester := Or.inl ⟨rfl, h'.harvester_eq.trans h.harvester_eq⟩

section Ways

variable (s : Session) (r : RunningStage)

theorem launched_self : Launched s r r 0 s := ⟨.refl, rfl, Or.inl ⟨rfl, rfl⟩⟩

theorem launched_spawn (program : String) (args : List String) :
    Launched s r (s.spawn r program args).2.1 0 (s.spawn r program args).2.2 := by
  unfold spawn
  dsimp only
  split
  · split
    · exact launched_self s r
    · exact ⟨.refl, rfl, Or.inl ⟨rfl, rfl⟩⟩
  · split <;> exact ⟨.processes .refl _ _ _, rfl, Or.inl ⟨rfl, rfl⟩⟩

theorem launched_openTarget (target : String) :
    Launched s r (s.openTarget r target).2.1 0 (s.openTarget r target).2.2 := by
  unfold openTarget
  split
  · exact launched_self s r
  · exact ⟨.processes .refl _ _ _, rfl, Or.inl ⟨rfl, rfl⟩⟩

/-- A root that is started has a harvester of its own, the last one. -/
theorem launching_startHarvested (program : String) (args : List String) (record : Nat) :
    match s.startHarvested program args record with
    | (.error _, t) => Launching s 0 t
    | (.ok (_, harvester), t) => Launching s 1 t ∧ harvester = s.harvesters.size := by
  have hlooked : Launching s 0 s.lookAtSharedAliases.2 := .look .refl
  have hharvesters : s.lookAtSharedAliases.2.harvesters = s.harvesters := by
    obtain ⟨_, hlook⟩ := s.exists_lookAtSharedAliases_eq
    rw [hlook]
  unfold startHarvested
  rcases hbefore : s.lookAtSharedAliases with ⟨before, t⟩
  rw [hbefore] at hlooked hharvesters
  dsimp -zeta -zetaHave only at hlooked hharvesters ⊢
  cases hprepared : t.host.prepare program args true with
  | error e => exact hlooked
  | ok process =>
    refine ⟨.catchUp ?_, congrArg Array.size hharvesters⟩
    exact (hlooked.harvest _ rfl).processes _ _ _

/-- **A launch of a stage**, in whichever way. -/
theorem exists_launched (target : String) :
    ∃ n, Launched s r (s.launch r target).2.1 n (s.launch r target).2.2 := by
  unfold launch
  split
  · exact ⟨0, launched_openTarget s r _⟩
  · split
    · exact ⟨0, launched_self s r⟩
    · exact ⟨0, launched_spawn s r _ _⟩
  · unfold startScript
    split
    rename_i program args _
    split
    · let capture (value : Bool) (s : Session) : Session :=
        s.modifyRecord r.record fun record ↦ { record with capture := value }
      have hcapture (value : Bool) (s : Session) : Launching s 0 (capture value s) :=
        .processes .refl _ _ _
      have hharvest := launching_startHarvested (capture true s) program args r.record
      dsimp only
      rcases hstart : (capture true s).startHarvested program args r.record with
        ⟨e | ⟨child, harvester⟩, t⟩ <;> rw [hstart] at hharvest
      · have hbefore := ((hcapture true s).trans hharvest).trans (hcapture false t)
        have hrefused : Launched s r r 0 (capture false t) := ⟨hbefore, rfl, Or.inl ⟨rfl, rfl⟩⟩
        exact ⟨0, hrefused.trans (launched_spawn _ r _ _)⟩
      · obtain ⟨hlaunching, rfl⟩ := hharvest
        exact ⟨1, (hcapture true s).trans hlaunching, rfl, Or.inr ⟨rfl, rfl⟩⟩
    · exact ⟨0, launched_spawn s r _ _⟩
  · have hspawned := launched_spawn s r target r.stage.arguments
    split
    · rename_i e refused t he
      rw [he] at hspawned
      split
      · exact ⟨0, hspawned.trans (launched_openTarget t refused target)⟩
      · exact ⟨0, hspawned⟩
    · exact ⟨0, hspawned⟩

end Ways

end Session

end ShellEngine
