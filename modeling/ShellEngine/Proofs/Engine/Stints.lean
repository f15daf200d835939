import ShellEngine.Proofs.Engine.Chores
import ShellEngine.Proofs.Engine.Execution
import ShellEngine.Proofs.Engine.Launching
import ShellEngine.Proofs.Engine.Trail
import ShellEngine.Proofs.Engine.Waiting

/-!
# What stages keep

A builtin that is run as a stage is a chore between two redirections, with pipes to drain, while
time passes. A relation that none of these breaks (`Session.Stint`) holds across the stage.

A program may do anything to the machine. What no stage changes, be it a builtin or a program, are
the terms on which the engine works: its settings, the limit for stages that nobody waits for, the
flag of tasks that cannot be sent to the background, and whether another instance handed it its line
(`Session.SameTerms`). They are the same all along a trail (`SameTerms.trail`).
-/

namespace ShellEngine

open Machine PlanAction

namespace Session

/-- A relation between sessions, reflexive and transitive, that holds across each change that is
made while a builtin is run as a stage and while books are kept. -/
structure Stint (R : Session → Session → Prop) : Prop extends Lapse R, Chore R where
  redirect : ∀ s r routes, R s (s.redirect r routes).2.2
  revert : ∀ s snapshot, R s (s.revert snapshot)
  closeDescriptor : ∀ s fd, R s (s.closeDescriptor fd)
  addBuffer : ∀ s, R s s.addBuffer.2
  commence : ∀ s buffer descriptor, R s (s.commence buffer descriptor)
  runPump : ∀ s p, R s (s.runPump p)
  replay : ∀ s buffer, R s (s.replay buffer).2
  level : ∀ s level, R s { s with level }
  enter : ∀ s r harvester, R s (s.enter r harvester)
  join : ∀ s key, R s (s.join key)

section

variable {R : Session → Session → Prop} {index : Nat} {r : RunningStage} {a b : Situation}
  {result : Except EngineError StageResult}

/-! ## Builtins -/

namespace Stint

variable (h : Stint R)
include h

theorem hold (s : Session) (reader : Option Nat) : R s (s.hold reader) := by
  cases reader with
  | none => exact h.refl s
  | some reader => exact h.trans (h.addBuffer s) (h.commence _ _ _)

theorem commenceDrains (s : Session) (r : RunningStage) : R s (s.commenceDrains r).2 :=
  h.foldl (fun s (d : Nat × Nat) ↦ h.commence s d.1 d.2) r.pendingDrains s

theorem finalize (s : Session) (buffers : List Nat) : R s (s.finalize buffers) :=
  h.toLapse.finalize h.runPump s buffers

theorem closeAll (s : Session) (fds : List Nat) : R s (fds.foldl Session.closeDescriptor s) :=
  h.foldl h.closeDescriptor fds s

theorem handsOff {reader : Option Nat} (hhand : HandsOff index a reader b) : R a.2 b.2 := by
  cases hhand with
  | nothing => exact h.refl a.2
  | dropped => exact h.closeDescriptor a.2 _
  | handed => exact h.closeAll a.2 _

/-- From before a builtin is run as a stage until it is run. -/
theorem ready {routes : Bool} {placed : RunningStage} {snapshot : Snapshot} {s t : Session}
    (hplaced : s.redirect r routes = (.ok snapshot, placed, t)) :
    R s ((t.hold snapshot.nextInput).commenceDrains placed).2 := by
  have hredirect := h.redirect s r routes
  rw [hplaced] at hredirect
  exact h.trans hredirect (h.trans (h.hold t _) (h.commenceDrains _ _))

theorem runsBuiltin {cmd : Builtin} (hrun : RunsBuiltin index r cmd a result b) : R a.2 b.2 := by
  have hchore {s t : Session} {code : Int}
      (hrun : (cmd.run r.stage.arguments).outcome s = (.ok code, t)) : R s t := by
    have hkept := h.run cmd r.stage.arguments s
    rwa [Action.Keeps, hrun] at hkept
  cases hrun with
  | misplaced hplaced =>
    have hredirect := h.redirect a.2 r true
    rwa [hplaced] at hredirect
  | ran hplaced hrun =>
    exact h.trans (h.ready hplaced)
      (h.trans (hchore hrun) (h.trans (h.revert _ _) (h.finalize _ _)))
  | @piped snapshot placed s t u code input replayed c hplaced hrun hinput hreplay hhand =>
    have hreplayed := h.replay ((t.revert { snapshot with nextInput := none }).finalize
      (placed.stdoutBuffer.toList ++ placed.stderrBuffer.toList ++ [s.buffers.size])) s.buffers.size
    rw [hreplay] at hreplayed
    have hdrained := h.trans (h.revert t _) (h.trans (h.finalize _ _) hreplayed)
    exact h.trans (h.ready hplaced) (h.trans (hchore hrun) (h.trans hdrained (h.handsOff hhand)))

/-! ## Books -/

theorem joinOf (s : Session) (harvester : Option Nat) : R s (harvester.elim s s.join) := by
  cases harvester with
  | none => exact h.refl s
  | some key => exact h.join s key

theorem signal (s : Session) (stages : List RunningStage) (number : Nat) :
    R s (s.signal stages number) := by
  refine h.foldl (fun s r ↦ ?_) stages s
  cases r.child with
  | none => exact h.refl s
  | some c => exact h.kill_of s c number false nofun

theorem endStages (s : Session) (stages : List RunningStage) : R s (s.endStages stages) := by
  refine h.trans (h.signal s stages _) (h.trans (h.passUntil _ _)
    (h.trans (h.signal _ stages _) (h.foldl (fun s r ↦ ?_) stages _)))
  cases r.harvester with
  | none => exact h.refl s
  | some key => exact h.killTraced s key r.record

theorem joinStages (s : Session) (stages : List RunningStage) : R s (s.joinStages stages) :=
  h.foldl (fun s (r : RunningStage) ↦ h.joinOf s r.harvester) stages s

theorem released (a : Situation) (index : Nat) : R a.2 (PlanAction.released a index).2 := by
  unfold PlanAction.released
  split
  · exact h.refl a.2
  · dsimp only
    split
    · exact h.enter a.2 _ _
    · split
      · exact h.trans (h.joinOf a.2 _) (h.enter _ _ _)
      · exact h.joinOf a.2 _

theorem foldl_released (is : List Nat) (a : Situation) :
    R a.2 (is.foldl PlanAction.released a).2 := by
  induction is generalizing a with
  | nil => exact h.refl a.2
  | cons i is ih => exact h.trans (h.released a i) (ih _)

theorem bookkeeping {x : PlanAction Unit} (hx : Bookkeeping x) (hgives : x.Gives a () b) :
    R a.2 b.2 := by
  cases hx with
  | prepare index =>
    obtain ⟨-, rfl⟩ := (gives_prepare index a).unique hgives
    exact h.refl a.2
  | pass index =>
    obtain ⟨-, rfl⟩ := (gives_pass index a).unique hgives
    exact h.refl a.2
  | setLevel level =>
    obtain ⟨-, rfl⟩ := (gives_setLevel level a).unique hgives
    exact h.level a.2 level
  | report e =>
    obtain ⟨-, rfl⟩ := eq_of_gives_tell hgives
    exact h.say a.2 2 _
  | cancelStages =>
    obtain ⟨-, rfl⟩ := (gives_cancelStages a).unique hgives
    exact h.trans (h.endStages a.2 _) (h.joinStages _ _)
  | release =>
    obtain ⟨-, rfl⟩ := (gives_release a).unique hgives
    exact h.foldl_released _ a

end Stint

end

/-! ## Terms -/

/-- The engine works on the same terms as before. -/
structure SameTerms (s t : Session) : Prop where
  settings : t.settings = s.settings
  backgroundLimit : t.backgroundLimit = s.backgroundLimit
  synchronous : t.synchronous = s.synchronous
  isSubshell : t.isSubshell = s.isSubshell

namespace SameTerms

variable {index : Nat} {r : RunningStage} {a b : Situation} {s t u : Session}
  {result : Except EngineError StageResult}

theorem refl (s : Session) : SameTerms s s := ⟨rfl, rfl, rfl, rfl⟩

theorem trans (h : SameTerms s t) (h' : SameTerms t u) : SameTerms s u :=
  ⟨h'.settings.trans h.settings, h'.backgroundLimit.trans h.backgroundLimit,
    h'.synchronous.trans h.synchronous, h'.isSubshell.trans h.isSubshell⟩

theorem stint : Stint SameTerms where
  refl := refl
  trans := trans
  clock _ _ _ := ⟨rfl, rfl, rfl, rfl⟩
  adopt _ _ := ⟨rfl, rfl, rfl, rfl⟩
  records _ _ := ⟨rfl, rfl, rfl, rfl⟩
  harvesters _ _ _ := ⟨rfl, rfl, rfl, rfl⟩
  modifyChild _ _ _ := ⟨rfl, rfl, rfl, rfl⟩
  aliases _ _ := ⟨rfl, rfl, rfl, rfl⟩
  sharedAliases _ _ := ⟨rfl, rfl, rfl, rfl⟩
  cancel _ := ⟨rfl, rfl, rfl, rfl⟩
  write _ _ _ _ _ := ⟨rfl, rfl, rfl, rfl⟩
  environment _ _ := ⟨rfl, rfl, rfl, rfl⟩
  cwd _ _ := ⟨rfl, rfl, rfl, rfl⟩
  look _ := ⟨rfl, rfl, rfl, rfl⟩
  exitRequest _ _ := ⟨rfl, rfl, rfl, rfl⟩
  redirect _ _ _ := ⟨rfl, rfl, rfl, rfl⟩
  revert _ _ := ⟨rfl, rfl, rfl, rfl⟩
  closeDescriptor _ _ := ⟨rfl, rfl, rfl, rfl⟩
  addBuffer _ := ⟨rfl, rfl, rfl, rfl⟩
  commence _ _ _ := ⟨rfl, rfl, rfl, rfl⟩
  runPump s p := by
    rw [runPump_eq]
    split <;> exact ⟨rfl, rfl, rfl, rfl⟩
  replay s buffer := by
    unfold Session.replay
    split <;> exact ⟨rfl, rfl, rfl, rfl⟩
  level _ _ := ⟨rfl, rfl, rfl, rfl⟩
  enter _ _ _ := ⟨rfl, rfl, rfl, rfl⟩
  join _ _ := ⟨rfl, rfl, rfl, rfl⟩

theorem kill (s : Session) (child signal : Nat) (reruns : Bool) :
    SameTerms s (s.kill child signal reruns) :=
  stint.kill (fun _ _ ↦ ⟨rfl, rfl, rfl, rfl⟩) s child signal reruns

theorem waitForStage (s : Session) (r : RunningStage) : SameTerms s (s.waitForStage r).2 :=
  stint.waitForStage (fun _ _ ↦ ⟨rfl, rfl, rfl, rfl⟩) (fun _ _ ↦ ⟨rfl, rfl, rfl, rfl⟩)
    (fun _ _ ↦ ⟨rfl, rfl, rfl, rfl⟩) stint.finalize s r

/-! ### Starts -/

theorem of_launching {n : Nat} (h : Launching s n t) : SameTerms s t := by
  induction h with
  | refl => exact refl s
  | look _ ih => exact ih.trans (stint.lookAtSharedAliases _)
  | processes _ _ _ _ ih => exact ih.trans ⟨rfl, rfl, rfl, rfl⟩
  | harvest _ _ _ ih => exact ih.trans ⟨rfl, rfl, rfl, rfl⟩
  | catchUp _ ih => exact ih.trans (stint.catchUp _)

theorem launch (s : Session) (r : RunningStage) (target : String) :
    SameTerms s (s.launch r target).2.2 := by
  obtain ⟨n, hlaunched⟩ := s.exists_launched r target
  exact of_launching hlaunched.launching

theorem delegate (s : Session) (text : String) : SameTerms s (s.delegate text).2 := by
  unfold Session.delegate
  split
  · exact refl s
  · split
    · exact refl s
    · exact ⟨rfl, rfl, rfl, rfl⟩

theorem begin (s : Session) (plan : Plan) : SameTerms s (s.begin plan).2 := by
  obtain ⟨records, hbegin⟩ := s.exists_begin_eq plan
  rw [hbegin]
  exact ⟨rfl, rfl, rfl, rfl⟩

/-! ### Stages -/

theorem of_launches {target : String} {snapshot : Snapshot} {ready : RunningStage}
    (hlaunches : Launches s r target snapshot ready t) : SameTerms s t := by
  obtain ⟨placed, launched, s₁, s₂, hplaced, hlaunched, -, rfl⟩ := hlaunches.exists_launch
  have hredirect := stint.redirect s r false
  rw [hplaced] at hredirect
  have hlaunch := launch s₁ placed target
  rw [hlaunched] at hlaunch
  exact hredirect.trans (hlaunch.trans ((stint.revert _ _).trans (stint.commenceDrains _ _)))

theorem of_awaits {waited : Except EngineError Int} (hwait : Awaits index r a waited b) :
    SameTerms a.2 b.2 := by
  have hwaited := waitForStage a.2 r
  cases hwait with
  | lost hwait =>
    rw [hwait] at hwaited
    exact hwaited
  | completed hwait =>
    rw [hwait] at hwaited
    exact hwaited
  | cancelled hwait =>
    rw [hwait] at hwaited
    exact hwaited
  | backgrounded hwait =>
    rw [hwait] at hwaited
    exact hwaited.trans ⟨rfl, rfl, rfl, rfl⟩

theorem of_runsProgram {target : String} (hrun : RunsProgram index r target a result b) :
    SameTerms a.2 b.2 := by
  have hredirect := stint.redirect a.2 r false
  cases hrun with
  | misplaced hplaced => rwa [hplaced] at hredirect
  | @unlaunched _ _ placed _ s _ hplaced hlaunched =>
    rw [hplaced] at hredirect
    have hlaunch := launch s placed target
    rw [hlaunched] at hlaunch
    exact hredirect.trans (hlaunch.trans ((stint.revert _ _).trans (stint.closeAll _ _)))
  | unattended hlaunches _ hhand => exact (of_launches hlaunches).trans (stint.handsOff hhand)
  | lost hlaunches _ _ hwait =>
    exact (of_launches hlaunches).trans ((of_awaits hwait).trans (stint.closeAll _ _))
  | attended hlaunches _ _ hwait hhand =>
    exact (of_launches hlaunches).trans ((of_awaits hwait).trans (stint.handsOff hhand))

theorem of_runStage (hrun : (runStage index).Gives a result b) : SameTerms a.2 b.2 := by
  cases runsStage_of_gives hrun with
  | builtin _ _ hrun => exact stint.runsBuiltin hrun
  | program _ _ _ hrun => exact of_runsProgram hrun
  | @delegated r _ _ _ _ _ _ _ hdelegate =>
    have hdelegated := delegate a.2 r.stage.text
    rwa [hdelegate] at hdelegated
  | notFound => exact refl a.2
  | absent => exact refl a.2

/-! ### Plans -/

/-- The terms are the same all along a trail, when each of its visits starts and when it stops. -/
theorem trail {visits : List Visit} (htrail : Trail a visits b) :
    SameTerms a.2 b.2 ∧ ∀ v ∈ visits, SameTerms a.2 v.start.2 ∧ SameTerms a.2 v.stop.2 := by
  induction htrail with
  | done a => exact ⟨refl a.2, fun _ hv ↦ absurd hv List.not_mem_nil⟩
  | keep hkeeps hx _ ih =>
    have hkept := stint.bookkeeping hkeeps hx
    exact ⟨hkept.trans ih.1, fun v hv ↦ (ih.2 v hv).imp hkept.trans hkept.trans⟩
  | visit hrun _ ih =>
    have hvisited := of_runStage hrun
    exact ⟨hvisited.trans ih.1, List.forall_mem_cons.mpr
      ⟨⟨refl _, hvisited⟩, fun w hw ↦ (ih.2 w hw).imp hvisited.trans hvisited.trans⟩⟩

end SameTerms

end Session

end ShellEngine
