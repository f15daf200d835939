import ShellEngine.Proofs.Engine.Sparing
import ShellEngine.Proofs.Engine.Stints
import ShellEngine.Proofs.Engine.Walking
import ShellEngine.Proofs.Machine.Naming

/-!
# Builtins on a tidy machine

A builtin makes no names, and a redirection makes those of its paths, which have no NULs. So a
machine that is tidy is so after a builtin was run as a stage (`Session.stint_tidy`), and all along
the trail of a plan of builtins (`Plan.Proper.trail`).
-/

namespace ShellEngine

open Machine PlanAction

theorem Machine.Host.world_duplicate (h : Host) (fd : Nat) : (h.duplicate fd).2.world = h.world := by
  unfold Host.duplicate
  split <;> rfl

theorem Snapshot.world_capture (h : Host) : (Snapshot.capture h).2.world = h.world :=
  (Host.world_duplicate _ 2).trans ((Host.world_duplicate _ 1).trans (h.world_duplicate 0))

namespace Redirect

/-- Putting streams in place makes no names but those of paths, which have no NULs. -/
theorem course_tidy : Course fun r r' ↦ r.host.world.tree.Tidy → r'.host.world.tree.Tidy where
  refl _ := id
  trans h h' htidy := h' (h htidy)
  descriptors _ _ := id
  pipe r htidy := r.host.tree_pipe ▸ htidy
  opened _ _ _ _ hos htidy := Host.tidy_openPath htidy (Host.nulFree_of_pathBytes hos)
  snapshot _ _ := id
  stage _ _ _ _ := id

theorem tidy_apply {h : Host} (htidy : h.world.tree.Tidy) (c : Cancellation) (stage : RunningStage)
    (nextBuffer : Nat) (routes : Bool) :
    (apply h c stage nextBuffer routes).host.world.tree.Tidy := by
  obtain ⟨r, hr⟩ := apply_cases h c stage nextBuffer routes
  have hplaced := course_tidy.placeStreams
    { host := (Snapshot.capture h).2, stage, snapshot := (Snapshot.capture h).1, nextBuffer }
  rw [Snapshot.world_capture] at hplaced
  rcases hr with ⟨e, hrun, happly⟩ | ⟨hrun, happly⟩ <;> rw [hrun] at hplaced <;> rw [happly]
  · dsimp only
    rw [Snapshot.world_revertStreams]
    exact hplaced htidy
  · exact hplaced htidy

end Redirect

namespace Session

/-- None of the names on the machine has a NUL. -/
def Tidy (s : Session) : Prop := s.host.world.tree.Tidy

theorem stint_tidy : Stint fun s t ↦ s.Tidy → t.Tidy where
  refl _ := id
  trans h h' htidy := h' (h htidy)
  clock _ _ _ := id
  adopt s p htidy := by
    unfold Tidy
    rw [(host_apply p s.host).1]
    exact htidy
  records _ _ := id
  harvesters _ _ _ := id
  modifyChild _ _ _ := id
  aliases _ _ := id
  sharedAliases _ _ := id
  cancel _ := id
  write _ _ _ _ hwrite htidy := Host.tidy_write htidy hwrite
  environment _ _ := id
  cwd _ _ := id
  look _ := id
  exitRequest _ _ := id
  redirect _ _ _ htidy := Redirect.tidy_apply htidy _ _ _ _
  revert s snapshot htidy := by
    unfold Tidy revert
    rw [Snapshot.world_revertStreams]
    exact htidy
  closeDescriptor _ _ := id
  addBuffer _ := id
  commence _ _ _ := id
  runPump s p htidy := by
    have hpumped : (s.pumped p).Tidy := by
      unfold Tidy pumped drawn
      split
      · rename_i os world hread
        obtain ⟨f, -, hread⟩ := Option.map_eq_some_iff.mp hread
        exact (World.tree_read hread).symm ▸ htidy
      · exact htidy
    rw [runPump_eq]
    split <;> exact hpumped
  replay s buffer htidy := by
    have hpiped : s.host.pipe.2.world.tree.Tidy := s.host.tree_pipe.symm ▸ htidy
    unfold Session.replay
    split
    · rename_i hpipe
      rw [hpipe] at hpiped
      exact hpiped
    · rename_i hpipe
      rw [hpipe] at hpiped
      dsimp only at hpiped ⊢
      split
      · rename_i hwrite
        have hwritten := Host.tidy_write hpiped hwrite
        exact hwritten
      · exact hpiped
  level _ _ := id
  enter _ _ _ := id
  join _ _ := id

end Session

/-! ## Plans of builtins -/

namespace PlanAction

variable {a b : Situation} {index : Nat} {r : RunningStage}

theorem sameFrom_released (a : Situation) (index : Nat) : SameFrom 0 a.1 (released a index).1 := by
  unfold released
  split
  · exact .refl 0 _
  · rename_i hr
    dsimp only
    split
    · exact sameFrom_withStage_of_stage_eq hr rfl
    · split <;> exact sameFrom_withStage_of_stage_eq hr rfl

theorem sameFrom_foldl_released (is : List Nat) (a : Situation) :
    SameFrom 0 a.1 (is.foldl released a).1 := by
  induction is generalizing a with
  | nil => exact .refl 0 _
  | cons i is ih => exact (sameFrom_released a i).trans (ih _)

theorem sameFrom_withoutHarvesters (p : PlanState) : SameFrom 0 p p.withoutHarvesters := by
  refine ⟨Array.size_map, fun j _ ↦ ?_⟩
  rw [PlanState.withoutHarvesters, Array.getElem?_map, Option.map_map]
  rfl

theorem Bookkeeping.sameFrom {x : PlanAction Unit} (hx : Bookkeeping x) (hgives : x.Gives a () b) :
    SameFrom 0 a.1 b.1 := by
  cases hx with
  | prepare index =>
    obtain ⟨-, rfl⟩ := (gives_prepare index a).unique hgives
    exact sameFrom_prepared a.1 index
  | pass index =>
    obtain ⟨-, rfl⟩ := (gives_pass index a).unique hgives
    exact sameFrom_passed a.1 index
  | setLevel level =>
    obtain ⟨-, rfl⟩ := (gives_setLevel level a).unique hgives
    exact .refl 0 _
  | report e =>
    obtain ⟨-, rfl⟩ := eq_of_gives_tell hgives
    exact .refl 0 _
  | cancelStages =>
    obtain ⟨-, rfl⟩ := (gives_cancelStages a).unique hgives
    exact sameFrom_withoutHarvesters a.1
  | release =>
    obtain ⟨-, rfl⟩ := (gives_release a).unique hgives
    exact sameFrom_foldl_released _ a

theorem RunsBuiltin.sameFrom_zero {cmd : Builtin} {result : Except EngineError StageResult}
    (hrun : RunsBuiltin index r cmd a result b) (hr : a.1.plan.stages[index]? = some r) :
    SameFrom 0 a.1 b.1 := by
  have hstage := a.2.stage_redirect r true
  have hplace {placed : RunningStage} (hplaced : placed.stage = r.stage) :
      SameFrom 0 a.1 (withStage a.1 index placed) :=
    sameFrom_withStage_of_stage_eq hr hplaced
  cases hrun with
  | misplaced hplaced =>
    rw [hplaced] at hstage
    exact hplace hstage
  | ran hplaced =>
    rw [hplaced] at hstage
    exact hplace hstage
  | @piped snapshot placed _ _ _ _ _ _ _ hplaced _ _ _ hhand =>
    rw [hplaced] at hstage
    have hdrained : ({ placed with pendingDrains := [] } : RunningStage).stage = r.stage := hstage
    exact (hplace hdrained).trans hhand.sameFrom

end PlanAction

def Plan.IsBuiltin (plan : Plan) : Prop :=
  ∀ stage ∈ plan.stages, ∃ cmd, Builtin.ofName? stage.program = some cmd

/-- The stages are to run what a plan says, on a tidy machine. -/
structure Plan.Proper (plan : Plan) (a : Situation) : Prop where
  ahead : Ahead plan 0 a.1
  tidy : a.2.Tidy

namespace Plan.Proper

variable {plan : Plan} {a b : Situation} {index : Nat} {r : RunningStage}

theorem starting {s : Session} (htidy : s.Tidy) : plan.Proper (s.starting plan) := by
  refine ⟨ahead_starting s plan, ?_⟩
  obtain ⟨records, hbegin⟩ := s.exists_begin_eq plan
  unfold Session.Tidy Session.starting
  rw [hbegin]
  exact htidy

theorem exists_builtin (h : plan.Proper a) (hplan : plan.IsBuiltin)
    (hr : a.1.plan.stages[index]? = some r) :
    plan.stages[index]? = some r.stage ∧ ∃ cmd, Builtin.ofName? r.stage.program = some cmd := by
  have hstage := h.ahead.stage index (Nat.zero_le index)
  rw [hr] at hstage
  exact ⟨hstage.symm, hplan r.stage (List.mem_of_getElem? hstage.symm)⟩

theorem visit (h : plan.Proper a) (hplan : plan.IsBuiltin)
    {result : Except EngineError StageResult} (hrun : (runStage index).Gives a result b) :
    plan.Proper b := by
  have hnamed {r : RunningStage} (hr : a.1.plan.stages[index]? = some r) :
      Builtin.ofName? r.stage.program ≠ none := by
    obtain ⟨-, cmd, hcmd⟩ := h.exists_builtin hplan hr
    rw [hcmd]
    exact Option.some_ne_none cmd
  cases runsStage_of_gives hrun with
  | builtin hr _ hrun =>
    exact ⟨h.ahead.of_sameFrom (hrun.sameFrom_zero hr) (Nat.le_refl 0) (Nat.le_refl 0),
      Session.stint_tidy.runsBuiltin hrun h.tidy⟩
  | program hr hname => exact absurd hname (hnamed hr)
  | delegated hr hname => exact absurd hname (hnamed hr)
  | notFound hr hname => exact absurd hname (hnamed hr)
  | absent => exact h

/-- All along the trail of a plan of builtins its stages are to run what it says, and the machine is
tidy. -/
theorem trail (h : plan.Proper a) (hplan : plan.IsBuiltin) {visits : List Visit}
    (htrail : Trail a visits b) : plan.Proper b ∧
      ∀ v ∈ visits, plan.Proper v.start ∧ (runStage v.stage).Gives v.start v.result v.stop := by
  induction htrail with
  | done a => exact ⟨h, fun _ hv ↦ absurd hv List.not_mem_nil⟩
  | keep hkeeps hx _ ih =>
    exact ih ⟨h.ahead.of_sameFrom (hkeeps.sameFrom hx) (Nat.le_refl 0) (Nat.le_refl 0),
      Session.stint_tidy.bookkeeping hkeeps hx h.tidy⟩
  | visit hrun _ ih =>
    have hrest := ih (h.visit hplan hrun)
    exact ⟨hrest.1, List.forall_mem_cons.mpr ⟨⟨h, hrun⟩, hrest.2⟩⟩

end Plan.Proper

end ShellEngine
