import ShellEngine.Proofs.Engine.Ways

/-!
# The stages behind

Running a stage changes what the stages behind it hold on to at most by the input that one of them
is handed. How many they are, and what they are to run, stays as it is (`sameFrom_of_runStage`).
-/

namespace ShellEngine

namespace PlanAction

variable {index : Nat}

/-- The plan has as many stages as before, and those from an index on are to run the same. -/
structure SameFrom (index : Nat) (p q : PlanState) : Prop where
  size : q.plan.stages.size = p.plan.stages.size
  stage : ∀ j, index ≤ j →
    q.plan.stages[j]?.map RunningStage.stage = p.plan.stages[j]?.map RunningStage.stage

theorem SameFrom.refl (index : Nat) (p : PlanState) : SameFrom index p p := ⟨rfl, fun _ _ ↦ rfl⟩

theorem SameFrom.trans {p q u : PlanState} (h : SameFrom index p q) (h' : SameFrom index q u) :
    SameFrom index p u :=
  ⟨h'.size.trans h.size, fun j hj ↦ (h'.stage j hj).trans (h.stage j hj)⟩

theorem sameFrom_withStage (index : Nat) (p : PlanState) (r : RunningStage) :
    SameFrom (index + 1) p (withStage p index r) := by
  refine ⟨Array.size_modify, fun j hj ↦ ?_⟩
  rw [withStage, Array.getElem?_modify, if_neg (Nat.ne_of_lt hj)]

theorem sameFrom_withStage_of_stage_eq {p : PlanState} {j : Nat} {old new : RunningStage}
    (hold : p.plan.stages[j]? = some old) (hnew : new.stage = old.stage) :
    SameFrom index p (withStage p j new) := by
  refine ⟨Array.size_modify, fun i _ ↦ ?_⟩
  rw [withStage, Array.getElem?_modify]
  split
  · rename_i hij
    rw [← hij, hold]
    exact congrArg some hnew
  · rfl

variable {r : RunningStage} {a b : Situation} {result : Except EngineError StageResult}

theorem HandsOff.sameFrom {reader : Option Nat} {i : Nat} (h : HandsOff index a reader b) :
    SameFrom i a.1 b.1 := by
  cases h with
  | nothing => exact .refl _ _
  | dropped => exact .refl _ _
  | handed hnext => exact sameFrom_withStage_of_stage_eq hnext rfl

theorem Awaits.sameFrom {waited : Except EngineError Int} (h : Awaits index r a waited b) :
    SameFrom (index + 1) a.1 b.1 := by
  cases h with
  | lost => exact .refl _ _
  | completed => exact .refl _ _
  | cancelled => exact .refl _ _
  | backgrounded => exact sameFrom_withStage _ _ _

theorem RunsBuiltin.sameFrom {cmd : Builtin} (h : RunsBuiltin index r cmd a result b) :
    SameFrom (index + 1) a.1 b.1 := by
  cases h with
  | misplaced => exact sameFrom_withStage _ _ _
  | ran => exact sameFrom_withStage _ _ _
  | piped _ _ _ _ hhand => exact (sameFrom_withStage _ _ _).trans hhand.sameFrom

theorem RunsProgram.sameFrom {target : String} (h : RunsProgram index r target a result b) :
    SameFrom (index + 1) a.1 b.1 := by
  cases h with
  | misplaced => exact sameFrom_withStage _ _ _
  | unlaunched => exact sameFrom_withStage _ _ _
  | unattended _ _ hhand => exact (sameFrom_withStage _ _ _).trans hhand.sameFrom
  | lost _ _ _ hwait => exact (sameFrom_withStage _ _ _).trans hwait.sameFrom
  | attended _ _ _ hwait hhand =>
    exact (sameFrom_withStage _ _ _).trans (hwait.sameFrom.trans hhand.sameFrom)

theorem sameFrom_of_runStage (h : (runStage index).Gives a result b) :
    SameFrom (index + 1) a.1 b.1 := by
  cases runsStage_of_gives h with
  | builtin _ _ hrun => exact hrun.sameFrom
  | program _ _ _ hrun => exact hrun.sameFrom
  | delegated => exact .refl _ _
  | notFound => exact .refl _ _
  | absent => exact .refl _ _

end PlanAction

end ShellEngine
