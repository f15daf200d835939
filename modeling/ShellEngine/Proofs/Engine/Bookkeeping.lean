import ShellEngine.Proofs.Engine.Behind
import ShellEngine.Proofs.Engine.Steady

/-!
# What is done beside running stages

Between the stages of a plan, and after the last one, books are kept: buffers are passed on, levels
are set, errors are reported, and stages that still run are ended or handed to the job table. Each of
these actions but the reports is a function of the situation (`prepared`, `passed`, `released`):
none of those crashes. None starts anything, and only setting the level changes the level.

A plan of which nothing was started yet has nothing to end and nothing to hand over
(`gives_cancelStages_of_idle`, `gives_release_of_idle`).
-/

namespace ShellEngine

namespace PlanAction

/-! ## Before and after a stage -/

/-- A plan once a stage was got ready. -/
def prepared (p : PlanState) (index : Nat) : PlanState :=
  match p.plan.stages[index]?, p.lastBuffer with
  | some r, some (buffer, true) =>
    if r.stage.stdout == .buffer && r.stdoutBuffer.isNone then
      withStage p index { r with stdoutBuffer := some buffer }
    else p
  | _, _ => p

theorem gives_prepare (index : Nat) (a : Situation) :
    (prepare index).Gives a () (prepared a.1 index, a.2) := by
  unfold prepare prepared
  rw [(gives_stage? index a).bind_iff]
  cases a.1.plan.stages[index]? with
  | none => exact gives_pure () a
  | some r =>
    refine (gives_get a).bind ?_
    rcases a.1.lastBuffer with _ | ⟨buffer, _ | _⟩
    · exact gives_pure () a
    · exact gives_pure () a
    · dsimp only
      split
      · exact gives_setStage _ _ a
      · exact gives_pure () a

theorem sameFrom_prepared (p : PlanState) (index : Nat) : SameFrom 0 p (prepared p index) := by
  unfold prepared
  split
  · rename_i hr _
    split
    · exact sameFrom_withStage_of_stage_eq hr rfl
    · exact .refl 0 p
  · exact .refl 0 p

theorem prepared_of_lastBuffer_eq_none {p : PlanState} (h : p.lastBuffer = none) (index : Nat) :
    prepared p index = p := by
  unfold prepared
  rw [h]
  cases p.plan.stages[index]? <;> rfl

/-- A plan once the buffer of a stage was noted. -/
def passed (p : PlanState) (index : Nat) : PlanState :=
  match p.plan.stages[index]?.bind fun r ↦ r.stdoutBuffer.map (·, r.stage.waits) with
  | some buffer => { p with lastBuffer := some buffer }
  | none => p

theorem gives_pass (index : Nat) (a : Situation) :
    (pass index).Gives a () (passed a.1 index, a.2) := by
  unfold pass passed
  rw [(gives_stage? index a).bind_iff]
  rcases a.1.plan.stages[index]? with _ | r
  · exact gives_pure () a
  · rcases hbuffer : r.stdoutBuffer with _ | buffer <;> simp only [hbuffer, Option.bind_some]
    · exact gives_pure () a
    · exact gives_modify _ a

theorem plan_passed (p : PlanState) (index : Nat) : (passed p index).plan = p.plan := by
  unfold passed
  split <;> rfl

theorem sameFrom_passed (p : PlanState) (index : Nat) : SameFrom 0 p (passed p index) := by
  refine ⟨?_, fun j _ ↦ ?_⟩ <;> rw [plan_passed]

theorem gives_setLevel (level : Int) (a : Situation) :
    (liftM (Action.setLevel level) : PlanAction Unit).Gives a () (a.1, { a.2 with level }) := rfl

/-! ## After the last stage -/

end PlanAction

namespace Session

/-- The children of some stages get a signal. -/
def signal (s : Session) (stages : List RunningStage) (number : Nat) : Session :=
  stages.foldl (fun s r ↦ r.child.elim s fun c ↦ s.kill c number false) s

/-- Some stages are asked to end, and after the grace period they are ended, with all that their
harvesters trace. -/
def endStages (s : Session) (stages : List RunningStage) : Session :=
  let asked := s.signal stages terminateSignal
  let waited := asked.passUntil (asked.now + asked.settings.cancel.gracePeriod * 1000)
  stages.foldl (fun s r ↦ r.harvester.elim s fun key ↦ s.killTraced key r.record)
    (waited.signal stages killSignal)

def joinStages (s : Session) (stages : List RunningStage) : Session :=
  stages.foldl (fun s r ↦ r.harvester.elim s s.join) s

/-- Whether a stage has a harvester that still has something to trace. -/
def traces (s : Session) (r : RunningStage) : Bool :=
  match r.harvester with
  | none => false
  | some key =>
    let record := s.record r.record
    let rootExited :=
      match r.child.bind s.child? with
      | some c => !c.isRunning s.now
      | none => true
    !(record.tracingEnded || ((s.harvesters[key]?).map Harvester.ended).getD true ||
      (rootExited && record.debugged.isEmpty))

def enter (s : Session) (r : RunningStage) (harvester : Option Nat) : Session :=
  { s with jobs := (s.jobs.register r.stage.text r.child harvester).2 }

theorem steady_signal (s : Session) (stages : List RunningStage) (number : Nat) :
    s.Steady (s.signal stages number) := by
  refine .foldl (fun s r ↦ ?_) stages s
  cases r.child with
  | none => exact .refl s
  | some c => exact s.steady_kill c number false

theorem steady_endStages (s : Session) (stages : List RunningStage) :
    s.Steady (s.endStages stages) := by
  refine (s.steady_signal stages _).trans ((steady_passUntil _ _).trans
    ((steady_signal _ stages _).trans (.foldl (fun s r ↦ ?_) stages _)))
  cases r.harvester with
  | none => exact .refl s
  | some key => exact s.steady_killTraced key r.record

theorem steady_joinStages (s : Session) (stages : List RunningStage) :
    s.Steady (s.joinStages stages) :=
  .foldl (fun s (r : RunningStage) ↦ s.steady_joinOf r.harvester) stages s

end Session

/-- A plan all of whose stages let go of their harvesters. -/
def PlanState.withoutHarvesters (p : PlanState) : PlanState :=
  { p with plan := { p.plan with stages := p.plan.stages.map fun r ↦ { r with harvester := none } } }

namespace PlanAction

/-- Ending the stages that still run. -/
theorem gives_cancelStages (a : Situation) :
    cancelStages.Gives a () (a.1.withoutHarvesters,
      (a.2.endStages a.1.plan.stages.toList).joinStages a.1.plan.stages.toList) :=
  (gives_get a).bind ((gives_change _ a).bind (gives_modify _ _))

theorem gives_harvesterKeeps (r : RunningStage) (a : Situation) :
    (release.harvesterKeeps r).Gives a (a.2.traces r) a := by
  unfold release.harvesterKeeps Session.traces
  rw [(gives_session a).bind_iff]
  cases r.harvester with
  | none => exact gives_pure _ a
  | some key => exact gives_pure _ a

/-- A situation once a stage was handed to the job table, if it goes on. -/
def released (a : Situation) (index : Nat) : Situation :=
  match a.1.plan.stages[index]? with
  | none => a
  | some r =>
    if a.2.traces r then
      (withStage a.1 index { r with child := none, harvester := none }, a.2.enter r r.harvester)
    else
      let joined := r.harvester.elim a.2 a.2.join
      if !r.stage.waits && r.stage.stdout != .pipe && r.child.isSome then
        (withStage a.1 index { r with child := none, harvester := none }, joined.enter r none)
      else (withStage a.1 index { r with harvester := none }, joined)

/-- Handing the stages that go on to the job table. -/
theorem gives_release (a : Situation) :
    release.Gives a () ((List.range a.1.plan.stages.size).foldl released a) := by
  unfold release
  refine (gives_get a).bind (gives_forIn (fun index b ↦ ?_) _ a)
  refine (gives_stage? index b).bind ?_
  unfold released
  cases b.1.plan.stages[index]? with
  | none => exact gives_pure _ b
  | some r =>
    refine (gives_harvesterKeeps r b).bind ?_
    dsimp only
    split
    · exact (gives_change _ b).bind ((gives_setStage _ _ _).bind (gives_pure _ _))
    · refine (gives_change _ b).bind ?_
      split
      · exact (gives_change _ _).bind ((gives_setStage _ _ _).bind (gives_pure _ _))
      · exact (gives_setStage _ _ _).bind (gives_pure _ _)

theorem steady_released (a : Situation) (index : Nat) : a.2.Steady (released a index).2 := by
  unfold released
  split
  · exact .refl a.2
  · rename_i r _
    dsimp only
    split
    · exact ⟨rfl, id, rfl⟩
    · split
      · exact (a.2.steady_joinOf r.harvester).trans ⟨rfl, id, rfl⟩
      · exact a.2.steady_joinOf r.harvester

theorem steady_foldl_released (is : List Nat) (a : Situation) :
    a.2.Steady (is.foldl released a).2 := by
  induction is generalizing a with
  | nil => exact .refl a.2
  | cons i is ih => exact (steady_released a i).trans (ih _)

/-! ## Plans of which nothing was started -/

/-- No stage has a child or a harvester. -/
def Idle (p : PlanState) : Prop := ∀ r ∈ p.plan.stages, r.child = none ∧ r.harvester = none

theorem foldl_eq_of_forall {α β : Type} {f : β → α → β} {as : List α} {b : β}
    (h : ∀ a ∈ as, f b a = b) : as.foldl f b = b := by
  induction as with
  | nil => rfl
  | cons a as ih =>
    rw [List.foldl_cons, h a List.mem_cons_self]
    exact ih fun a ha ↦ h a (List.mem_cons_of_mem _ ha)

/-- Without anything to end, only the grace period passes. -/
theorem gives_cancelStages_of_idle {a : Situation} (h : Idle a.1) :
    cancelStages.Gives a ()
      (a.1, a.2.passUntil (a.2.now + a.2.settings.cancel.gracePeriod * 1000)) := by
  have hsignal (number : Nat) (s : Session) : s.signal a.1.plan.stages.toList number = s :=
    foldl_eq_of_forall fun r hr ↦ by rw [(h r (Array.mem_toList_iff.mp hr)).1]; rfl
  have htraced (s : Session) : a.1.plan.stages.toList.foldl
      (fun s r ↦ r.harvester.elim s fun key ↦ s.killTraced key r.record) s = s :=
    foldl_eq_of_forall fun r hr ↦ by rw [(h r (Array.mem_toList_iff.mp hr)).2]; rfl
  have hjoin (s : Session) : s.joinStages a.1.plan.stages.toList = s :=
    foldl_eq_of_forall fun r hr ↦ by rw [(h r (Array.mem_toList_iff.mp hr)).2]; rfl
  have hstages : a.1.plan.stages.map (fun r ↦ { r with harvester := none }) = a.1.plan.stages := by
    refine (Array.map_congr_left fun r hr ↦ ?_).trans (Array.map_id _)
    obtain ⟨stage, record, child, harvester, _⟩ := r
    obtain ⟨-, rfl : harvester = none⟩ := h _ hr
    rfl
  have hgives := gives_cancelStages a
  rwa [PlanState.withoutHarvesters, hstages, hjoin, Session.endStages, htraced, hsignal,
    hsignal] at hgives

theorem withStage_of_getElem? {p : PlanState} {index : Nat} {r : RunningStage}
    (h : p.plan.stages[index]? = some r) : withStage p index r = p := by
  have hstages : p.plan.stages.modify index (fun _ ↦ r) = p.plan.stages := by
    refine Array.ext_getElem? fun j ↦ ?_
    rw [Array.getElem?_modify]
    split
    · rename_i hj
      rw [← hj, h]
      rfl
    · rfl
  rw [withStage, hstages]

theorem released_of_idle {a : Situation} (h : Idle a.1) (index : Nat) : released a index = a := by
  unfold released
  cases hr : a.1.plan.stages[index]? with
  | none => rfl
  | some r =>
    obtain ⟨stage, record, child, harvester, _⟩ := r
    obtain ⟨rfl : child = none, rfl : harvester = none⟩ := h _ (Array.mem_of_getElem? hr)
    simp only [Session.traces, Option.isSome_none, Bool.and_false, Bool.false_eq_true, if_false]
    rw [withStage_of_getElem? hr]
    rfl

theorem gives_release_of_idle {a : Situation} (h : Idle a.1) : release.Gives a () a := by
  have hgives := gives_release a
  rwa [foldl_eq_of_forall fun index _ ↦ released_of_idle h index] at hgives

end PlanAction

end ShellEngine
