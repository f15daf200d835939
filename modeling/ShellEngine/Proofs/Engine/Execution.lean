import ShellEngine.Proofs.Engine.Bookkeeping

/-!
# The ways in which a plan is executed

An empty plan is done at once. A plan of several stages for which nobody waits is handed to a new
instance as a whole (`Plan.isHandedOver`). Every other plan is run stage by stage from where `begin`
puts it (`Session.starting`), with nothing started yet.
-/

namespace ShellEngine

/-- Whether a plan goes to a new instance as a whole. -/
def Plan.isHandedOver (plan : Plan) (wantsOutput isSubshell : Bool) : Bool :=
  !wantsOutput && plan.stages.length > 1 && !plan.waits && !isSubshell

namespace Session

/-! ## Plans that are about to run -/

/-- One more stage that is about to run. -/
def beginStage (a : Session × Array RunningStage) (stage : Stage) : Session × Array RunningStage :=
  (a.1.addRecord.2, a.2.push { stage, record := a.1.addRecord.1 })

theorem foldl_beginStage (stages : List Stage) (s : Session) (begun : Array RunningStage) :
    (∃ records, (stages.foldl beginStage (s, begun)).1 = { s with records }) ∧
      (stages.foldl beginStage (s, begun)).2.toList.map RunningStage.stage
        = begun.toList.map RunningStage.stage ++ stages ∧
      ∀ r ∈ (stages.foldl beginStage (s, begun)).2,
        r ∈ begun ∨ r = { stage := r.stage, record := r.record } := by
  -- The stages that were begun before stand in front of the new ones.
  induction stages generalizing s begun with
  | nil => exact ⟨⟨s.records, rfl⟩, by simp, fun r hr ↦ Or.inl hr⟩
  | cons stage stages ih =>
    obtain ⟨⟨records, hsession⟩, hstages, hbare⟩ := ih (beginStage (s, begun) stage).1
      (beginStage (s, begun) stage).2
    rw [List.foldl_cons]
    refine ⟨⟨records, hsession⟩, hstages.trans ?_, fun r hr ↦ ?_⟩
    · simp [beginStage]
    · rcases hbare r hr with hbegun | hnew
      · rcases Array.mem_push.mp hbegun with hold | rfl
        · exact Or.inl hold
        · exact Or.inr rfl
      · exact Or.inr hnew

/-- A plan that is about to run changes nothing in the session but what stages will share with
harvesters. -/
theorem exists_begin_eq (s : Session) (plan : Plan) :
    ∃ records, (s.begin plan).2 = { s with records } :=
  (foldl_beginStage plan.stages s #[]).1

theorem isSubshell_begin (s : Session) (plan : Plan) :
    (s.begin plan).2.isSubshell = s.isSubshell := by
  obtain ⟨records, hbegin⟩ := s.exists_begin_eq plan
  rw [hbegin]

theorem stages_begin (s : Session) (plan : Plan) :
    (s.begin plan).1.stages.toList.map RunningStage.stage = plan.stages :=
  (foldl_beginStage plan.stages s #[]).2.1

/-- A plan at its start. -/
def starting (s : Session) (plan : Plan) : Situation :=
  ({ plan := (s.begin plan).1 }, (s.begin plan).2)

theorem eq_of_mem_starting {s : Session} {plan : Plan} {r : RunningStage}
    (h : r ∈ (s.starting plan).1.plan.stages) : r = { stage := r.stage, record := r.record } :=
  ((foldl_beginStage plan.stages s #[]).2.2 r h).resolve_left (Array.not_mem_empty r)

theorem idle_starting (s : Session) (plan : Plan) : PlanAction.Idle (s.starting plan).1 :=
  fun _ hr ↦ ⟨congrArg RunningStage.child (eq_of_mem_starting hr),
    congrArg RunningStage.harvester (eq_of_mem_starting hr)⟩

theorem level_starting (s : Session) (plan : Plan) : (s.starting plan).2.level = s.level := by
  obtain ⟨records, hbegin⟩ := s.exists_begin_eq plan
  rw [starting, hbegin]

theorem rules_starting (s : Session) (plan : Plan) :
    (s.starting plan).1.plan.rules = plan.rules := by
  rw [RunningPlan.rules, Plan.rules, ← s.stages_begin plan, List.map_map]
  rfl

theorem getElem?_starting (s : Session) (plan : Plan) (index : Nat) :
    (s.starting plan).1.plan.stages[index]?.map RunningStage.stage = plan.stages[index]? := by
  rw [← s.stages_begin plan, List.getElem?_map, Array.getElem?_toList]
  rfl

end Session

namespace Action

/-! ## Executing a plan -/

variable {s : Session} {plan : Plan} {wantsOutput : Bool}

theorem outcome_execute_nil (hnil : plan.stages = []) :
    (execute plan wantsOutput).outcome s = (.ok (none, (s.begin plan).1), (s.begin plan).2) := by
  unfold execute
  rw [outcome_bind, outcome_ask, hnil]
  rfl

theorem outcome_execute_of_ne (hne : plan.stages ≠ []) :
    (execute plan wantsOutput).outcome s =
      (if plan.isHandedOver wantsOutput s.isSubshell then
        (do delegate plan.text
            return (none, (s.begin plan).1))
      else do
        let (buffer, state) ← PlanAction.runAll.run { plan := (s.begin plan).1 }
        return (buffer, state.plan)).outcome (s.begin plan).2 := by
  have hempty : plan.stages.isEmpty = false := by simpa using hne
  unfold execute
  rw [outcome_bind, outcome_ask, hempty]
  simp only [Bool.false_eq_true, if_false]
  rw [outcome_bind, outcome_get]
  simp only [Session.isSubshell_begin]
  rfl

theorem outcome_execute_handedOver (hover : plan.isHandedOver wantsOutput s.isSubshell = true) :
    (execute plan wantsOutput).outcome s =
      (delegate plan.text >>= fun _ ↦ pure (none, (s.begin plan).1)).outcome (s.begin plan).2 := by
  have hne : plan.stages ≠ [] := by
    rintro hnil
    simp [Plan.isHandedOver, hnil] at hover
  rw [outcome_execute_of_ne hne, hover, if_pos rfl]

theorem outcome_execute_here (hne : plan.stages ≠ [])
    (hhere : plan.isHandedOver wantsOutput s.isSubshell = false) :
    (execute plan wantsOutput).outcome s =
      match PlanAction.runAll.outcome (s.starting plan) with
      | (.ok (buffer, p), t) => (.ok (buffer, p.plan), t)
      | (.error e, t) => (.error e, t) := by
  have hrun : PlanAction.runAll.outcome (s.starting plan)
      = (PlanAction.runAll.run { plan := (s.begin plan).1 }).outcome (s.begin plan).2 := rfl
  rw [outcome_execute_of_ne hne, hhere, if_neg (by simp), outcome_bind, hrun]
  rcases (PlanAction.runAll.run { plan := (s.begin plan).1 }).outcome (s.begin plan).2 with
    ⟨e | ⟨buffer, p⟩, t⟩ <;> rfl

end Action

end ShellEngine
