import ShellEngine.Proofs.Engine.Bookkeeping
import ShellEngine.Proofs.Engine.Verdict

/-!
# Trails

What happens while a plan is run falls into the stages that are run and the books that are kept in
between. A *trail* leads from one situation to another and tells the stages that are run on the
way, each with the situation in which it was run and what came of it. Beside them it admits nothing
but bookkeeping, so it is all that happened (`Trail`).

`drive` deals with one stage at a time. A turn ends before the stage is run if the cancellation
signal is up, crashes with the stage, or adds one visit to the trail. Then it crashes if an error of
the stage cannot be reported (`Visit.fault?`), and goes on as the visit says otherwise
(`Visit.turn`).
-/

namespace ShellEngine

/-- A stage that is run: where that begins, what comes of it, and where it ends. -/
structure Visit where
  stage : Nat
  start : Situation
  result : Except EngineError StageResult
  stop : Situation

namespace Visit

/-- The status that a stage leaves: the code that it gave, or one for an error. A stage that was
handed to a new instance leaves zero. -/
def status (v : Visit) : Int :=
  match v.result with
  | .ok (.status code) => code
  | .ok .delegated => exitSuccess
  | .error _ => exitFailure

/-- Whether one of the redirections of the stage failed. -/
def isRefused (v : Visit) : Bool :=
  match v.result with
  | .ok _ => false
  | .error e => e.isRedirection

/-- The crash over an error of the stage that cannot be reported. -/
def fault? (v : Visit) : Option Crash :=
  match v.result with
  | .ok _ => none
  | .error e => v.stop.2.silence? e.report

theorem exists_of_fault? {v : Visit} {crash : Crash} (h : v.fault? = some crash) :
    ∃ cause, crash = .standardError cause := by
  unfold fault? at h
  split at h
  · cases h
  · exact exists_of_silence? h

/-- How a plan goes on after a stage. -/
def turn (v : Visit) : Turn :=
  match v.result with
  | .ok .delegated => .halt { delegated := true }
  | .ok (.status code) => .goOn code
  | .error e =>
    if e.isRedirection then .halt { ran := [(v.stage, exitFailure)] } else .goOn exitFailure

theorem turn_cases (v : Visit) :
    (v.isRefused = true ∧ ∃ passage, v.turn = .halt passage) ∨
      v.isRefused = false ∧ (v.turn = .goOn v.status ∨
        v.result = .ok .delegated ∧ ∃ passage, v.turn = .halt passage) := by
  unfold isRefused turn status
  rcases v.result with e | (code | _)
  · cases h : e.isRedirection with
    | true => exact Or.inl ⟨h, _, if_pos h⟩
    | false => exact Or.inr ⟨h, Or.inl (if_neg (by simp [h]))⟩
  · exact Or.inr ⟨rfl, Or.inl rfl⟩
  · exact Or.inr ⟨rfl, Or.inr ⟨rfl, _, rfl⟩⟩

end Visit

/-! ## Trails -/

namespace PlanAction

/-- The actions that keep books about a plan. None of them runs a stage. -/
inductive Bookkeeping : PlanAction Unit → Prop
  | prepare (index : Nat) : Bookkeeping (prepare index)
  | pass (index : Nat) : Bookkeeping (pass index)
  | setLevel (level : Int) : Bookkeeping (liftM (Action.setLevel level))
  | report (e : EngineError) : Bookkeeping (liftM (Action.report e))
  | cancelStages : Bookkeeping cancelStages
  | release : Bookkeeping release

/-- From one situation to another by way of the given visits, with nothing but bookkeeping in
between. -/
inductive Trail : Situation → List Visit → Situation → Prop
  | done (a : Situation) : Trail a [] a
  | keep {x : PlanAction Unit} {a b c : Situation} {visits : List Visit} (hkeeps : Bookkeeping x)
      (hx : x.Gives a () b) (rest : Trail b visits c) : Trail a visits c
  | visit {v : Visit} {visits : List Visit} {c : Situation}
      (hrun : (runStage v.stage).Gives v.start v.result v.stop) (rest : Trail v.stop visits c) :
      Trail v.start (v :: visits) c

theorem Trail.trans {a b c : Situation} {visits visits' : List Visit} (h : Trail a visits b)
    (h' : Trail b visits' c) : Trail a (visits ++ visits') c := by
  induction h with
  | done a => exact h'
  | keep hkeeps hx _ ih => exact .keep hkeeps hx (ih h')
  | visit hrun _ ih => exact .visit hrun (ih h')

theorem Bookkeeping.trail {x : PlanAction Unit} {a b : Situation} (hkeeps : Bookkeeping x)
    (hx : x.Gives a () b) : Trail a [] b :=
  .keep hkeeps hx (.done b)

/-! ## Turns -/

variable {a c : Situation} {index : Nat}

theorem gives_isCancelled (a : Situation) :
    conductor.isCancelled.Gives a a.2.cancellation.signaled a :=
  (gives_session a).bind (gives_pure _ a)

/-- With the cancellation signal up, a turn ends before its stage is run. -/
theorem gives_turn_of_signaled (hprepare : (prepare index).Gives a () c)
    (hsignaled : c.2.cancellation.signaled = true) :
    (conductor.turn index).Gives a (.halt {}) c := by
  unfold Conductor.turn
  refine hprepare.bind ((gives_isCancelled c).bind ?_)
  rw [hsignaled]
  exact gives_pure _ c

theorem crashes_turn (hprepare : (prepare index).Gives a () c)
    (hsignaled : c.2.cancellation.signaled = false) {crash : Crash} {s : Session}
    (hrun : (runStage index).Crashes c crash s) : (conductor.turn index).Crashes a crash s := by
  unfold Conductor.turn
  refine (hprepare.crashes_bind_iff _).mpr (((gives_isCancelled c).crashes_bind_iff _).mpr ?_)
  rw [hsignaled]
  exact hrun.bind _

/-- What a turn does after its stage was run. -/
def settle (index : Nat) : Except EngineError StageResult → PlanAction Turn
  | .ok .delegated => do
    liftM (Action.setLevel exitSuccess)
    return .halt { delegated := true }
  | .ok (.status code) => do
    liftM (Action.setLevel code)
    pass index
    return .goOn code
  | .error e => do
    liftM (Action.report e)
    liftM (Action.setLevel exitFailure)
    if e.isRedirection then return .halt { ran := [(index, exitFailure)] }
    pass index
    return .goOn exitFailure

theorem gives_turn_of_run (hprepare : (prepare index).Gives a () c)
    (hsignaled : c.2.cancellation.signaled = false) {result : Except EngineError StageResult}
    {d : Situation} (hrun : (runStage index).Gives c result d) {turn : Turn} {b : Situation}
    (hsettle : (settle index result).Gives d turn b) : (conductor.turn index).Gives a turn b := by
  unfold Conductor.turn
  refine hprepare.bind ((gives_isCancelled c).bind ?_)
  rw [hsignaled]
  refine hrun.bind ?_
  rcases result with e | (code | _) <;> exact hsettle

theorem crashes_turn_of_run (hprepare : (prepare index).Gives a () c)
    (hsignaled : c.2.cancellation.signaled = false) {result : Except EngineError StageResult}
    {d : Situation} (hrun : (runStage index).Gives c result d) {crash : Crash} {s : Session}
    (hsettle : (settle index result).Crashes d crash s) :
    (conductor.turn index).Crashes a crash s := by
  unfold Conductor.turn
  refine (hprepare.crashes_bind_iff _).mpr (((gives_isCancelled c).crashes_bind_iff _).mpr ?_)
  rw [hsignaled]
  refine (hrun.crashes_bind_iff _).mpr ?_
  rcases result with e | (code | _) <;> exact hsettle

/-- Where a turn ends. Of an error the buffer of the stage is noted too, unless a redirection
failed. -/
def settled (v : Visit) : Situation :=
  match v.result with
  | .ok .delegated => (v.stop.1, { v.stop.2 with level := exitSuccess })
  | .ok (.status code) => (passed v.stop.1 v.stage, { v.stop.2 with level := code })
  | .error e =>
    (if e.isRedirection then v.stop.1 else passed v.stop.1 v.stage,
      { v.stop.2 with
        host := v.stop.2.host.say 2 e.report, level := exitFailure })

theorem gives_settle {v : Visit} (htold : v.fault? = none) :
    (settle v.stage v.result).Gives v.stop v.turn (settled v) := by
  obtain ⟨index, start, result, stop⟩ := v
  rcases result with e | (code | _)
  · refine (gives_tell htold).bind ((gives_setLevel exitFailure _).bind ?_)
    simp only [Visit.turn, settled]
    cases e.isRedirection with
    | true => exact gives_pure _ _
    | false => exact (gives_pass index _).bind (gives_pure _ _)
  · exact (gives_setLevel code stop).bind ((gives_pass index _).bind (gives_pure _ _))
  · exact (gives_setLevel exitSuccess stop).bind (gives_pure _ _)

theorem crashes_settle {v : Visit} {crash : Crash} (hfault : v.fault? = some crash) :
    (settle v.stage v.result).Crashes v.stop crash v.stop.2 := by
  obtain ⟨index, start, result, stop⟩ := v
  rcases result with e | result
  · exact (crashes_tell hfault).bind _
  · cases hfault

theorem eq_of_gives_settle {v : Visit} {turn : Turn} {b : Situation}
    (h : (settle v.stage v.result).Gives v.stop turn b) :
    v.fault? = none ∧ turn = v.turn ∧ b = settled v := by
  cases hfault : v.fault? with
  | none => exact ⟨rfl, h.unique (gives_settle hfault)⟩
  | some crash =>
    rw [Gives, crashes_settle hfault] at h
    cases h

theorem sameFrom_settled (v : Visit) : SameFrom 0 v.stop.1 (settled v).1 := by
  unfold settled
  split
  · exact .refl 0 _
  · exact sameFrom_passed _ _
  · dsimp only
    split
    · exact .refl 0 _
    · exact sameFrom_passed _ _

theorem level_settled (v : Visit) : (settled v).2.level = v.status := by
  obtain ⟨index, start, result, stop⟩ := v
  rcases result with e | (code | _) <;> rfl

theorem trail_settled {v : Visit} (htold : v.fault? = none) : Trail v.stop [] (settled v) := by
  obtain ⟨index, start, result, stop⟩ := v
  rcases result with e | (code | _)
  · refine .keep (.report e) (gives_tell htold) (.keep (.setLevel exitFailure)
      (gives_setLevel exitFailure _) ?_)
    simp only [settled]
    cases e.isRedirection with
    | true => exact .done _
    | false => exact (Bookkeeping.pass index).trail (gives_pass index _)
  · exact .keep (.setLevel code) (gives_setLevel code stop)
      ((Bookkeeping.pass index).trail (gives_pass index _))
  · exact (Bookkeeping.setLevel exitSuccess).trail (gives_setLevel exitSuccess stop)

/-- With the signal down, a turn runs its stage and goes on as that says. -/
theorem gives_turn {v : Visit} (hprepare : (prepare v.stage).Gives a () v.start)
    (hsignaled : v.start.2.cancellation.signaled = false)
    (hrun : (runStage v.stage).Gives v.start v.result v.stop) (htold : v.fault? = none) :
    (conductor.turn v.stage).Gives a v.turn (settled v) ∧ Trail a [v] (settled v) :=
  ⟨gives_turn_of_run hprepare hsignaled hrun (gives_settle htold),
    .keep (.prepare _) hprepare (.visit hrun (trail_settled htold))⟩

theorem crashes_turn_of_fault {v : Visit} {crash : Crash}
    (hprepare : (prepare v.stage).Gives a () v.start)
    (hsignaled : v.start.2.cancellation.signaled = false)
    (hrun : (runStage v.stage).Gives v.start v.result v.stop) (hfault : v.fault? = some crash) :
    (conductor.turn v.stage).Crashes a crash v.stop.2 ∧ Trail a [v] v.stop :=
  ⟨crashes_turn_of_run hprepare hsignaled hrun (crashes_settle hfault),
    .keep (.prepare _) hprepare (.visit hrun (.done v.stop))⟩

/-! ## Driving a plan, turn by turn -/

variable {b : Situation} {rules : List Continuation} {next : Nat} {status : Int}
  {passage : Passage} {crash : Crash} {s : Session}

theorem gives_drive_of_halt (hturn : (conductor.turn index).Gives a (.halt passage) b) :
    (drive conductor rules index).Gives a passage b := by
  rw [drive]
  exact hturn.bind (gives_pure passage b)

theorem crashes_drive_of_turn (hturn : (conductor.turn index).Crashes a crash s) :
    (drive conductor rules index).Crashes a crash s := by
  rw [drive]
  exact hturn.bind _

theorem gives_drive_of_last (hturn : (conductor.turn index).Gives a (.goOn status) b)
    (hlast : nextStage rules index status = none) :
    (drive conductor rules index).Gives a { ran := [(index, status)] } b := by
  rw [drive]
  refine hturn.bind ?_
  dsimp only
  split
  · rename_i hnext
    rw [hlast] at hnext
    cases hnext
  · exact gives_pure _ b

theorem drive_of_next (hturn : (conductor.turn index).Gives a (.goOn status) b)
    (hnext : nextStage rules index status = some next) :
    (drive conductor rules index).outcome a =
      (drive conductor rules next >>= fun p ↦ pure (p.after index status)).outcome b := by
  rw [drive, outcome_bind, hturn]
  dsimp only
  split
  · rename_i next' h
    rw [hnext] at h
    cases h
    rfl
  · rename_i h
    rw [hnext] at h
    cases h

theorem gives_drive_of_next (hturn : (conductor.turn index).Gives a (.goOn status) b)
    (hnext : nextStage rules index status = some next)
    (hdrive : (drive conductor rules next).Gives b passage c) :
    (drive conductor rules index).Gives a (passage.after index status) c := by
  rw [Gives, drive_of_next hturn hnext]
  exact hdrive.bind (gives_pure _ c)

theorem crashes_drive_of_next (hturn : (conductor.turn index).Gives a (.goOn status) b)
    (hnext : nextStage rules index status = some next)
    (hdrive : (drive conductor rules next).Crashes b crash s) :
    (drive conductor rules index).Crashes a crash s := by
  rw [Crashes, drive_of_next hturn hnext]
  exact hdrive.bind _

end PlanAction

end ShellEngine
