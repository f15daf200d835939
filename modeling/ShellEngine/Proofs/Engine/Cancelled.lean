import ShellEngine.Proofs.Engine.Execution
import ShellEngine.Proofs.Engine.Trail

/-!
# Executing a plan once cancellation was requested

A session whose cancellation signal is up runs no stage of a plan: the signal is looked at before
the first one, and then only the grace period passes. A plan that goes to a new instance as a whole
leaves before anything looks at the signal, and is handed over all the same
(`execute_of_signaled`).
-/

namespace ShellEngine

open Machine

namespace PlanAction

/-- With the cancellation signal up, a plan of which nothing was started is done once the grace
period has passed. -/
theorem gives_runAll_of_signaled {a : Situation} (hidle : Idle a.1) (hbuffer : a.1.lastBuffer = none)
    (hsignaled : a.2.cancellation.signaled = true) :
    runAll.Gives a none
      (a.1, a.2.passUntil (a.2.now + a.2.settings.cancel.gracePeriod * 1000)) := by
  have hprepare := gives_prepare 0 a
  -- Without a buffer to continue, getting the stage ready leaves the plan as it is.
  rw [prepared_of_lastBuffer_eq_none hbuffer] at hprepare
  have hdrive : (drive conductor a.1.plan.rules 0).Gives a {} (a.1, a.2) :=
    gives_drive_of_halt (gives_turn_of_signaled hprepare hsignaled)
  have hrelease (s : Session) :
      (do release
          return (← get).lastBuffer.map (·.1) : PlanAction (Option Nat)).Gives
        (a.1, s) none (a.1, s) := by
    rw [(gives_release_of_idle (a := (a.1, s)) hidle).bind_iff, (gives_get _).bind_iff, hbuffer]
    exact gives_pure none _
  unfold runAll
  rw [(gives_get a).bind_iff, hdrive.bind_iff, if_neg (by simp), (gives_session _).bind_iff,
    if_pos hsignaled, (gives_cancelStages_of_idle hidle).bind_iff]
  exact hrelease _

end PlanAction

/-! ## Handing a plan over -/

namespace Session

theorem delegate_of_prepare {s : Session} {text program : String} {p : Process}
    (hprogram : s.subshellProgram = .ok program)
    (hprepare : s.host.prepare program [s.settings.subshell.switch, text] true = .ok p) :
    ∃ id t, s.delegate text = (.ok id, t) ∧ t.children.size = s.children.size + 1 := by
  unfold delegate
  rw [hprogram]
  dsimp only
  rw [hprepare]
  exact ⟨_, _, rfl, Array.size_push _⟩

/-- Handing a text to a new instance starts one child. Where that fails, nothing has changed. -/
theorem delegate_cases (s : Session) (text : String) :
    (∃ e, s.delegate text = (.error e, s)) ∨
      ∃ id t, s.delegate text = (.ok id, t) ∧ t.children.size = s.children.size + 1 := by
  rcases hprogram : s.subshellProgram with e | program
  · left
    unfold delegate
    rw [hprogram]
    exact ⟨e, rfl⟩
  · rcases hprepare : s.host.prepare program [s.settings.subshell.switch, text] true with e | p
    · left
      unfold delegate
      rw [hprogram]
      dsimp only
      rw [hprepare]
      exact ⟨_, rfl⟩
    · exact Or.inr (delegate_of_prepare hprogram hprepare)

end Session

namespace Action

variable {plan : Plan} {wantsOutput : Bool} {s : Session}

/-- What comes of handing a plan over to a new instance. -/
inductive HandsOver (plan : Plan) (s : Session) :
    Except Crash (Option Nat × RunningPlan) → Session → Prop
  | started {id : Nat} {u t : Session}
      (hdelegate : (s.begin plan).2.delegate plan.text = (.ok id, u))
      (hchildren : t.children.size = s.children.size + 1) (hlevel : t.level = exitSuccess) :
      HandsOver plan s (.ok (none, (s.begin plan).1)) t
  | failed {e : EngineError} {u t : Session}
      (hdelegate : (s.begin plan).2.delegate plan.text = (.error e, u))
      (htold : s.silence? e.report = none) (hchildren : t.children.size = s.children.size)
      (hlevel : t.level = exitFailure) : HandsOver plan s (.ok (none, (s.begin plan).1)) t
  /-- The engine can neither hand the plan over nor report that. -/
  | untold {e : EngineError} {u t : Session} {crash : Crash}
      (hdelegate : (s.begin plan).2.delegate plan.text = (.error e, u))
      (hsilence : s.silence? e.report = some crash) (hchildren : t.children.size = s.children.size)
      (hlevel : t.level = s.level) : HandsOver plan s (.error crash) t

theorem execute_of_isHandedOver (hover : plan.isHandedOver wantsOutput s.isSubshell = true) :
    ∃ result t, (execute plan wantsOutput).outcome s = (result, t) ∧ HandsOver plan s result t := by
  obtain ⟨records, hbegin⟩ := s.exists_begin_eq plan
  rw [outcome_execute_handedOver hover, delegate, outcome_bind, outcome_bind, outcome_ask]
  rcases (s.begin plan).2.delegate_cases plan.text with ⟨e, h⟩ | ⟨id, u, h, hchildren⟩
  · rw [h]
    dsimp only
    rw [outcome_bind, report, outcome_tell]
    have hsilence : (s.begin plan).2.silence? e.report = s.silence? e.report := by rw [hbegin]; rfl
    cases htold : s.silence? e.report with
    | none =>
      rw [hsilence, htold]
      exact ⟨_, _, rfl, .failed h htold (by rw [hbegin]) rfl⟩
    | some crash =>
      rw [hsilence, htold]
      exact ⟨_, _, rfl, .untold h htold (by rw [hbegin]) (by rw [hbegin])⟩
  · rw [h]
    exact ⟨_, _, rfl, .started h (by rw [hbegin] at hchildren; exact hchildren) rfl⟩

/-! ## Executing a plan -/

/-- **Executing a plan while the cancellation signal is up.** The stages of the plan come back as
they were begun. A plan that is handed over goes to a new instance as if nothing had happened: it
starts a child. No other plan starts one or changes the level, and all that happens is that the
grace period passes. -/
theorem execute_of_signaled (plan : Plan) (wantsOutput : Bool) (s : Session)
    (hsignaled : s.cancellation.signaled = true) :
    ∃ result t, (execute plan wantsOutput).outcome s = (result, t) ∧
      if plan.isHandedOver wantsOutput s.isSubshell then HandsOver plan s result t
      else
        result = .ok (none, (s.begin plan).1) ∧ s.Steady t ∧
          t = if plan.stages = [] then (s.begin plan).2
            else (s.begin plan).2.passUntil (s.now + s.settings.cancel.gracePeriod * 1000) := by
  obtain ⟨records, hbegin⟩ := s.exists_begin_eq plan
  have hbegun : s.Steady (s.begin plan).2 := by
    rw [hbegin]
    exact ⟨rfl, id, rfl⟩
  split
  · rename_i hover
    exact execute_of_isHandedOver hover
  · rename_i hhere
    rw [Bool.not_eq_true] at hhere
    refine ⟨_, _, ?_, rfl, ?_, rfl⟩
    · split
      · rename_i hnil
        exact outcome_execute_nil hnil
      · rename_i hne
        have hall := PlanAction.gives_runAll_of_signaled (s.idle_starting plan) rfl
          (by simpa only [Session.starting, hbegin] using hsignaled)
        rw [outcome_execute_here hne hhere, hall]
        simp only [Session.starting, hbegin]
        rfl
    · split
      · exact hbegun
      · exact hbegun.trans (Session.steady_passUntil _ _)

/-- A session whose cancellation signal is up, on a machine with one program, from which new
instances are started. -/
def interrupted : Session where
  settings := { subshell := { program := some "/sub" } }
  host := {
    world := { tree := { nodes := #[
      { content := .directory [("sub".toList, 1)] FileTree.root none, mode := 0o755 },
      { content := .program .alwaysTrue, mode := 0o755 }] } }
    cwd := FileTree.root
    descriptors := { table := [] } }
  cancellation := { signaled := true }

/-- The plan of `sub & sub &`. -/
def twoUnwaited : Plan :=
  .ofStages "sub & sub &" [
    { argv := ["sub"], text := "sub", next := .concurrent, waits := false },
    { argv := ["sub"], text := "sub", next := .concurrent, waits := false }]

/-- A caller who wants the output keeps the plan here, where nothing of it is run. -/
theorem execute_of_interrupted :
    interrupted.cancellation.signaled = true ∧
      ∃ t, (execute twoUnwaited true).outcome interrupted
          = (.ok (none, (interrupted.begin twoUnwaited).1), t) ∧
        t.children.size = 0 ∧ t.level = exitSuccess := by
  refine ⟨rfl, ?_⟩
  obtain ⟨_, t, hexecute, rfl, hsteady, -⟩ := execute_of_signaled twoUnwaited true interrupted rfl
  exact ⟨t, hexecute, hsteady.children, hsteady.level⟩

/-- With the signal up, a new instance is started for a plan that nobody waits for. -/
theorem execute_of_interrupted_handedOver :
    interrupted.cancellation.signaled = true ∧ interrupted.children.size = 0 ∧
      ∃ t, (execute twoUnwaited false).outcome interrupted
          = (.ok (none, (interrupted.begin twoUnwaited).1), t) ∧
        t.children.size = 1 := by
  obtain ⟨p, hprepare⟩ : ∃ p, interrupted.host.prepare "/sub" ["--subshell", "sub & sub &"] true
      = .ok p := by
    have hok : (interrupted.host.prepare "/sub" ["--subshell", "sub & sub &"] true).isOk = true := by
      decide +kernel
    cases hprepare : interrupted.host.prepare "/sub" ["--subshell", "sub & sub &"] true with
    | error e => rw [hprepare] at hok; cases hok
    | ok p => exact ⟨p, rfl⟩
  obtain ⟨id, u, hdelegate, -⟩ := @Session.delegate_of_prepare
    (interrupted.begin twoUnwaited).2 twoUnwaited.text "/sub" p rfl hprepare
  obtain ⟨result, t, hexecute, hover⟩ := @execute_of_isHandedOver twoUnwaited false interrupted rfl
  cases hover with
  | started _ hchildren => exact ⟨rfl, rfl, t, hexecute, hchildren⟩
  | failed hfailed | untold hfailed =>
    rw [hdelegate] at hfailed
    cases (Prod.mk.inj hfailed).1

end Action

end ShellEngine
