import ShellEngine.Proofs.Engine.Launching
import ShellEngine.Proofs.Engine.Ways

/-!
# What comes of a stage

The result of running a stage, read off `runStage` (`verdict_of_gives`): a builtin gives its own
code; a program gives the code that it is waited for, or the one of a wait that the cancellation
signal ended, or zero if nobody waits for its end; everything else is an error, but for a stage that
is handed to a new instance.
-/

namespace ShellEngine

/-! ## Stages on their way -/

namespace Session

/-- In the session `t` the streams of a stage are in place for a builtin. -/
inductive Readied (s : Session) (stage : RunningStage) : Session → Prop
  | intro {snapshot : Snapshot} {placed : RunningStage} {s₁ : Session}
      (hplaced : s.redirect stage true = (.ok snapshot, placed, s₁)) :
      Readied s stage ((s₁.hold snapshot.takeNextInput.1).commenceDrains placed).2

/-- In the session `t` the program of a stage was launched, with its streams in place, and these
were put back. -/
inductive Started (s : Session) (stage : RunningStage) : RunningStage → Session → Prop
  | intro {snapshot : Snapshot} {placed launched : RunningStage} {s₁ s₂ : Session}
      {target : String}
      (htarget : (if Launch.isUrl stage.stage.program then some stage.stage.program
        else s.findProgram stage.stage.program) = some target)
      (hplaced : s.redirect stage false = (.ok snapshot, placed, s₁))
      (hlaunched : s₁.launch placed target = (.ok (), launched, s₂)) :
      Started s stage ((s₂.revert snapshot.takeNextInput.2).commenceDrains launched).1
        ((s₂.revert snapshot.takeNextInput.2).commenceDrains launched).2

end Session

/-- What a stage comes to when it is run. -/
inductive Verdict (s : Session) (stage : RunningStage) : Except EngineError StageResult → Prop
  /-- A builtin gives its code, whether it is waited for or not. -/
  | builtin {b : Builtin} {t t' : Session} {code : Int}
      (hname : Builtin.ofName? stage.stage.program = some b) (hready : s.Readied stage t)
      (hrun : (b.run stage.stage.arguments).outcome t = (.ok code, t')) :
      Verdict s stage (.ok (.status code))
  /-- A program that is not waited for gives zero. -/
  | unwaited {r : RunningStage} {t : Session}
      (hname : Builtin.ofName? stage.stage.program = none) (hstarted : s.Started stage r t)
      (hwaits : stage.stage.waits = false) :
      Verdict s stage (.ok (.status exitSuccess))
  /-- What was handed to the opener gives zero: it left no child to wait for. -/
  | opened {r : RunningStage} {t : Session}
      (hname : Builtin.ofName? stage.stage.program = none) (hstarted : s.Started stage r t)
      (hchild : r.child = none) :
      Verdict s stage (.ok (.status exitSuccess))
  /-- A program that has ended gives its exit code. -/
  | completed {r : RunningStage} {t t' : Session} {status : StageStatus}
      (hname : Builtin.ofName? stage.stage.program = none) (hstarted : s.Started stage r t)
      (hwaits : stage.stage.waits = true)
      (hwait : t.waitForStage r = (.ok (.completed status), t')) :
      Verdict s stage (.ok (.status status.code))
  /-- A wait that was cancelled gives the code of an interrupt. -/
  | cancelled {r : RunningStage} {t t' : Session}
      (hname : Builtin.ofName? stage.stage.program = none) (hstarted : s.Started stage r t)
      (hwaits : stage.stage.waits = true) (hwait : t.waitForStage r = (.ok .cancelled, t')) :
      Verdict s stage (.ok (.status 130))
  /-- A program that was sent to the background gives zero. -/
  | backgrounded {r : RunningStage} {t t' : Session}
      (hname : Builtin.ofName? stage.stage.program = none) (hstarted : s.Started stage r t)
      (hwaits : stage.stage.waits = true) (hwait : t.waitForStage r = (.ok .backgrounded, t')) :
      Verdict s stage (.ok (.status exitSuccess))
  /-- A stage that is not waited for and names no program is handed to a new instance. -/
  | delegated {id : Nat} {t : Session}
      (hname : Builtin.ofName? stage.stage.program = none)
      (hwaits : stage.stage.waits = false)
      (hdelegate : s.delegate stage.stage.text = (.ok id, t)) :
      Verdict s stage (.ok .delegated)
  | failed (e : EngineError) : Verdict s stage (.error e)

/-- However a stage is launched, it is waited for as before. -/
theorem Session.waits_of_launch {s t : Session} {stage launched : RunningStage} {target : String}
    {result : Except EngineError Unit} (h : s.launch stage target = (result, launched, t)) :
    launched.stage.waits = stage.stage.waits := by
  obtain ⟨n, hlaunched⟩ := s.exists_launched stage target
  rw [h] at hlaunched
  exact congrArg (·.stage.waits) hlaunched.unstarted

/-! ## The result of running a stage -/

namespace PlanAction

variable {a b : Situation} {index : Nat} {r : RunningStage}
  {result : Except EngineError StageResult}

theorem Launches.started {s t : Session} {target : String} {snapshot : Snapshot}
    {ready : RunningStage} (h : Launches s r target snapshot ready t)
    (htarget : target? s r = some target) : s.Started r ready t := by
  obtain ⟨placed, launched, s₁, s₂, hplaced, hlaunched, rfl, rfl⟩ := h.exists_launch
  exact .intro htarget hplaced hlaunched

theorem Launches.waits_eq {s t : Session} {target : String} {snapshot : Snapshot}
    {ready : RunningStage} (h : Launches s r target snapshot ready t) :
    ready.stage.waits = r.stage.waits := by
  obtain ⟨placed, launched, s₁, s₂, hplaced, hlaunched, rfl, -⟩ := h.exists_launch
  have hstage := s.stage_redirect r false
  rw [hplaced] at hstage
  exact (Session.waits_of_launch hlaunched).trans (congrArg Stage.waits hstage)

theorem RunsBuiltin.verdict {cmd : Builtin} (h : RunsBuiltin index r cmd a result b)
    (hname : Builtin.ofName? r.stage.program = some cmd) :
    Verdict a.2 r result ∧ result ≠ .ok .delegated := by
  cases h with
  | misplaced => exact ⟨.failed _, by simp⟩
  | ran hplaced hrun => exact ⟨.builtin hname (.intro hplaced) hrun, by simp⟩
  | @piped _ _ _ _ _ _ _ replayed _ hplaced hrun =>
    cases replayed with
    | error e => exact ⟨.failed _, by simp [Except.map]⟩
    | ok reader => exact ⟨.builtin hname (.intro hplaced) hrun, by simp [Except.map]⟩

theorem RunsProgram.verdict {target : String} (h : RunsProgram index r target a result b)
    (hname : Builtin.ofName? r.stage.program = none) (htarget : target? a.2 r = some target) :
    Verdict a.2 r result ∧ result ≠ .ok .delegated := by
  cases h with
  | misplaced => exact ⟨.failed _, by simp⟩
  | unlaunched => exact ⟨.failed _, by simp⟩
  | lost => exact ⟨.failed _, by simp⟩
  -- A program for which nobody waits, or which left no child, gives zero at once.
  | unattended hlaunches hidle =>
    refine ⟨?_, by simp⟩
    rcases hidle with hwaits | hchild
    · exact .unwaited hname (hlaunches.started htarget) (hlaunches.waits_eq.symm.trans hwaits)
    · exact .opened hname (hlaunches.started htarget) hchild
  | attended hlaunches hwaits _ hwait =>
    have hstarted := hlaunches.started htarget
    rw [hlaunches.waits_eq] at hwaits
    refine ⟨?_, by simp⟩
    cases hwait with
    | completed hwait => exact .completed hname hstarted hwaits hwait
    | cancelled hwait => exact .cancelled hname hstarted hwaits hwait
    | backgrounded hwait => exact .backgrounded hname hstarted hwaits hwait

/-- **What running a stage comes to.** Only the stage of a plan of one is ever handed on. -/
theorem verdict_of_gives (hr : a.1.plan.stages[index]? = some r)
    (h : (runStage index).Gives a result b) :
    Verdict a.2 r result ∧ (result = .ok .delegated → a.1.plan.stages.size = 1) := by
  have hsame {r' : RunningStage} (hr' : a.1.plan.stages[index]? = some r') : r' = r :=
    Option.some.inj (hr'.symm.trans hr)
  cases runsStage_of_gives h with
  | builtin hr' hname hrun =>
    obtain rfl := hsame hr'
    exact (hrun.verdict hname).imp_right fun hhere hresult ↦ absurd hresult hhere
  | program hr' hname htarget hrun =>
    obtain rfl := hsame hr'
    exact (hrun.verdict hname htarget).imp_right fun hhere hresult ↦ absurd hresult hhere
  | @delegated _ delegated _ hr' hname _ hsingle hwaits hdelegate =>
    obtain rfl := hsame hr'
    cases delegated with
    | error e => exact ⟨.failed e, fun _ ↦ hsingle⟩
    | ok id => exact ⟨.delegated hname hwaits hdelegate, fun _ ↦ hsingle⟩
  | notFound => exact ⟨.failed _, by simp⟩
  | absent hnone => rw [hr] at hnone; cases hnone

end PlanAction

end ShellEngine
