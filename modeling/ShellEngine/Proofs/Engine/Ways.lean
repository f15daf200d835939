import ShellEngine.Proofs.Engine.Streams

/-!
# The ways in which a stage is run

All that running a stage can do, said once: a relation for each of `handOff`, `await`, `runBuiltin`,
`runProgram` and `runStage`, with a constructor for each way through it and the situation that it
ends in. Whatever is proved of stages goes through these cases (`runsStage_of_gives`) instead of
through the definitions.
-/

namespace ShellEngine

namespace PlanAction

open Session

variable {index : Nat} {r : RunningStage} {a b : Situation}

/-- A plan is what it was, but that the stage behind an index may have been given an input; and
descriptors may have been closed. -/
inductive HandsOff (index : Nat) (a : Situation) : Option Nat → Situation → Prop
  | nothing : HandsOff index a none a
  /-- No stage is left to read the input. -/
  | dropped {reader : Nat} (hnext : a.1.plan.stages[index + 1]? = none) :
      HandsOff index a (some reader) (a.1, a.2.closeDescriptor reader)
  | handed {reader : Nat} {next : RunningStage} (hnext : a.1.plan.stages[index + 1]? = some next) :
      HandsOff index a (some reader)
        (withStage a.1 (index + 1) { next with pipedInput := some reader },
          next.pipedInput.toList.foldl closeDescriptor a.2)

theorem handsOff_of_gives {reader : Option Nat} (h : (handOff index reader).Gives a () b) :
    HandsOff index a reader b := by
  unfold handOff at h
  cases reader with
  | none =>
    obtain ⟨-, rfl⟩ := (gives_pure () a).unique h
    exact .nothing
  | some reader =>
    dsimp only at h
    rw [(gives_stage? (index + 1) a).bind_iff] at h
    cases hnext : a.1.plan.stages[index + 1]? with
    | none =>
      rw [hnext] at h
      obtain ⟨-, rfl⟩ := (gives_change _ a).unique h
      exact .dropped hnext
    | some next =>
      rw [hnext] at h
      have hhanded : HandsOff index a (some reader) _ := .handed hnext
      dsimp only at h
      split at h
      · rename_i hold
        rw [(gives_change _ _).bind_iff] at h
        obtain ⟨-, rfl⟩ := (gives_setStage _ _ _).unique h
        rwa [hold] at hhanded
      · rename_i hold
        obtain ⟨-, rfl⟩ := (gives_setStage _ _ _).unique h
        rwa [hold] at hhanded

/-! ## Waiting -/

inductive Awaits (index : Nat) (r : RunningStage) (a : Situation) :
    Except EngineError Int → Situation → Prop
  | lost {e : IoError} {t : Session} (hwait : a.2.waitForStage r = (.error e, t)) :
      Awaits index r a (.error (.input e)) (a.1, t)
  | completed {status : StageStatus} {t : Session}
      (hwait : a.2.waitForStage r = (.ok (.completed status), t)) :
      Awaits index r a (.ok status.code) (a.1, t)
  | cancelled {t : Session} (hwait : a.2.waitForStage r = (.ok .cancelled, t)) :
      Awaits index r a (.ok (signaledCode 2)) (a.1, t)
  /-- The stage is entered in the job table, and lets go of its child and its harvester. -/
  | backgrounded {t : Session} {text : String}
      (hwait : a.2.waitForStage r = (.ok .backgrounded, t)) :
      Awaits index r a (.ok exitSuccess)
        (withStage a.1 index { r with child := none, harvester := none },
          { t with
            jobs := (t.jobs.register r.stage.text r.child r.harvester).2
            host := t.host.say 2 text })

theorem awaits_of_gives {waited : Except EngineError Int} (h : (await index r).Gives a waited b) :
    Awaits index r a waited b := by
  unfold await at h
  rw [(gives_ask _ _).bind_iff] at h
  rcases hwait : a.2.waitForStage r with ⟨e | outcome, t⟩ <;> rw [hwait] at h
  · obtain ⟨rfl, rfl⟩ := (gives_pure _ _).unique h
    exact .lost hwait
  · cases outcome with
    | completed status =>
      obtain ⟨rfl, rfl⟩ := (gives_pure _ _).unique h
      exact .completed hwait
    | cancelled =>
      obtain ⟨rfl, rfl⟩ := (gives_pure _ _).unique h
      exact .cancelled hwait
    | backgrounded =>
      dsimp only at h
      rw [(gives_ask _ _).bind_iff, (gives_setStage _ _ _).bind_iff] at h
      obtain ⟨_, c, htell, h⟩ := gives_bind_iff.mp h
      obtain ⟨-, rfl⟩ := eq_of_gives_tell htell
      obtain ⟨rfl, rfl⟩ := (gives_pure _ _).unique h
      exact .backgrounded hwait

/-! ## Builtins -/

/-- The ways in which a builtin is run as a stage. Once its streams are in place, `s` is the session
and `placed` the stage. -/
inductive RunsBuiltin (index : Nat) (r : RunningStage) (cmd : Builtin) (a : Situation) :
    Except EngineError StageResult → Situation → Prop
  | misplaced {e : EngineError} {placed : RunningStage} {s : Session}
      (hplaced : a.2.redirect r true = (.error e, placed, s)) :
      RunsBuiltin index r cmd a (.error e) (withStage a.1 index placed, s)
  | ran {snapshot : Snapshot} {placed : RunningStage} {s t : Session} {code : Int}
      (hplaced : a.2.redirect r true = (.ok snapshot, placed, s))
      (hrun : (cmd.run r.stage.arguments).outcome
        ((s.hold snapshot.nextInput).commenceDrains placed).2 = (.ok code, t))
      (hinput : snapshot.nextInput = none) :
      RunsBuiltin index r cmd a (.ok (.status code))
        (withStage a.1 index { placed with pendingDrains := [] },
          (t.revert { snapshot with nextInput := none }).finalize
            (placed.stdoutBuffer.toList ++ placed.stderrBuffer.toList))
  /-- What the builtin wrote for the next stage is replayed, or cannot be. -/
  | piped {snapshot : Snapshot} {placed : RunningStage} {s t u : Session} {code : Int}
      {input : Nat} {replayed : Except EngineError Nat} {c : Situation}
      (hplaced : a.2.redirect r true = (.ok snapshot, placed, s))
      (hrun : (cmd.run r.stage.arguments).outcome
        ((s.hold snapshot.nextInput).commenceDrains placed).2 = (.ok code, t))
      (hinput : snapshot.nextInput = some input)
      (hreplay : ((t.revert { snapshot with nextInput := none }).finalize
        (placed.stdoutBuffer.toList ++ placed.stderrBuffer.toList ++ [s.buffers.size])).replay
          s.buffers.size = (replayed, u))
      (hhand : HandsOff index (withStage a.1 index { placed with pendingDrains := [] }, u)
        replayed.toOption c) :
      RunsBuiltin index r cmd a (replayed.map fun _ ↦ .status code) c

theorem withStage_withStage (p : PlanState) (index : Nat) (old new : RunningStage) :
    withStage (withStage p index old) index new = withStage p index new := by
  have hstages : (p.plan.stages.modify index fun _ ↦ old).modify index (fun _ ↦ new)
      = p.plan.stages.modify index fun _ ↦ new := by
    refine Array.ext_getElem? fun j ↦ ?_
    rw [Array.getElem?_modify, Array.getElem?_modify, Array.getElem?_modify]
    split
    · rw [Option.map_map]
      rfl
    · rfl
  rw [withStage, withStage, withStage, hstages]

theorem runsBuiltin_of_gives {cmd : Builtin} {result : Except EngineError StageResult}
    (h : (runBuiltin index r cmd).Gives a result b) : RunsBuiltin index r cmd a result b := by
  unfold runBuiltin at h
  rw [(gives_redirect index r true a).bind_iff] at h
  have hstage := a.2.stage_redirect r true
  rcases hplaced : a.2.redirect r true with ⟨e | snapshot, placed, s⟩ <;> rw [hplaced] at h hstage
  · obtain ⟨rfl, rfl⟩ := (gives_pure _ _).unique h
    exact .misplaced hplaced
  · dsimp only [Except.map, Snapshot.takeNextInput] at h hstage
    rw [(gives_hold snapshot.nextInput _).bind_iff,
      (gives_commenceDrains index placed _).bind_iff] at h
    obtain ⟨code, ⟨p, t⟩, hrun, h⟩ := gives_bind_iff.mp h
    obtain ⟨hrun, rfl⟩ := gives_liftM_iff.mp hrun
    have harguments : ((s.hold snapshot.nextInput).commenceDrains placed).1.stage.arguments
        = r.stage.arguments := congrArg Stage.arguments hstage
    rw [harguments] at hrun
    rw [(gives_change _ _).bind_iff, withStage_withStage] at h
    cases hinput : snapshot.nextInput with
    | none =>
      rw [hinput] at h
      obtain ⟨rfl, rfl⟩ := (gives_pure _ _).unique h
      simp only [Option.map_none, Option.toList_none, List.append_nil]
      exact .ran hplaced hrun hinput
    | some input =>
      rw [hinput] at h
      dsimp only [Option.map] at h
      rw [(gives_ask _ _).bind_iff] at h
      split at h
      · rename_i e hreplay
        obtain ⟨rfl, rfl⟩ := (gives_pure _ _).unique h
        exact .piped hplaced hrun hinput (Prod.ext hreplay rfl) .nothing
      · rename_i reader hreplay
        obtain ⟨_, c, hhand, h⟩ := gives_bind_iff.mp h
        obtain ⟨rfl, rfl⟩ := (gives_pure _ _).unique h
        exact .piped hplaced hrun hinput (Prod.ext hreplay rfl) (handsOff_of_gives hhand)

/-! ## Programs -/

/-- A stage whose program was launched, with its streams put back and its pipes being drained. -/
structure Launches (s : Session) (r : RunningStage) (target : String) (snapshot : Snapshot)
    (ready : RunningStage) (t : Session) : Prop where
  exists_launch : ∃ placed launched s₁ s₂, s.redirect r false = (.ok snapshot, placed, s₁) ∧
    s₁.launch placed target = (.ok (), launched, s₂) ∧
    ready = { launched with pendingDrains := [] } ∧
    t = ((s₂.revert { snapshot with nextInput := none }).commenceDrains launched).2

/-- The ways in which a program is run as a stage. -/
inductive RunsProgram (index : Nat) (r : RunningStage) (target : String) (a : Situation) :
    Except EngineError StageResult → Situation → Prop
  | misplaced {e : EngineError} {placed : RunningStage} {s : Session}
      (hplaced : a.2.redirect r false = (.error e, placed, s)) :
      RunsProgram index r target a (.error e) (withStage a.1 index placed, s)
  | unlaunched {e : EngineError} {snapshot : Snapshot} {placed launched : RunningStage}
      {s t : Session} (hplaced : a.2.redirect r false = (.ok snapshot, placed, s))
      (hlaunched : s.launch placed target = (.error e, launched, t)) :
      RunsProgram index r target a (.error e)
        (withStage a.1 index { launched with pendingDrains := [] },
          (snapshot.nextInput.toList ++ launched.pendingDrains.map (·.2)).foldl closeDescriptor
            (t.revert { snapshot with nextInput := none }))
  /-- Nobody waits for the program, or there is no child to wait for. -/
  | unattended {snapshot : Snapshot} {ready : RunningStage} {t : Session} {b : Situation}
      (hlaunches : Launches a.2 r target snapshot ready t)
      (hidle : ready.stage.waits = false ∨ ready.child = none)
      (hhand : HandsOff index (withStage a.1 index ready, t) snapshot.nextInput b) :
      RunsProgram index r target a (.ok (.status exitSuccess)) b
  | lost {snapshot : Snapshot} {ready : RunningStage} {t : Session} {e : EngineError}
      {c : Situation} (hlaunches : Launches a.2 r target snapshot ready t)
      (hwaits : ready.stage.waits = true) (hchild : ready.child ≠ none)
      (hwait : Awaits index ready (withStage a.1 index ready, t) (.error e) c) :
      RunsProgram index r target a (.error e)
        (c.1, snapshot.nextInput.toList.foldl closeDescriptor c.2)
  | attended {snapshot : Snapshot} {ready : RunningStage} {t : Session} {code : Int}
      {b c : Situation} (hlaunches : Launches a.2 r target snapshot ready t)
      (hwaits : ready.stage.waits = true) (hchild : ready.child ≠ none)
      (hwait : Awaits index ready (withStage a.1 index ready, t) (.ok code) c)
      (hhand : HandsOff index c snapshot.nextInput b) :
      RunsProgram index r target a (.ok (.status code)) b

theorem runsProgram_of_gives {target : String} {result : Except EngineError StageResult}
    (h : (runProgram index r target).Gives a result b) : RunsProgram index r target a result b := by
  unfold runProgram at h
  rw [(gives_redirect index r false a).bind_iff] at h
  rcases hplaced : a.2.redirect r false with ⟨e | snapshot, placed, s⟩ <;> rw [hplaced] at h
  · obtain ⟨rfl, rfl⟩ := (gives_pure _ _).unique h
    exact .misplaced hplaced
  · dsimp only [Except.map, Snapshot.takeNextInput] at h
    rw [(gives_ask _ _).bind_iff] at h
    rcases hlaunched : s.launch placed target with ⟨e | _, launched, t⟩ <;>
      rw [hlaunched] at h <;> dsimp only at h <;>
      rw [(gives_setStage _ _ _).bind_iff, (gives_change _ _).bind_iff, withStage_withStage] at h
    · rw [(gives_change _ _).bind_iff, (gives_setStage _ _ _).bind_iff, withStage_withStage] at h
      obtain ⟨rfl, rfl⟩ := (gives_pure _ _).unique h
      exact .unlaunched hplaced hlaunched
    · rw [(gives_commenceDrains index launched _).bind_iff, withStage_withStage] at h
      have hlaunches : Launches a.2 r target snapshot _ _ :=
        ⟨placed, launched, s, t, hplaced, hlaunched, rfl, rfl⟩
      generalize hready : { launched with pendingDrains := [] } = ready at hlaunches
      generalize hu : ((t.revert { snapshot with nextInput := none }).commenceDrains launched).2 = u
        at hlaunches
      have hdrained : (t.revert { snapshot with nextInput := none }).commenceDrains launched
          = (ready, u) := Prod.ext hready hu
      rw [hdrained] at h
      dsimp only at h
      split at h
      case isTrue hidle =>
        rw [(gives_pure _ _).bind_iff] at h
        obtain ⟨_, c, hhand, h⟩ := gives_bind_iff.mp h
        obtain ⟨rfl, rfl⟩ := (gives_pure _ _).unique h
        refine .unattended hlaunches ?_ (handsOff_of_gives hhand)
        simpa using hidle
      case isFalse hbusy =>
        simp only [Bool.or_eq_true, not_or, Bool.not_eq_true', Bool.not_eq_false,
          Option.isNone_iff_eq_none] at hbusy
        obtain ⟨waited, c, hwait, h⟩ := gives_bind_iff.mp h
        replace hwait := awaits_of_gives hwait
        cases waited with
        | error e =>
          rw [(gives_change _ _).bind_iff] at h
          obtain ⟨rfl, rfl⟩ := (gives_pure _ _).unique h
          exact .lost hlaunches hbusy.1 hbusy.2 hwait
        | ok code =>
          obtain ⟨_, d, hhand, h⟩ := gives_bind_iff.mp h
          obtain ⟨rfl, rfl⟩ := (gives_pure _ _).unique h
          exact .attended hlaunches hbusy.1 hbusy.2 hwait (handsOff_of_gives hhand)

/-! ## Stages -/

/-- The program that a stage names: a URL as it is, and otherwise what is found under the name. -/
def target? (s : Session) (r : RunningStage) : Option String :=
  if Launch.isUrl r.stage.program then some r.stage.program else s.findProgram r.stage.program

/-- The ways in which a stage is run. -/
inductive RunsStage (index : Nat) (a : Situation) :
    Except EngineError StageResult → Situation → Prop
  | builtin {r : RunningStage} {cmd : Builtin} {result : Except EngineError StageResult}
      {b : Situation} (hr : a.1.plan.stages[index]? = some r)
      (hname : Builtin.ofName? r.stage.program = some cmd)
      (hrun : RunsBuiltin index r cmd a result b) : RunsStage index a result b
  | program {r : RunningStage} {target : String} {result : Except EngineError StageResult}
      {b : Situation} (hr : a.1.plan.stages[index]? = some r)
      (hname : Builtin.ofName? r.stage.program = none) (htarget : target? a.2 r = some target)
      (hrun : RunsProgram index r target a result b) : RunsStage index a result b
  /-- A new instance gets the stage, the only one of its plan, or cannot be started. -/
  | delegated {r : RunningStage} {delegated : Except EngineError Nat} {t : Session}
      (hr : a.1.plan.stages[index]? = some r) (hname : Builtin.ofName? r.stage.program = none)
      (htarget : target? a.2 r = none) (hsingle : a.1.plan.stages.size = 1)
      (hwaits : r.stage.waits = false) (hdelegate : a.2.delegate r.stage.text = (delegated, t)) :
      RunsStage index a (delegated.map fun _ ↦ .delegated) (a.1, t)
  | notFound {r : RunningStage} (hr : a.1.plan.stages[index]? = some r)
      (hname : Builtin.ofName? r.stage.program = none) (htarget : target? a.2 r = none) :
      RunsStage index a (.error (.notFound r.stage.program)) a
  | absent (hr : a.1.plan.stages[index]? = none) :
      RunsStage index a (.ok (.status exitSuccess)) a

theorem RunsStage.eq_of_absent {result : Except EngineError StageResult}
    (h : RunsStage index a result b) (habsent : a.1.plan.stages[index]? = none) : b = a := by
  cases h with
  | builtin hr => rw [habsent] at hr; cases hr
  | program hr => rw [habsent] at hr; cases hr
  | delegated hr => rw [habsent] at hr; cases hr
  | notFound => rfl
  | absent => rfl

theorem runsStage_of_gives {result : Except EngineError StageResult}
    (h : (runStage index).Gives a result b) : RunsStage index a result b := by
  unfold runStage at h
  rw [(gives_stage? index a).bind_iff] at h
  cases hr : a.1.plan.stages[index]? with
  | none =>
    rw [hr] at h
    obtain ⟨rfl, rfl⟩ := (gives_pure _ _).unique h
    exact .absent hr
  | some r =>
    rw [hr] at h
    dsimp only at h
    cases hname : Builtin.ofName? r.stage.program with
    | some cmd =>
      rw [hname] at h
      exact .builtin hr hname (runsBuiltin_of_gives h)
    | none =>
      rw [hname] at h
      dsimp only at h
      rw [(gives_session a).bind_iff] at h
      split at h
      · rename_i htarget
        exact .program hr hname htarget (runsProgram_of_gives h)
      · rename_i htarget
        rw [(gives_get a).bind_iff] at h
        split at h
        case isTrue hsingle =>
          simp only [Bool.and_eq_true, beq_iff_eq, Bool.not_eq_true'] at hsingle
          rw [(gives_ask _ _).bind_iff] at h
          rcases hdelegate : a.2.delegate r.stage.text with ⟨e | id, t⟩ <;> rw [hdelegate] at h <;>
            obtain ⟨rfl, rfl⟩ := (gives_pure _ _).unique h
          · exact .delegated hr hname htarget hsingle.1.1 hsingle.1.2 hdelegate
          · exact .delegated hr hname htarget hsingle.1.1 hsingle.1.2 hdelegate
        case isFalse =>
          obtain ⟨rfl, rfl⟩ := (gives_pure _ _).unique h
          exact .notFound hr hname htarget

end PlanAction

end ShellEngine
