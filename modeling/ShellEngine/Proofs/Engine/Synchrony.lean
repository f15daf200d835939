import ShellEngine.Proofs.Engine.Capturing
import ShellEngine.Proofs.Engine.Stints

/-!
# Tasks that cannot be sent to the background

While the flag of a synchronous task is up, a wait does not turn to the console. It begins without a
delay, so that nothing can wake it but the cancellation signal and the end of the child, and each of
the two ends the wait. All that this takes of the surroundings is that they wake a wait by nothing
that it does not wait for (`Surroundings.Honest`).

The flag is up whenever an embedded command is executed. This is said of an expansion whose
executions are left open (`expandNestedBy`): what they would do with the flag down makes no
difference to it (`expandNestedBy_eq`). It stays up as long as the execution lasts, since no stage
changes it, and when a line was expanded it is what it was before, since each command puts it back,
whatever came of the command (`synchronous_of_expandNestedBy`).
-/

namespace ShellEngine

open Machine PlanAction

/-! ## Waits -/

/-- What wakes a wait is among the things that it waits for: input if it listens, and the end of a
delay if there is one. -/
def Wake.IsAwaited (listens : Bool) (delay : Option Nat) : Wake → Prop
  | .cancelled | .ended _ => True
  | .input => listens = true
  | .elapsed => delay.isSome = true

namespace Surroundings

variable {σ : Type} {e : Surroundings σ} {s : σ} {watch : GestureWatch}

/-- Nothing wakes a wait that it does not wait for. -/
def Honest (e : Surroundings σ) : Prop :=
  ∀ listens delay s, (e.await listens delay s).1.IsAwaited listens delay

/-- With the flag up, a wait waits just once: what wakes it ends it. -/
theorem Honest.wait_eq (he : e.Honest) (hs : e.isSynchronous s = true) (looks : Nat)
    (watch : GestureWatch) : e.wait looks watch none s = e.wait 0 watch none s := by
  have hlistens : e.listens none s = false := by simp [listens, hs]
  cases looks with
  | zero => rfl
  | succ looks =>
    unfold wait
    rw [hlistens]
    have hawaited := he false none s
    generalize e.await false none s = awaited at hawaited
    obtain ⟨wake, t⟩ := awaited
    cases wake with
    | cancelled => rfl
    | ended how => rfl
    | input => exact absurd hawaited Bool.false_ne_true
    | elapsed => exact absurd hawaited Bool.false_ne_true

theorem wait_zero_ne_backgrounded (e : Surroundings σ) (watch : GestureWatch) (s : σ) :
    (e.wait 0 watch none s).1 ≠ .ok .backgrounded := by
  rw [wait]
  rcases e.await false none s with ⟨_ | (e | status) | _ | _, t⟩ <;> nofun

/-! ### Counting -/

/-- The surroundings with a count beside them of how often a wait turns to the input, be it to
listen or to look. -/
def counted (e : Surroundings σ) : Surroundings (σ × Nat) where
  await listens delay s :=
    let (wake, t) := e.await listens delay s.1
    (wake, t, s.2 + listens.toNat)
  isCancelled s := e.isCancelled s.1
  isSynchronous s := e.isSynchronous s.1
  look s :=
    let (seen, t) := e.look s.1
    (seen, t, s.2 + 1)
  detach s := (e.detach s.1, s.2)
  indicate s := (e.indicate s.1, s.2)

def glances (e : Surroundings σ) (looks : Nat) (watch : GestureWatch) (delay : Option Nat) (s : σ) :
    Nat :=
  (e.counted.wait looks watch delay (s, 0)).2.2

theorem await_counted (e : Surroundings σ) (listens : Bool) (delay : Option Nat) (s : σ) (n : Nat) :
    e.counted.await listens delay (s, n)
      = ((e.await listens delay s).1, (e.await listens delay s).2, n + listens.toNat) := rfl

theorem look_counted (e : Surroundings σ) (s : σ) (n : Nat) :
    e.counted.look (s, n) = ((e.look s).1, (e.look s).2, n + 1) := rfl

theorem wait_counted (e : Surroundings σ) (looks : Nat) (watch : GestureWatch) (delay : Option Nat)
    (s : σ) (n : Nat) :
    (e.counted.wait looks watch delay (s, n)).1 = (e.wait looks watch delay s).1 ∧
      (e.counted.wait looks watch delay (s, n)).2.1 = (e.wait looks watch delay s).2 := by
  induction looks generalizing watch delay s n with
  | zero =>
    unfold wait
    rw [await_counted]
    rcases e.await false none s with ⟨_ | how | _ | _, t⟩ <;> exact ⟨rfl, rfl⟩
  | succ looks ih =>
    have hlistens : e.counted.listens delay (s, n) = e.listens delay s := rfl
    have hawaited := await_counted e (e.listens delay s) delay s n
    rcases hawait : e.await (e.listens delay s) delay s with ⟨wake, t⟩
    rw [hawait] at hawaited
    have hlooked := look_counted e t (n + (e.listens delay s).toNat)
    rcases hlook : e.look t with ⟨⟨events, pending⟩, u⟩
    rw [hlook] at hlooked
    unfold wait
    rw [hlistens, hawait, hawaited]
    cases wake with
    | cancelled => exact ⟨rfl, rfl⟩
    | ended how => exact ⟨rfl, rfl⟩
    | input | elapsed =>
      simp only [hlook, hlooked]
      split
      · exact ⟨rfl, rfl⟩
      · split
        · exact ih _ _ _ _
        · exact ih _ _ _ _

theorem Honest.counted (he : e.Honest) : e.counted.Honest :=
  fun listens delay s ↦ he listens delay s.1

/-- **A synchronous task is not detached**, and its wait never turns to the input. -/
theorem Honest.undetached (he : e.Honest) (hs : e.isSynchronous s = true) (looks : Nat)
    (watch : GestureWatch) :
    (e.wait looks watch none s).1 ≠ .ok .backgrounded ∧ e.glances looks watch none s = 0 := by
  have hcounted : e.counted.isSynchronous (s, 0) = true := hs
  rw [he.wait_eq hs, glances, he.counted.wait_eq hcounted]
  refine ⟨e.wait_zero_ne_backgrounded watch s, ?_⟩
  rw [wait, await_counted]
  rcases e.await false none s with ⟨_ | how | _ | _, t⟩ <;> rfl

end Surroundings

namespace Session

variable {s : Session}

theorem honest_surroundings (child record : Nat) : (surroundings child record).Honest := by
  intro listens delay s
  have hwake {u : Session} {wake : Wake} (h : u.wake? child = some wake) :
      wake.IsAwaited listens delay := by
    unfold wake? at h
    split at h
    · cases h
      trivial
    · obtain ⟨how, -, rfl⟩ := Option.map_eq_some_iff.mp h
      trivial
  change (s.await child listens delay).1.IsAwaited listens delay
  rcases hawait : s.await child listens delay with ⟨wake, t⟩
  cases woken_of_await hawait with
  | already h => exact hwake h
  | input hlistens => exact hlistens
  | never => trivial
  | later _ _ h => exact hwake h
  | elapsed _ _ hdelay => exact hdelay
  | vainly => trivial

/-- How often the wait for a stage turns to the console. -/
def glances (s : Session) (r : RunningStage) : Nat :=
  match r.child with
  | none => 0
  | some child =>
    (surroundings child r.record).glances (s.routed.maxLooks child)
      { settings := s.settings.monitor } none s.routed

theorem wait_eq_backgrounded {r : RunningStage}
    (h : (s.waitForStage r).1 = .ok .backgrounded) :
    ∃ child, r.child = some child ∧
      ((surroundings child r.record).wait (s.routed.maxLooks child)
        { settings := s.settings.monitor } none s.routed).1 = .ok .backgrounded := by
  rcases hends : s.waitForStage r with ⟨result, t⟩
  rw [hends] at h
  cases waitEnds_of_waitForStage hends with
  | backgrounded hchild hwait => exact ⟨_, hchild, congrArg Prod.fst hwait⟩
  | absent | lost | completed | cancelled => cases h

theorem undetached_of_synchronous (hs : s.synchronous = true) (r : RunningStage) :
    (s.waitForStage r).1 ≠ .ok .backgrounded ∧ s.glances r = 0 := by
  have hundetached (child : Nat) := (honest_surroundings child r.record).undetached
    (s := s.routed) hs (s.routed.maxLooks child) { settings := s.settings.monitor }
  constructor
  · intro h
    obtain ⟨child, -, hwait⟩ := wait_eq_backgrounded h
    exact (hundetached child).1 hwait
  · unfold glances
    split
    · rfl
    · exact (hundetached _).2

end Session

/-! ## Expansions -/

namespace Action

/-- Runs a line as an embedded command, where `exec` runs its plan. -/
def captureBy (exec : Plan → Action (List Char)) (expand : List Char → Action (List Char))
    (line : List Char) : Action (Except EngineError (List Char)) :=
  synchronously do
    let line ← expand line
    match Line.parse (String.ofList line) with
    | .error e => return .error (.parse e)
    | .ok plan => return .ok (← exec plan)

/-- Puts the outputs of embedded commands in their places, where `exec` runs their plans. -/
def expandNestedBy (exec : Plan → Action (List Char)) : Nat → List Char → Action (List Char)
  | 0, _ => throw .unfinished
  | bound + 1, line => expandUpTo (captureBy exec (expandNestedBy exec bound)) bound line

def expandLineBy (exec : Plan → Action (List Char)) (line : List Char) : Action (List Char) :=
  unbounded (fun bound ↦ expandNestedBy exec bound line) (line.length + 1)

/-- Expansion runs the plans of embedded commands by capturing what they print. -/
theorem expandNestedBy_capturePlan (bound : Nat) :
    expandNestedBy capturePlan bound = expandNested bound := by
  induction bound with
  | zero => rfl
  | succ bound ih =>
    funext line
    rw [expandNestedBy, ih]
    rfl

variable {exec : Plan → Action (List Char)} {s t : Session}

/-- An embedded command leaves the flag as it was, whatever came of it. -/
theorem synchronous_of_captureBy {expand : List Char → Action (List Char)} {line : List Char}
    {result : Except EngineError (List Char)}
    (h : (captureBy exec expand line).outcome s = (.ok result, t)) :
    t.synchronous = s.synchronous := by
  rw [captureBy, outcome_synchronously] at h
  split at h
  · cases h
    rfl
  · cases h

theorem synchronous_of_expandWith
    {run : List Char → Action (Except EngineError (List Char))}
    (hrun : ∀ inner s result t, (run inner).outcome s = (.ok result, t) →
      t.synchronous = s.synchronous)
    {limit : Nat} {line : List Char} {expansion : Line.Expansion}
    (h : (Line.expandWith run report isCancelled limit line).outcome s = (.ok expansion, t)) :
    t.synchronous = s.synchronous := by
  induction limit generalizing line s with
  | zero =>
    cases h
    rfl
  | succ limit ih =>
    rw [Line.expandWith] at h
    split at h
    · cases h
      rfl
    · rename_i found _
      obtain ⟨result, u, hresult, h⟩ := Line.exists_run_run_of_bind h
      have hkept := hrun _ _ _ _ hresult
      cases result with
      | error e =>
        -- a report leaves the flag alone
        obtain ⟨⟨⟩, w, hreport, h⟩ := Line.exists_run_run_of_bind h
        have hreported : w.synchronous = u.synchronous := by rw [eq_of_outcome_tell hreport]
        cases h
        exact hreported.trans hkept
      | ok output =>
        obtain ⟨stops, w, hstops, h⟩ := Line.exists_run_run_of_bind h
        have hlooked : w.synchronous = u.synchronous := congrArg (·.2.synchronous) hstops.symm
        refine Eq.trans ?_ (hlooked.trans hkept)
        cases stops with
        | true =>
          cases h
          rfl
        | false => exact ih h

/-- **The flag after an expansion** is the one from before. -/
theorem synchronous_of_expandNestedBy {bound : Nat} {line text : List Char}
    (h : (expandNestedBy exec bound line).outcome s = (.ok text, t)) :
    t.synchronous = s.synchronous := by
  cases bound with
  | zero => cases h
  | succ bound =>
    obtain ⟨expansion, u, hexpansion, h⟩ := Line.exists_run_run_of_bind h
    split at h
    · cases h
      exact synchronous_of_expandWith (fun _ _ _ _ ↦ synchronous_of_captureBy) hexpansion
    · cases h

/-- **The flag is up in every execution.** Ways to execute the plans of embedded commands that do
the same with the flag up make no difference to an expansion. -/
theorem expandNestedBy_eq {exec' : Plan → Action (List Char)}
    (h : ∀ plan s, s.synchronous = true → (exec plan).outcome s = (exec' plan).outcome s)
    (bound : Nat) : expandNestedBy exec bound = expandNestedBy exec' bound := by
  induction bound with
  | zero => rfl
  | succ bound ih =>
    have hrun : captureBy exec (expandNestedBy exec bound)
        = captureBy exec' (expandNestedBy exec' bound) := by
      funext inner s
      change (captureBy exec (expandNestedBy exec bound) inner).outcome s
        = (captureBy exec' (expandNestedBy exec' bound) inner).outcome s
      rw [captureBy, captureBy, outcome_synchronously, outcome_synchronously, ih, outcome_bind,
        outcome_bind]
      -- the commands within the command put the flag back, so that it is up again by now
      rcases hexpand : (expandNestedBy exec' bound inner).outcome { s with synchronous := true } with
        ⟨e | line, t⟩
      · rfl
      · have hup : t.synchronous = true := synchronous_of_expandNestedBy hexpand
        dsimp only
        cases Line.parse (String.ofList line) with
        | error e => rfl
        | ok plan =>
          dsimp only
          rw [outcome_bind, outcome_bind, h plan t hup]
    funext line
    rw [expandNestedBy, expandNestedBy, hrun]

theorem synchronous_of_expand {line text : String}
    (h : (expand line).outcome s = (.ok text, t)) : t.synchronous = s.synchronous := by
  obtain ⟨expanded, u, hexpanded, h⟩ := Line.exists_run_run_of_bind h
  cases h
  obtain ⟨bound, hbound⟩ := (outcome_expandLine_iff (by simp)).mp hexpanded
  rw [← expandNestedBy_capturePlan] at hbound
  exact synchronous_of_expandNestedBy hbound

/-! ## Executions -/

/-- A plan that is run with the flag up is run with it all along: when each stage begins and when
its program was launched. -/
theorem synchronous_of_trail {plan : Plan} {visits : List Visit} {b : Situation}
    (htrail : Trail (s.starting plan) visits b) (hs : s.synchronous = true) :
    b.2.synchronous = true ∧ ∀ v ∈ visits, v.start.2.synchronous = true ∧
      ∀ r target snapshot ready t, Launches v.start.2 r target snapshot ready t →
        t.synchronous = true := by
  have hbegun : Session.SameTerms s (s.starting plan).2 := .begin s plan
  obtain ⟨hstop, hvisits⟩ := Session.SameTerms.trail htrail
  refine ⟨(hbegun.trans hstop).synchronous.trans hs, fun v hv ↦ ?_⟩
  have hstart := hbegun.trans (hvisits v hv).1
  refine ⟨hstart.synchronous.trans hs, fun r target snapshot ready t hlaunches ↦ ?_⟩
  exact (hstart.trans (.of_launches hlaunches)).synchronous.trans hs

/-- **No stage of an embedded command is sent to the background.** While the flag is up, a wait is
never detached and never turns to the input, in whatever honest surroundings and for whatever stage
of a session. The flag is up whenever an expansion executes a plan, it stays up for each stage of
it, and it is what it was before once the line is expanded. -/
theorem undetached_while_synchronous :
    (∀ (σ : Type) (e : Surroundings σ) (s : σ) (looks : Nat) (watch : GestureWatch), e.Honest →
      e.isSynchronous s = true →
        (e.wait looks watch none s).1 ≠ .ok .backgrounded ∧ e.glances looks watch none s = 0) ∧
    (∀ (s : Session) (r : RunningStage), s.synchronous = true →
      (s.waitForStage r).1 ≠ .ok .backgrounded ∧ s.glances r = 0) ∧
    (∀ exec : Plan → Action (List Char),
      (∀ plan s, s.synchronous = true → (exec plan).outcome s = (capturePlan plan).outcome s) →
        (∀ bound, expandNestedBy exec bound = expandNested bound) ∧
          ∀ line, expandLineBy exec line = expandLine line) ∧
    (∀ (s : Session) (plan : Plan) (visits : List Visit) (b : Situation), s.synchronous = true →
      Trail (s.starting plan) visits b → b.2.synchronous = true ∧
        ∀ v ∈ visits, v.start.2.synchronous = true ∧
          ∀ r target snapshot ready t, Launches v.start.2 r target snapshot ready t →
            t.synchronous = true ∧ (t.waitForStage ready).1 ≠ .ok .backgrounded ∧
              t.glances ready = 0) ∧
    ∀ (line text : String) (s t : Session), (expand line).outcome s = (.ok text, t) →
      t.synchronous = s.synchronous := by
  refine ⟨fun σ e s looks watch he hs ↦ he.undetached hs looks watch,
    fun s r hs ↦ Session.undetached_of_synchronous hs r, fun exec hexec ↦ ?_,
    fun s plan visits b hs htrail ↦ ?_, fun line text s t ↦ synchronous_of_expand⟩
  · have hnested (bound : Nat) : expandNestedBy exec bound = expandNested bound := by
      rw [expandNestedBy_eq hexec, expandNestedBy_capturePlan]
    exact ⟨hnested, fun line ↦ by rw [expandLineBy, expandLine]; simp only [hnested]⟩
  · obtain ⟨hstop, hvisits⟩ := synchronous_of_trail htrail hs
    refine ⟨hstop, fun v hv ↦ ⟨(hvisits v hv).1, fun r target snapshot ready t hlaunches ↦ ?_⟩⟩
    have hup := (hvisits v hv).2 r target snapshot ready t hlaunches
    exact ⟨hup, Session.undetached_of_synchronous hup ready⟩

/-- A session with a stage that runs for some time, and a user who presses the detach chord again
and again. -/
def impatient (synchronous : Bool) : Session where
  settings := {}
  host := { world := { tree := .empty }, cwd := FileTree.root, descriptors := { table := [] } }
  children := #[{ pid := 7, fate := some { time := 900000, status := some (.process (.exited 0)) } }]
  console := .scripted (List.replicate 9 [.key true false 'b' true]) []
  synchronous

def longStage : RunningStage := { stage := .ofArgv ["sleep", "1"], record := 0, child := some 0 }

/-- The plan of `/say hello`. -/
def sayHello : Plan :=
  .ofStages "/say hello" [{ argv := ["/say", "hello"], text := "/say hello" }]

/-- The chord sends a stage to the background, unless the flag is up. The stage of an embedded
command is run with the flag up, and the flag is down again once the command is replaced by what it
printed. -/
theorem undetached_of_impatient :
    ((impatient false).waitForStage longStage).1 = .ok .backgrounded ∧
    (impatient false).glances longStage = 5 ∧
    ((impatient true).waitForStage longStage).1 ≠ .ok .backgrounded ∧
    (impatient true).glances longStage = 0 ∧
    (∃ v b, Trail (talkative.starting sayHello.captured) [v] b ∧ v.start.2.synchronous = true) ∧
    ∃ t, (expand "$(/say hello)").outcome { talkative with synchronous := false } = (.ok "hello", t) ∧
      t.synchronous = false := by
  obtain ⟨-, hwait, -, htrail, hexpand⟩ := undetached_while_synchronous
  obtain ⟨hbackgrounded, hglances⟩ := hwait (impatient true) longStage rfl
  refine ⟨rfl, rfl, hbackgrounded, hglances, ?_, ?_⟩
  · have hvisited {a b : Situation} {result : Except EngineError StageResult}
        (hrun : (runStage 0).Gives (prepared a.1 0, a.2) result b) :
        Trail a [⟨0, (prepared a.1 0, a.2), result, b⟩] b :=
      .keep (.prepare 0) (gives_prepare 0 a) (.visit (v := ⟨0, _, result, b⟩) hrun (.done b))
    have hok : ((runStage 0).outcome (prepared (talkative.starting sayHello.captured).1 0,
        (talkative.starting sayHello.captured).2)).1.isOk = true := by decide +kernel
    rcases gives_or_crashes (runStage 0) (prepared (talkative.starting sayHello.captured).1 0,
      (talkative.starting sayHello.captured).2) with ⟨result, b, hrun⟩ | ⟨crash, s, hrun⟩
    · obtain ⟨-, hvisits⟩ := htrail talkative _ _ _ rfl (hvisited hrun)
      exact ⟨_, b, hvisited hrun, (hvisits _ (List.mem_singleton_self _)).1⟩
    · rw [hrun] at hok
      cases hok
  · let s : Session := { talkative with synchronous := false }
    have hhello : ((expandNested 2 "$(/say hello)".toList).outcome s).1.toOption
        = some "hello".toList := by decide +kernel
    rcases hnested : (expandNested 2 "$(/say hello)".toList).outcome s with ⟨crash | text, t⟩ <;>
      rw [hnested] at hhello
    · cases hhello
    · cases hhello
      have hline := (outcome_expandLine_iff (by simp)).mpr ⟨2, hnested⟩
      have hexpanded : (expand "$(/say hello)").outcome s = (.ok "hello", t) := by
        rw [expand, outcome_bind, hline]
        rfl
      exact ⟨t, hexpanded, hexpand _ _ _ _ hexpanded⟩

end Action

end ShellEngine
