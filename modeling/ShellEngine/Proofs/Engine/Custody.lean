import ShellEngine.Proofs.Engine.Additions
import ShellEngine.Proofs.Engine.Rounds

/-!
# Who holds on to harvesters

A harvester is started with its stage, which holds on to it from then on; a stage that is sent to the
background is entered in the job table, and lets go of its child and its harvester. What the stages
of a plan hold on to are their *holdings*.

Running a stage changes no holding but that of the stage itself (`PlanAction.Took`). Over the rounds
of the loop this adds up: every harvester that was started is held on to by a stage or was handed to
a job, and the stages that were detached are those that were entered (`Custody`).
-/

namespace ShellEngine

open Machine

namespace Session

theorem Started.unique {s t t' : Session} {r ready ready' : RunningStage}
    (h : s.Started r ready t) (h' : s.Started r ready' t') : ready = ready' ∧ t = t' := by
  obtain ⟨htarget, hplaced, hlaunched⟩ := h
  obtain ⟨htarget', hplaced', hlaunched'⟩ := h'
  obtain rfl := Option.some.inj (htarget.symm.trans htarget')
  obtain ⟨hsnapshot, hplaced⟩ := Prod.mk.inj (hplaced.symm.trans hplaced')
  obtain rfl := Except.ok.inj hsnapshot
  obtain ⟨rfl, rfl⟩ := Prod.mk.inj hplaced
  obtain ⟨-, hlaunched⟩ := Prod.mk.inj (hlaunched.symm.trans hlaunched')
  obtain ⟨rfl, rfl⟩ := Prod.mk.inj hlaunched
  exact ⟨rfl, rfl⟩

/-- The stage is a program that is waited for, and sent to the background while it is. -/
structure Detaches (s : Session) (r : RunningStage) : Prop where
  isProgram : Builtin.ofName? r.stage.program = none
  waits : r.stage.waits = true
  wait : ∃ ready t u, s.Started r ready t ∧ t.waitForStage ready = (.ok .backgrounded, u)

section

variable {s t : Session} {r placed ready : RunningStage} {e : EngineError}

theorem Detaches.wait_of_started (h : s.Detaches r) (hstarted : s.Started r ready t) :
    ∃ u, t.waitForStage ready = (.ok .backgrounded, u) := by
  obtain ⟨ready', t', u, hstarted', hwait⟩ := h.wait
  obtain ⟨rfl, rfl⟩ := hstarted.unique hstarted'
  exact ⟨u, hwait⟩

theorem Detaches.redirect_ne (h : s.Detaches r) : s.redirect r false ≠ (.error e, placed, t) :=
  fun hplaced ↦ by
    obtain ⟨_, _, _, ⟨-, hplaced', -⟩, -⟩ := h.wait
    cases hplaced.symm.trans hplaced'

theorem Detaches.launch_ne {s' : Session} {target : String} {snapshot : Snapshot}
    {launched : RunningStage} (h : s.Detaches r) (htarget : PlanAction.target? s r = some target)
    (hplaced : s.redirect r false = (.ok snapshot, placed, s')) :
    s'.launch placed target ≠ (.error e, launched, t) := fun hlaunched ↦ by
  obtain ⟨_, _, _, ⟨htarget', hplaced', hlaunched'⟩, -⟩ := h.wait
  obtain rfl := Option.some.inj (htarget.symm.trans htarget')
  obtain ⟨-, hsame⟩ := Prod.mk.inj (hplaced.symm.trans hplaced')
  obtain ⟨rfl, rfl⟩ := Prod.mk.inj hsame
  cases hlaunched.symm.trans hlaunched'

end

end Session

/-! ## Holdings -/

/-- What a stage holds on to, and the text that it would be entered with in the job table. -/
structure Holding where
  text : String
  child : Option Nat
  harvester : Option Nat

/-- Nothing is held on to. -/
def Holding.IsIdle (h : Holding) : Prop := h.child = none ∧ h.harvester = none

def RunningStage.holding (r : RunningStage) : Holding :=
  { text := r.stage.text, child := r.child, harvester := r.harvester }

theorem RunningStage.holding_eq_of_task {r r' : RunningStage} (h : r'.task = r.task) :
    r'.holding = r.holding := by
  obtain ⟨hstage, -, hchild, hharvester⟩ : r'.stage = r.stage ∧ r'.record = r.record ∧
      r'.child = r.child ∧ r'.harvester = r.harvester := by simpa [task] using h
  rw [holding, holding, hstage, hchild, hharvester]

namespace PlanState

def holdings (p : PlanState) : List Holding := p.plan.stages.toList.map RunningStage.holding

theorem getElem?_holdings (p : PlanState) (index : Nat) :
    p.holdings[index]? = p.plan.stages[index]?.map RunningStage.holding := by
  rw [holdings, List.getElem?_map, Array.getElem?_toList]

theorem ext_holdings {p q : PlanState}
    (h : ∀ i : Nat, q.plan.stages[i]?.map RunningStage.holding
      = p.plan.stages[i]?.map RunningStage.holding) : q.holdings = p.holdings :=
  List.ext_getElem? fun i ↦ by rw [getElem?_holdings, getElem?_holdings, h i]

end PlanState

namespace PlanAction

open Session PlanState

variable {index : Nat} {a b c : Situation} {r : RunningStage}

theorem holdings_withStage (p : PlanState) (index : Nat) (r : RunningStage) :
    (withStage p index r).holdings = p.holdings.set index r.holding := by
  refine List.ext_getElem? fun i ↦ ?_
  rw [getElem?_holdings, withStage, Array.getElem?_modify, List.getElem?_set']
  split
  · rename_i hi
    subst hi
    rw [getElem?_holdings]
    cases p.plan.stages[index]? <;> rfl
  · rw [getElem?_holdings]

theorem holdings_withStage_of_holding_eq {p : PlanState} {old new : RunningStage}
    (hold : p.plan.stages[index]? = some old) (hnew : new.holding = old.holding) :
    (withStage p index new).holdings = p.holdings := by
  refine ext_holdings fun i ↦ ?_
  rw [withStage, Array.getElem?_modify]
  split
  · rename_i hi
    rw [← hi, hold]
    exact congrArg some hnew
  · rfl

/-! ## Running a stage -/

theorem HandsOff.adds {reader : Option Nat} (h : HandsOff index a reader b) :
    a.2.Adds 0 [] b.2 ∧ b.1.holdings = a.1.holdings := by
  cases h with
  | nothing => exact ⟨.refl _, rfl⟩
  | dropped => exact ⟨adds_closeDescriptor _ _, rfl⟩
  | handed hnext =>
    exact ⟨adds_foldl _ adds_closeDescriptor _, holdings_withStage_of_holding_eq hnext rfl⟩

/-- What a stage that held on to nothing holds on to once it was run: what was started for it, but
for a stage that was sent to the background, of which a job took that over. -/
structure Took (index : Nat) (r : RunningStage) (a b : Situation) (started : Nat)
    (holding : Holding) (js : List Job) : Prop where
  adds : a.2.Adds started js b.2
  holdings : b.1.holdings = a.1.holdings.set index holding
  text : holding.text = r.stage.text
  handles : js.filterMap Job.harvester ++ holding.harvester.toList
    = List.range' a.2.harvesters.size started
  kept : ¬ a.2.Detaches r → js = []
  entered : a.2.Detaches r → holding.IsIdle ∧
    ∃ job, js = [job] ∧ job.text = r.stage.text ∧ job.child.isSome = true

/-- A stage that keeps what was started for it. -/
theorem Took.of_kept {started : Nat} {holding : Holding} (hadds : a.2.Adds started [] b.2)
    (hholdings : b.1.holdings = a.1.holdings.set index holding) (htext : holding.text = r.stage.text)
    (hhandles : holding.harvester.toList = List.range' a.2.harvesters.size started)
    (hdetaches : ¬ a.2.Detaches r) : Took index r a b started holding [] where
  adds := hadds
  holdings := hholdings
  text := htext
  handles := by simpa using hhandles
  kept _ := rfl
  entered h := absurd h hdetaches

theorem Took.of_idle (hadds : a.2.Adds 0 [] b.2)
    (hholdings : b.1.holdings = a.1.holdings.set index r.holding) (hharvester : r.harvester = none)
    (hdetaches : ¬ a.2.Detaches r) : Took index r a b 0 r.holding [] :=
  .of_kept hadds hholdings rfl (by simp [RunningStage.holding, hharvester]) hdetaches

theorem took_of_runsBuiltin {cmd : Builtin} {result : Except EngineError StageResult}
    (hname : Builtin.ofName? r.stage.program = some cmd) (hharvester : r.harvester = none)
    (h : RunsBuiltin index r cmd a result b) : Took index r a b 0 r.holding [] := by
  have hdetaches : ¬ a.2.Detaches r := fun h ↦ by
    rw [h.isProgram] at hname
    cases hname
  have hredirect := adds_redirect a.2 r true
  have hholdings := RunningStage.holding_eq_of_task (a.2.task_redirect r true)
  -- A builtin changes what builtins change; what is held back is drained and read again.
  have hran {snapshot : Snapshot} {placed : RunningStage} {s t : Session} {code : Int}
      (hplaced : a.2.redirect r true = (.ok snapshot, placed, s))
      (hrun : (cmd.run r.stage.arguments).outcome
        ((s.hold snapshot.nextInput).commenceDrains placed).2 = (.ok code, t))
      (buffers : List Nat) :
      a.2.Adds 0 [] ((t.revert { snapshot with nextInput := none }).finalize buffers) := by
    rw [hplaced] at hredirect
    have hkeeps := Adds.chore.run cmd r.stage.arguments
      ((s.hold snapshot.nextInput).commenceDrains placed).2
    rw [Action.Keeps, hrun] at hkeeps
    exact hredirect.before ((adds_hold s _).before ((adds_commenceDrains _ placed).before
      (hkeeps.before ((adds_revert t _).before (adds_finalize _ _)))))
  have hset {placed : RunningStage} (hplaced : (a.2.redirect r true).2.1 = placed) :
      (withStage a.1 index { placed with pendingDrains := [] }).holdings
        = a.1.holdings.set index r.holding := by
    rw [← hholdings, hplaced]
    exact holdings_withStage _ _ _
  cases h with
  | misplaced hplaced =>
    rw [hplaced] at hredirect hholdings
    exact .of_idle hredirect (hholdings ▸ holdings_withStage _ _ _) hharvester hdetaches
  | ran hplaced hrun =>
    exact .of_idle (hran hplaced hrun _) (hset (by rw [hplaced])) hharvester hdetaches
  | piped hplaced hrun _ hreplay hhand =>
    exact .of_idle ((hran hplaced hrun _).before ((adds_replay _ hreplay).before hhand.adds.1))
      (hhand.adds.2.trans (hset (by rw [hplaced]))) hharvester hdetaches

theorem Launches.adds {s t : Session} {target : String} {snapshot : Snapshot}
    {ready : RunningStage} (h : Launches s r target snapshot ready t) (hharvester : r.harvester = none) :
    ∃ started, s.Adds started [] t ∧ ready.holding.text = r.stage.text ∧
      ready.holding.harvester.toList = List.range' s.harvesters.size started := by
  obtain ⟨placed, launched, s₁, s₂, hplaced, hlaunched, rfl, rfl⟩ := h.exists_launch
  have hredirect := adds_redirect s r false
  have htask := RunningStage.holding_eq_of_task (s.task_redirect r false)
  rw [hplaced] at hredirect htask
  obtain ⟨started, hadds, hhandles, htext⟩ :=
    adds_launch s₁ placed target ((congrArg Holding.harvester htask).trans hharvester)
  rw [hlaunched, hredirect.size] at hhandles
  rw [hlaunched] at hadds htext
  exact ⟨started,
    (hredirect.before hadds).after ((adds_revert s₂ _).before (adds_commenceDrains _ launched)),
    htext.trans (congrArg Holding.text htask), hhandles⟩

/-- A program that was launched, and kept what was started for it. -/
theorem Launches.exists_took {t : Session} {target : String} {snapshot : Snapshot}
    {ready : RunningStage} (h : Launches a.2 r target snapshot ready t)
    (hharvester : r.harvester = none) (hadds : t.Adds 0 [] b.2)
    (hholdings : b.1.holdings = (withStage a.1 index ready).holdings)
    (hdetaches : ¬ a.2.Detaches r) : ∃ started holding js, Took index r a b started holding js := by
  obtain ⟨started, hstarted, htext, hhandles⟩ := h.adds hharvester
  exact ⟨started, ready.holding, [], .of_kept (hstarted.after hadds)
    (hholdings.trans (holdings_withStage _ _ _)) htext hhandles hdetaches⟩

/-- A program that was launched and then sent to the background; a job took over what was started
for it. -/
theorem Launches.exists_took_of_detaches {t u : Session} {target text : String}
    {snapshot : Snapshot} {ready : RunningStage} (h : Launches a.2 r target snapshot ready t)
    (hharvester : r.harvester = none) (hdetaches : a.2.Detaches r) (hchild : ready.child ≠ none)
    (hwait : t.waitForStage ready = (.ok .backgrounded, u))
    (hadds : ({ u with
      jobs := (u.jobs.register ready.stage.text ready.child ready.harvester).2
      host := u.host.say 2 text } : Session).Adds 0 [] b.2)
    (hholdings : b.1.holdings =
      (withStage a.1 index { ready with child := none, harvester := none }).holdings) :
    ∃ started holding js, Took index r a b started holding js := by
  obtain ⟨started, hstarted, htext, hhandles⟩ := h.adds hharvester
  let job : Job :=
    { id := u.jobs.lastId + 1
      text := ready.stage.text
      child := ready.child
      harvester := ready.harvester }
  have hwaited := adds_waitForStage t ready
  rw [hwait] at hwaited
  have hregistered : u.Adds 0 [job] { u with
      jobs := (u.jobs.register ready.stage.text ready.child ready.harvester).2
      host := u.host.say 2 text } :=
    ⟨by simp [Session.joins], .register .refl _ _ _⟩
  refine ⟨started, { ready.holding with child := none, harvester := none }, [job],
    { adds := ?_
      holdings := hholdings.trans (holdings_withStage _ _ _)
      text := htext
      handles := ?_
      kept := fun hnot ↦ absurd hdetaches hnot
      entered := fun _ ↦ ⟨⟨rfl, rfl⟩, job, rfl, htext, Option.isSome_iff_ne_none.mpr hchild⟩ }⟩
  · simpa using hstarted.trans ((hwaited.before hregistered).after hadds)
  · rw [← hhandles]
    cases hharvested : ready.harvester <;> simp [job, hharvested, RunningStage.holding]

/-- A program that could not be launched keeps what was started for it all the same. -/
theorem exists_took_of_unlaunched {s t : Session} {target : String} {snapshot : Snapshot}
    {placed launched : RunningStage} {e : EngineError} (htarget : target? a.2 r = some target)
    (hharvester : r.harvester = none)
    (hplaced : a.2.redirect r false = (.ok snapshot, placed, s))
    (hlaunched : s.launch placed target = (.error e, launched, t)) (hadds : t.Adds 0 [] b.2)
    (hholdings : b.1.holdings = a.1.holdings.set index launched.holding) :
    ∃ started holding js, Took index r a b started holding js := by
  have hredirect := adds_redirect a.2 r false
  have hplacing := RunningStage.holding_eq_of_task (a.2.task_redirect r false)
  rw [hplaced] at hredirect hplacing
  obtain ⟨started, hstarted, hhandles, htext⟩ :=
    adds_launch s placed target ((congrArg Holding.harvester hplacing).trans hharvester)
  rw [hlaunched] at hstarted hhandles htext
  rw [hredirect.size] at hhandles
  exact ⟨started, launched.holding, [], .of_kept (hredirect.before (hstarted.after hadds)) hholdings
    (htext.trans (congrArg Holding.text hplacing)) hhandles
    fun hdetaches ↦ hdetaches.launch_ne htarget hplaced hlaunched⟩

theorem took_of_runsProgram {target : String} {result : Except EngineError StageResult}
    (hname : Builtin.ofName? r.stage.program = none) (htarget : target? a.2 r = some target)
    (hharvester : r.harvester = none) (h : RunsProgram index r target a result b) :
    ∃ started holding js, Took index r a b started holding js := by
  -- a wait that came to anything else shows that the stage was not sent to the background
  have hkept {snapshot : Snapshot} {ready : RunningStage} {t : Session}
      {waited : Except IoError WaitOutcome} (hlaunches : Launches a.2 r target snapshot ready t)
      (hwait : (t.waitForStage ready).1 = waited) (hne : waited ≠ .ok .backgrounded) :
      ¬ a.2.Detaches r := fun hdetaches ↦ by
    obtain ⟨u, hback⟩ := hdetaches.wait_of_started (hlaunches.started htarget)
    rw [hback] at hwait
    exact hne hwait.symm
  cases h with
  | misplaced hplaced =>
    have hredirect := adds_redirect a.2 r false
    have hholdings := RunningStage.holding_eq_of_task (a.2.task_redirect r false)
    rw [hplaced] at hredirect hholdings
    exact ⟨0, r.holding, [], .of_idle hredirect (hholdings ▸ holdings_withStage _ _ _) hharvester
      fun hdetaches ↦ hdetaches.redirect_ne hplaced⟩
  | @unlaunched _ snapshot _ launched _ t hplaced hlaunched =>
    have hclosed := (adds_revert t { snapshot with nextInput := none }).before
      (adds_foldl _ adds_closeDescriptor
        (snapshot.nextInput.toList ++ launched.pendingDrains.map (·.2)))
    exact exists_took_of_unlaunched htarget hharvester hplaced hlaunched hclosed
      (holdings_withStage _ _ _)
  | unattended hlaunches hidle hhand =>
    refine hlaunches.exists_took hharvester hhand.adds.1 hhand.adds.2 fun hdetaches ↦ ?_
    obtain ⟨u, hwait⟩ := hdetaches.wait_of_started (hlaunches.started htarget)
    rcases hidle with hwaits | hchild
    · rw [hlaunches.waits_eq, hdetaches.waits] at hwaits
      cases hwaits
    · rw [waitForStage, hchild] at hwait
      cases hwait
  | @lost _ ready t _ _ hlaunches _ _ hwait =>
    cases hwait with
    | lost hwait =>
      have hwaited := adds_waitForStage t ready
      rw [hwait] at hwaited
      exact hlaunches.exists_took hharvester (hwaited.after (adds_foldl _ adds_closeDescriptor _))
        rfl (hkept hlaunches (by rw [hwait]) (by simp))
  | @attended snapshot ready t _ _ _ hlaunches hwaits hchild hwait hhand =>
    have hwaited := adds_waitForStage t ready
    cases hwait with
    | completed hwait =>
      rw [hwait] at hwaited
      exact hlaunches.exists_took hharvester (hwaited.after hhand.adds.1) hhand.adds.2
        (hkept hlaunches (by rw [hwait]) (by simp))
    | cancelled hwait =>
      rw [hwait] at hwaited
      exact hlaunches.exists_took hharvester (hwaited.after hhand.adds.1) hhand.adds.2
        (hkept hlaunches (by rw [hwait]) (by simp))
    | @backgrounded u text hwait =>
      have hdetaches : a.2.Detaches r :=
        ⟨hname, hlaunches.waits_eq.symm.trans hwaits, ready, t, u, hlaunches.started htarget, hwait⟩
      refine hlaunches.exists_took_of_detaches hharvester hdetaches hchild hwait hhand.adds.1 ?_
      rw [hhand.adds.2, withStage_withStage]

/-- Whatever is run as a stage, and however that goes, takes up what was started for it. -/
theorem took_of_runStage {result : Except EngineError StageResult}
    (hr : a.1.plan.stages[index]? = some r) (hidle : r.holding.IsIdle)
    (h : (runStage index).Gives a result b) (hresult : result ≠ .ok .delegated) :
    ∃ started holding js, Took index r a b started holding js := by
  have hsame {r' : RunningStage} (hr' : a.1.plan.stages[index]? = some r') : r' = r :=
    Option.some.inj (hr'.symm.trans hr)
  -- A stage that names no program is not started.
  have hnone {b : Situation} (htarget : target? a.2 r = none) (hadds : a.2.Adds 0 [] b.2)
      (hplan : b.1 = a.1) : ∃ started holding js, Took index r a b started holding js := by
    refine ⟨0, r.holding, [], .of_idle hadds ?_ hidle.2 fun hdetaches ↦ ?_⟩
    · rw [hplan, ← holdings_withStage, holdings_withStage_of_holding_eq hr rfl]
    · obtain ⟨ready, t, u, ⟨htarget', -, -⟩, -⟩ := hdetaches.wait
      exact absurd (htarget.symm.trans htarget') (by simp)
  cases runsStage_of_gives h with
  | builtin hr' hname hrun =>
    obtain rfl := hsame hr'
    exact ⟨_, _, _, took_of_runsBuiltin hname hidle.2 hrun⟩
  | program hr' hname htarget hrun =>
    obtain rfl := hsame hr'
    exact took_of_runsProgram hname htarget hidle.2 hrun
  | @delegated _ delegated t hr' _ htarget _ _ hdelegate =>
    obtain rfl := hsame hr'
    cases delegated with
    | error e => exact hnone htarget (adds_delegate hdelegate rfl) rfl
    | ok id => exact absurd rfl hresult
  | notFound hr' _ htarget =>
    obtain rfl := hsame hr'
    exact hnone htarget (.refl _) rfl
  | absent habsent => rw [hr] at habsent; cases habsent

end PlanAction

/-! ## Rounds of the loop -/

theorem perm_filterMap_set {α β : Type} {f : α → Option β} {as : List α} {i : Nat} {old : α}
    (hold : as[i]? = some old) (hnone : f old = none) (new : α) :
    ((as.set i new).filterMap f).Perm ((f new).toList ++ as.filterMap f) := by
  induction as generalizing i with
  | nil => cases hold
  | cons a as ih =>
    cases i with
    | zero =>
      obtain rfl : a = old := by simpa using hold
      cases hnew : f new <;> simp [hnew, hnone]
    | succ i =>
      have hrest := ih (i := i) (by simpa using hold)
      rw [List.set_cons_succ, List.filterMap_cons, List.filterMap_cons]
      cases f a with
      | none => exact hrest
      | some b => exact (hrest.cons b).trans List.perm_middle.symm

/-- Whether a stage was sent to the background while it was waited for. -/
def Visit.IsDetached (v : Visit) : Prop :=
  ∃ r, v.start.1.plan.stages[v.stage]? = some r ∧ v.start.2.Detaches r

/-- The harvesters that the stages of a plan hold on to. -/
def PlanState.held (p : PlanState) : List Nat := p.holdings.filterMap Holding.harvester

/-- What became of harvesters and stages while some stages were visited, none of them before an
index: each harvester that was started or held on to is held on to or was handed to a job, and each
stage that was detached was entered in the job table. -/
structure Custody (index : Nat) (visits : List Visit) (a b : Situation) (js : List (Nat × Job)) :
    Prop where
  exists_adds : ∃ started, a.2.Adds started (js.map Prod.snd) b.2 ∧
    (js.filterMap (·.2.harvester) ++ b.1.held).Perm
      (a.1.held ++ List.range' a.2.harvesters.size started)
  before : ∀ i < index, b.1.holdings[i]? = a.1.holdings[i]?
  texts : b.1.holdings.map Holding.text = a.1.holdings.map Holding.text
  entered_iff : ∀ i, i ∈ js.map Prod.fst ↔ ∃ v ∈ visits, v.stage = i ∧ v.IsDetached
  ascends : (js.map Prod.fst).Pairwise (· < ·) ∧ ∀ i ∈ js.map Prod.fst, index ≤ i
  freed : ∀ e ∈ js, e.2.child.isSome = true ∧
    ∃ holding, b.1.holdings[e.1]? = some holding ∧ holding.IsIdle ∧ holding.text = e.2.text

namespace Custody

open PlanAction Session PlanState

variable {index next : Nat} {a b c : Situation} {v : Visit} {visits : List Visit}
  {js js' : List (Nat × Job)}

theorem of_holdings_eq (index : Nat) (hadds : a.2.Adds 0 [] b.2)
    (hholdings : b.1.holdings = a.1.holdings) : Custody index [] a b [] where
  exists_adds := ⟨0, hadds, by simp [held, hholdings]⟩
  before _ _ := by rw [hholdings]
  texts := by rw [hholdings]
  entered_iff := by simp
  ascends := by simp
  freed := by simp

theorem of_took {r : RunningStage} {started : Nat} {holding : Holding} {js : List Job}
    (hr : v.start.1.plan.stages[v.stage]? = some r) (hidle : r.holding.IsIdle)
    (h : Took v.stage r v.start v.stop started holding js) :
    Custody v.stage [v] v.start v.stop (js.map (v.stage, ·)) := by
  have hhere : v.start.1.holdings[v.stage]? = some r.holding := by rw [getElem?_holdings, hr]; rfl
  have hjobs : (js.map (v.stage, ·)).map Prod.snd = js := by simp [List.map_map, Function.comp_def]
  have hdetached : v.IsDetached ↔ v.start.2.Detaches r :=
    ⟨fun ⟨r', hr', h⟩ ↦ Option.some.inj (hr'.symm.trans hr) ▸ h, fun h ↦ ⟨r, hr, h⟩⟩
  -- There is a job exactly if the stage was detached, and then there is one.
  have hcases : (v.IsDetached ∧ holding.IsIdle ∧
      ∃ job, js = [job] ∧ job.text = r.stage.text ∧ job.child.isSome = true) ∨
        ¬ v.IsDetached ∧ js = [] := by
    rw [hdetached]
    by_cases hd : v.start.2.Detaches r
    · exact Or.inl ⟨hd, h.entered hd⟩
    · exact Or.inr ⟨hd, h.kept hd⟩
  refine ⟨⟨started, hjobs.symm ▸ h.adds, ?_⟩, fun i hi ↦ ?_, ?_, fun i ↦ ?_, ?_, fun e he ↦ ?_⟩
  · rw [held, h.holdings, List.filterMap_map, ← h.handles]
    refine ((perm_filterMap_set hhere hidle.2 holding).append_left _).trans ?_
    rw [← List.append_assoc]
    exact List.perm_append_comm
  · rw [h.holdings, List.getElem?_set_ne (Nat.ne_of_gt hi)]
  · rw [h.holdings, List.map_set, h.text]
    refine List.ext_getElem? fun i ↦ ?_
    rw [List.getElem?_set']
    split
    · rename_i hi
      rw [← hi, List.getElem?_map, hhere]
      rfl
    · rfl
  · rcases hcases with ⟨hd, -, job, rfl, -, -⟩ | ⟨hd, rfl⟩
    · simp [hd, eq_comm]
    · simp [hd]
  · rcases hcases with ⟨-, -, job, rfl, -, -⟩ | ⟨-, rfl⟩ <;> simp
  · rcases hcases with ⟨-, hfree, job, rfl, htext, hchild⟩ | ⟨-, rfl⟩
    · obtain rfl := List.mem_singleton.mp he
      refine ⟨hchild, holding, ?_, hfree, h.text.trans htext.symm⟩
      rw [h.holdings, List.getElem?_set', hhere]
      simp
    · cases he

theorem trans (h : Custody index visits a b js) (hvisits : ∀ i ∈ js.map Prod.fst, i < next)
    (hindex : index ≤ next) {visits' : List Visit} (h' : Custody next visits' b c js') :
    Custody index (visits ++ visits') a c (js ++ js') := by
  obtain ⟨started, hadds, hhandles⟩ := h.exists_adds
  obtain ⟨started', hadds', hhandles'⟩ := h'.exists_adds
  refine ⟨⟨started + started', by simpa using hadds.trans hadds', ?_⟩, fun i hi ↦ ?_, ?_, fun i ↦ ?_,
    ?_, fun e he ↦ ?_⟩
  · rw [hadds.size] at hhandles'
    have hfront := hhandles'.append_left (js.filterMap (·.2.harvester))
    have hback := hhandles.append_right (List.range' (a.2.harvesters.size + started) started')
    rw [← List.append_assoc, ← List.append_assoc] at hfront
    rw [List.append_assoc a.1.held, List.range'_append_1] at hback
    rw [List.filterMap_append]
    exact hfront.trans hback
  · rw [h'.before i (Nat.lt_of_lt_of_le hi hindex), h.before i hi]
  · rw [h'.texts, h.texts]
  · rw [List.map_append, List.mem_append, h.entered_iff, h'.entered_iff]
    simp only [List.mem_append, or_and_right, exists_or]
  · rw [List.map_append, List.pairwise_append]
    refine ⟨⟨h.ascends.1, h'.ascends.1, fun i hi j hj ↦ ?_⟩, fun i hi ↦ ?_⟩
    · exact Nat.lt_of_lt_of_le (hvisits i hi) (h'.ascends.2 j hj)
    · rcases List.mem_append.mp hi with hi | hi
      · exact h.ascends.2 i hi
      · exact Nat.le_trans hindex (h'.ascends.2 i hi)
  · rcases List.mem_append.mp he with he | he
    · obtain ⟨hchild, holding, hget, hfreed⟩ := h.freed e he
      refine ⟨hchild, holding, ?_, hfreed⟩
      rw [h'.before e.1 (hvisits e.1 (List.mem_map_of_mem he)), hget]
    · exact h'.freed e he

end Custody

namespace PlanAction

open Session PlanState

variable {rules : List Continuation} {index : Nat} {a b : Situation} {v : Visit}
  {visits : List Visit}

theorem holdings_prepared (p : PlanState) (index : Nat) :
    (prepared p index).holdings = p.holdings := by
  unfold prepared
  split
  · rename_i hr _
    split
    · exact holdings_withStage_of_holding_eq hr rfl
    · rfl
  · rfl

theorem holdings_passed (p : PlanState) (index : Nat) : (passed p index).holdings = p.holdings := by
  rw [holdings, plan_passed]
  rfl

theorem adds_settled (v : Visit) :
    v.stop.2.Adds 0 [] (settled v).2 ∧ (settled v).1.holdings = v.stop.1.holdings := by
  unfold settled
  split
  · exact ⟨.of_eq rfl rfl, rfl⟩
  · exact ⟨.of_eq rfl rfl, holdings_passed _ _⟩
  · refine ⟨.of_eq rfl rfl, ?_⟩
    dsimp only
    split
    · rfl
    · exact holdings_passed _ _

/-- What is taken up in a turn is taken up by its stage, and the stages behind stay as they are. -/
theorem custody_of_turns (hv : v.Turns a b)
    (hidle : ∀ holding, a.1.holdings[v.stage]? = some holding → holding.IsIdle)
    (hhere : ¬ v.IsDelegated) :
    ∃ js, Custody v.stage [v] a b js ∧
      ∀ i, v.stage < i → b.1.holdings[i]? = a.1.holdings[i]? := by
  have hstart : v.start = (prepared a.1 v.stage, a.2) :=
    (hv.prepare.unique (gives_prepare v.stage a)).2
  have hholdings : v.start.1.holdings = a.1.holdings := by
    rw [hstart]
    exact holdings_prepared _ _
  have hsession : v.start.2 = a.2 := by rw [hstart]
  obtain ⟨-, -, rfl⟩ := eq_of_gives_settle hv.settle
  obtain ⟨hsettled, hsame⟩ := adds_settled v
  have hwrap {js : List (Nat × Job)} (h : Custody v.stage [v] v.start v.stop js) :
      Custody v.stage [v] a (settled v) js := by
    have hbefore := Custody.of_holdings_eq (a := a) (b := v.start) v.stage (hsession ▸ .refl _)
      hholdings
    have hafter := Custody.of_holdings_eq (v.stage + 1) hsettled hsame
    have htrans := (hbefore.trans (by simp) (Nat.le_refl _) h).trans (fun i hi ↦ ?_)
      (Nat.le_succ _) hafter
    · simpa using htrans
    · obtain ⟨w, hw, rfl, -⟩ := (h.entered_iff i).mp hi
      rw [List.mem_singleton.mp hw]
      exact Nat.lt_succ_self _
  cases hr : v.start.1.plan.stages[v.stage]? with
  | none =>
    have hstop := (runsStage_of_gives hv.run).eq_of_absent hr
    refine ⟨[], hwrap ?_, fun i _ ↦ by rw [hsame, hstop, hholdings]⟩
    have hnothing := Custody.of_holdings_eq (a := v.start) (b := v.stop) v.stage
      (hstop ▸ .refl _) (by rw [hstop])
    exact { hnothing with entered_iff := fun i ↦ by simp [Visit.IsDetached, hr] }
  | some r =>
    have hfree : r.holding.IsIdle := by
      refine hidle _ ?_
      rw [← hholdings, getElem?_holdings, hr]
      rfl
    obtain ⟨started, holding, js, htook⟩ := took_of_runStage hr hfree hv.run hhere
    refine ⟨_, hwrap (.of_took hr hfree htook), fun i hi ↦ ?_⟩
    rw [hsame, htook.holdings, List.getElem?_set_ne (Nat.ne_of_lt hi), hholdings]

/-- **Custody over the rounds of the loop.** The induction is along the rounds; the stages that are
yet to come hold on to nothing. -/
theorem custody_of_rounds (h : Rounds rules index a visits b)
    (hidle : ∀ i, index ≤ i → ∀ holding, a.1.holdings[i]? = some holding → holding.IsIdle)
    (hhere : ∀ v ∈ visits, ¬ v.IsDelegated) : ∃ js, Custody index visits a b js := by
  induction h with
  | @cancelled due a b hprepare _ =>
    obtain rfl := (hprepare.unique (gives_prepare due a)).2
    exact ⟨[], .of_holdings_eq due (.refl _) (holdings_prepared _ _)⟩
  | @halted v a b _ hv _ =>
    obtain ⟨js, hcustody, -⟩ := custody_of_turns hv (hidle v.stage (Nat.le_refl _))
      (hhere v List.mem_cons_self)
    exact ⟨js, hcustody⟩
  | @last v a b _ hv _ _ =>
    obtain ⟨js, hcustody, -⟩ := custody_of_turns hv (hidle v.stage (Nat.le_refl _))
      (hhere v List.mem_cons_self)
    exact ⟨js, hcustody⟩
  | @next v a b c _ next visits hv _ hnext _ ih =>
    have hlt := (nextStage_bounds hnext).1
    obtain ⟨js, hcustody, hbehind⟩ := custody_of_turns hv (hidle v.stage (Nat.le_refl _))
      (hhere v List.mem_cons_self)
    obtain ⟨js', hcustody'⟩ := ih
      (fun i hi holding hget ↦ hidle i (Nat.le_of_lt (Nat.lt_of_lt_of_le hlt hi)) holding
        ((hbehind i (Nat.lt_of_lt_of_le hlt hi)).symm.trans hget))
      fun w hw ↦ hhere w (List.mem_cons_of_mem _ hw)
    refine ⟨js ++ js', hcustody.trans (fun i hi ↦ ?_) (Nat.le_of_lt hlt) hcustody'⟩
    obtain ⟨w, hw, rfl, -⟩ := (hcustody.entered_iff i).mp hi
    rwa [List.mem_singleton.mp hw]

end PlanAction

end ShellEngine
