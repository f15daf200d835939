import ShellEngine.Proofs.Engine.Execution
import ShellEngine.Proofs.Engine.Trail
import ShellEngine.Proofs.Plan.AndOr

/-!
# The stages of a plan are walked

A plan that is run here runs the stages that `walk` names, each with the status that `Verdict` gives
it (`execute_follows_walk`). The walk may stop early, in one of four ways (`Ending`): the
cancellation signal was up when the next stage was due, a redirection failed, a stage crashed, or the
error of a stage could not be reported, which is a crash too.

## The loop

`drive` is at a stage and in a situation; the loop invariant is that the stages from there on are to
run what the plan says (`Ahead`). What holds of the rest of the run is put in terms of a *route*,
which is `walkFrom` at the stage where the loop is, so that a turn of the loop is one equation of
`walkFrom`. No status is needed of a stage that was not run: the route is followed for all choices
of statuses that agree with those of the visits.
-/

namespace ShellEngine

open Machine PlanAction

/-! ## Ways to follow a route -/

/-- How a plan that is run comes to its end. -/
inductive Ending
  /-- No stage is due any more. -/
  | finished
  /-- A stage was due, but the cancellation signal was up. -/
  | cancelled (due : Nat)
  /-- A redirection of the last stage failed. -/
  | refused
  /-- The stage that was due crashed. -/
  | crashed (due : Nat) (crash : Crash)
  /-- The error of the last stage could not be reported. -/
  | untold (crash : Crash)

def Ending.due : Ending → List Nat
  | .finished | .refused | .untold _ => []
  | .cancelled due | .crashed due _ => [due]

/-- The stages that a run has come to: those that were run, and the one that was due in the end. -/
def reached (visits : List Visit) (ending : Ending) : List Nat :=
  visits.map Visit.stage ++ ending.due

/-- The stage was run as a plan has it, while the cancellation signal was down. -/
structure Visit.IsOf (plan : Plan) (v : Visit) : Prop where
  unsignaled : v.start.2.cancellation.signaled = false
  verdict : ∃ r, v.start.1.plan.stages[v.stage]? = some r ∧ plan.stages[v.stage]? = some r.stage ∧
    Verdict v.start.2 r v.result

/-- Statuses that are those of the visits, and anything for other stages. -/
def Agrees (visits : List Visit) (status : Nat → Int) : Prop := ∀ v ∈ visits, status v.stage = v.status

/-- Visits follow a route, which depends on the statuses of its stages, up to an ending. At the
beginning the level was `level`. -/
structure Follows (plan : Plan) (route : (Nat → Int) → List Nat) (level : Int)
    (visits : List Visit) (ending : Ending) (stop : Situation) : Prop where
  isOf : ∀ v ∈ visits, v.IsOf plan
  agrees : ∃ status, Agrees visits status
  isPrefix : ∀ status, Agrees visits status → reached visits ending <+: route status
  isWhole : ending = .finished → ∀ status, Agrees visits status →
    route status = visits.map Visit.stage
  ascending : (reached visits ending).Pairwise (· < ·)
  /-- A run ends with the first stage whose error cannot be reported, -/
  ofUntold : ∀ v ∈ visits, ∀ crash, v.fault? = some crash →
    ending = .untold crash ∧ visits.getLast? = some v
  /-- and only such a stage makes it end so. -/
  untold : ∀ crash, ending = .untold crash →
    ∃ v, visits.getLast? = some v ∧ v.fault? = some crash
  /-- It ends with the first stage that has a redirection that failed, once that is reported, -/
  ofRefused : ∀ v ∈ visits, v.isRefused = true → v.fault? = none →
    ending = .refused ∧ visits.getLast? = some v
  /-- and only such a stage makes it end so. -/
  refused : ending = .refused → ∃ v, visits.getLast? = some v ∧ v.isRefused = true
  cancelled : ∀ due, ending = .cancelled due → stop.2.cancellation.signaled = true
  crashed : ∀ due crash, ending = .crashed due crash → stop.2.cancellation.signaled = false
  /-- The level is the status of the last stage, or what it was at the beginning. -/
  level_eq : (∀ crash, ending ≠ .untold crash) →
    stop.2.level = (visits.getLast?.map Visit.status).getD level

section Route

variable {plan : Plan} {current next : Nat} {level : Int} {visits : List Visit} {v : Visit}
  {ending : Ending} {a b c : Situation}

theorem current_prefix_walkFrom (rules : List Continuation) (status : Nat → Int) (current : Nat) :
    [current] <+: walkFrom rules status current := by
  rw [walkFrom_eq_cons]
  exact List.prefix_append [current] _

theorem follows_nil (hdue : ending.due = [current])
    (hcancelled : ∀ due, ending = .cancelled due → a.2.cancellation.signaled = true)
    (hcrashed : ∀ due crash, ending = .crashed due crash → a.2.cancellation.signaled = false)
    (hlevel : a.2.level = level) :
    Follows plan (walkFrom plan.rules · current) level [] ending a where
  isOf v hv := absurd hv List.not_mem_nil
  agrees := ⟨fun _ ↦ 0, fun v hv ↦ absurd hv List.not_mem_nil⟩
  isPrefix status _ := by
    rw [reached, hdue]
    exact current_prefix_walkFrom _ _ _
  isWhole h := by
    subst h
    cases hdue
  ascending := by
    rw [reached, hdue]
    exact List.pairwise_singleton _ _
  ofUntold v hv := absurd hv List.not_mem_nil
  untold crash h := by
    subst h
    cases hdue
  ofRefused v hv := absurd hv List.not_mem_nil
  refused h := by
    subst h
    cases hdue
  cancelled := hcancelled
  crashed := hcrashed
  level_eq _ := hlevel

/-- How a run ends with a stage. -/
inductive Visit.EndsRun (v : Visit) (rules : List Continuation) : Ending → Prop
  | finished (htold : v.fault? = none) (haccepted : v.isRefused = false)
      (hnext : nextStage rules v.stage v.status = none) : v.EndsRun rules .finished
  | refused (htold : v.fault? = none) (hrefused : v.isRefused = true) : v.EndsRun rules .refused
  | untold {crash : Crash} (hfault : v.fault? = some crash) : v.EndsRun rules (.untold crash)

theorem follows_single (hv : v.IsOf plan) (hlevel : v.fault? = none → b.2.level = v.status)
    (hends : v.EndsRun plan.rules ending) :
    Follows plan (walkFrom plan.rules · v.stage) level [v] ending b := by
  have hreached : reached [v] ending = [v.stage] := by cases hends <;> rfl
  refine ⟨?_, ⟨fun _ ↦ v.status, ?_⟩, fun status _ ↦ ?_, fun hfinished status hstatus ↦ ?_, ?_,
    fun w hw crash hfault ↦ ?_, fun crash hending ↦ ?_, fun w hw hrefused htold ↦ ?_,
    fun hending ↦ ?_, fun due hending ↦ ?_, fun due crash hending ↦ ?_, fun htold ↦ ?_⟩
  · simpa using hv
  · simp [Agrees]
  · rw [hreached]
    exact current_prefix_walkFrom _ _ _
  · subst hfinished
    cases hends with
    | finished _ _ hnext =>
      rw [walkFrom_eq_cons, hstatus v List.mem_cons_self, hnext]
      rfl
  · rw [hreached]
    exact List.pairwise_singleton _ _
  · obtain rfl := List.mem_singleton.mp hw
    cases hends with
    | finished htold | refused htold => cases htold.symm.trans hfault
    | untold hfault' =>
      obtain rfl := Option.some.inj (hfault'.symm.trans hfault)
      exact ⟨rfl, rfl⟩
  · subst hending
    cases hends with
    | untold hfault => exact ⟨v, rfl, hfault⟩
  · obtain rfl := List.mem_singleton.mp hw
    cases hends with
    | finished _ haccepted => cases haccepted.symm.trans hrefused
    | refused => exact ⟨rfl, rfl⟩
    | untold hfault => cases htold.symm.trans hfault
  · subst hending
    cases hends with
    | refused _ hrefused => exact ⟨v, rfl, hrefused⟩
  · subst hending
    cases hends
  · subst hending
    cases hends
  · cases hends with
    | finished hreported | refused hreported => exact hlevel hreported
    | untold => exact absurd rfl (htold _)

theorem exists_agrees_cons (h : ∃ status, Agrees visits status)
    (hstage : ∀ w ∈ visits, w.stage ≠ v.stage) : ∃ status, Agrees (v :: visits) status := by
  obtain ⟨status, hstatus⟩ := h
  refine ⟨fun j ↦ if j = v.stage then v.status else status j, fun w hw ↦ ?_⟩
  rcases List.mem_cons.mp hw with rfl | hw
  · exact if_pos rfl
  · exact (if_neg (hstage w hw)).trans (hstatus w hw)

/-- A turn of the loop is an equation of the walk: the stage, and then the walk from the next
one. -/
theorem Follows.cons (h : Follows plan (walkFrom plan.rules · next) v.status visits ending c)
    (hv : v.IsOf plan) (htold : v.fault? = none) (hrefused : v.isRefused = false)
    (hnext : nextStage plan.rules v.stage v.status = some next)
    (hbehind : ∀ j ∈ reached visits ending, next ≤ j) :
    Follows plan (walkFrom plan.rules · v.stage) level (v :: visits) ending c := by
  have hwalk (status : Nat → Int) (hstatus : Agrees (v :: visits) status) :
      walkFrom plan.rules status v.stage = v.stage :: walkFrom plan.rules status next := by
    rw [walkFrom_eq_cons, hstatus v List.mem_cons_self, hnext]
    rfl
  have htail {status : Nat → Int} (hstatus : Agrees (v :: visits) status) : Agrees visits status :=
    fun w hw ↦ hstatus w (List.mem_cons_of_mem _ hw)
  have hlast : (v :: visits).getLast? = some (visits.getLast?.getD v) := List.getLast?_cons
  have hahead {j : Nat} (hj : j ∈ reached visits ending) : v.stage < j :=
    Nat.lt_of_lt_of_le (nextStage_bounds hnext).1 (hbehind j hj)
  refine ⟨?_, exists_agrees_cons h.agrees fun w hw ↦ ?_, fun status hstatus ↦ ?_,
    fun hfinished status hstatus ↦ ?_, ?_, fun w hw crash hfault ↦ ?_, fun crash hending ↦ ?_,
    fun w hw hwrefused hwtold ↦ ?_, fun hending ↦ ?_, h.cancelled, h.crashed, fun hreported ↦ ?_⟩
  · exact List.forall_mem_cons.mpr ⟨hv, h.isOf⟩
  · exact Nat.ne_of_gt (hahead (List.mem_append_left _ (List.mem_map_of_mem hw)))
  · rw [hwalk status hstatus]
    exact (List.prefix_cons_inj _).mpr (h.isPrefix status (htail hstatus))
  · rw [hwalk status hstatus, h.isWhole hfinished status (htail hstatus)]
    rfl
  · exact List.pairwise_cons.mpr ⟨fun j hj ↦ hahead hj, h.ascending⟩
  · rcases List.mem_cons.mp hw with rfl | hw
    · cases htold.symm.trans hfault
    · obtain ⟨hending, hwlast⟩ := h.ofUntold w hw crash hfault
      exact ⟨hending, by rw [hlast, hwlast]; rfl⟩
  · obtain ⟨w, hw, hfault⟩ := h.untold crash hending
    exact ⟨w, by rw [hlast, hw]; rfl, hfault⟩
  · rcases List.mem_cons.mp hw with rfl | hw
    · rw [hrefused] at hwrefused
      cases hwrefused
    · obtain ⟨hending, hwlast⟩ := h.ofRefused w hw hwrefused hwtold
      exact ⟨hending, by rw [hlast, hwlast]; rfl⟩
  · obtain ⟨w, hw, hwrefused⟩ := h.refused hending
    exact ⟨w, by rw [hlast, hw]; rfl, hwrefused⟩
  · rw [h.level_eq hreported, hlast]
    cases visits.getLast? <;> rfl

/-- What follows a route still does after a while in which nothing was started. -/
theorem Follows.steady {route : (Nat → Int) → List Nat} (h : Follows plan route level visits ending b)
    (hsteady : b.2.Steady c.2) (hcrashed : ∀ due crash, ending ≠ .crashed due crash) :
    Follows plan route level visits ending c :=
  { h with
    cancelled := fun due hending ↦ hsteady.signaled (h.cancelled due hending)
    crashed := fun due crash hending ↦ absurd hending (hcrashed due crash)
    level_eq := fun hreported ↦ hsteady.level.trans (h.level_eq hreported) }

end Route

/-! ## The loop -/

/-- The stages of a running plan from an index on are to run what the plan says. -/
structure Ahead (plan : Plan) (index : Nat) (p : PlanState) : Prop where
  size : p.plan.stages.size = plan.stages.length
  stage : ∀ j, index ≤ j → p.plan.stages[j]?.map RunningStage.stage = plan.stages[j]?

theorem Ahead.of_sameFrom {plan : Plan} {i j k : Nat} {p q : PlanState} (h : Ahead plan i p)
    (hsame : SameFrom j p q) (hi : i ≤ k) (hj : j ≤ k) : Ahead plan k q :=
  ⟨hsame.size.trans h.size, fun l hl ↦
    (hsame.stage l (Nat.le_trans hj hl)).trans (h.stage l (Nat.le_trans hi hl))⟩

theorem ahead_starting (s : Session) (plan : Plan) : Ahead plan 0 (s.starting plan).1 := by
  refine ⟨?_, fun j _ ↦ s.getElem?_starting plan j⟩
  rw [← s.stages_begin plan, List.length_map, Array.length_toList]
  rfl

theorem length_rules (plan : Plan) : plan.rules.length = plan.stages.length :=
  List.length_map _

/-- A stage that was handed on is the only one of its plan, so that the walk ends behind it. -/
theorem nextStage_of_single {plan : Plan} {current : Nat} {status : Int}
    (h : plan.stages.length = 1) : nextStage plan.rules current status = none := by
  rw [nextStage, if_pos]
  rw [length_rules, h]
  exact Nat.le_add_left 1 current

/-- How driving a plan ends. -/
def DriveEnds (rules : List Continuation) (current : Nat) (a : Situation) (ending : Ending)
    (b : Situation) : Prop :=
  match ending with
  | .crashed due crash => ∃ s, (runStage due).Crashes b crash s ∧
      (drive conductor rules current).Crashes a crash s
  | .untold crash => (drive conductor rules current).Crashes a crash b.2
  | _ => ∃ passage, (drive conductor rules current).Gives a passage b

/-- What the loop does from a stage on: it follows the walk from there. -/
def Walks (plan : Plan) (current : Nat) (a : Situation) : Prop :=
  ∃ visits ending b, Trail a visits b ∧
    Follows plan (walkFrom plan.rules · current) a.2.level visits ending b ∧
    (∀ j ∈ reached visits ending, current ≤ j) ∧ DriveEnds plan.rules current a ending b

section Loop

variable {plan : Plan} {current next : Nat} {a b c : Situation} {v : Visit} {ending : Ending}
  {status : Int}

theorem DriveEnds.of_next (h : DriveEnds plan.rules next b ending c)
    (hturn : (conductor.turn current).Gives a (.goOn status) b)
    (hnext : nextStage plan.rules current status = some next) :
    DriveEnds plan.rules current a ending c := by
  cases ending with
  | crashed due crash =>
    obtain ⟨s, hrun, hdrive⟩ := h
    exact ⟨s, hrun, crashes_drive_of_next hturn hnext hdrive⟩
  | untold crash => exact crashes_drive_of_next hturn hnext h
  | finished | cancelled | refused =>
    obtain ⟨passage, hdrive⟩ := h
    exact ⟨_, gives_drive_of_next hturn hnext hdrive⟩

theorem isOf_of_gives (hahead : Ahead plan v.stage v.start.1) (hstage : v.stage < plan.stages.length)
    (hsignaled : v.start.2.cancellation.signaled = false)
    (hrun : (runStage v.stage).Gives v.start v.result v.stop) :
    v.IsOf plan ∧ (v.result = .ok .delegated → plan.stages.length = 1) := by
  have hget := Array.getElem?_eq_getElem (hahead.size.symm ▸ hstage)
  have hplan := hahead.stage v.stage (Nat.le_refl _)
  rw [hget] at hplan
  obtain ⟨hverdict, hsingle⟩ := verdict_of_gives hget hrun
  exact ⟨⟨hsignaled, _, hget, hplan.symm, hverdict⟩, fun h ↦ hahead.size.symm.trans (hsingle h)⟩

/-- The step of the loop: a stage is run, and the loop ends or goes on at the next one. -/
theorem walks_of_visit (hprepare : (prepare v.stage).Gives a () v.start)
    (hsignaled : v.start.2.cancellation.signaled = false)
    (hrun : (runStage v.stage).Gives v.start v.result v.stop) (htold : v.fault? = none)
    (hstage : v.stage < plan.stages.length) (hahead : Ahead plan v.stage v.start.1)
    (ih : ∀ next b, v.stage < next → next < plan.stages.length → Ahead plan next b.1 →
      Walks plan next b) :
    Walks plan v.stage a := by
  obtain ⟨hv, hsingle⟩ := isOf_of_gives hahead hstage hsignaled hrun
  obtain ⟨hturn, htrail⟩ := gives_turn hprepare hsignaled hrun htold
  have hlevel := level_settled v
  have hbehind : Ahead plan (v.stage + 1) (settled v).1 :=
    (hahead.of_sameFrom (sameFrom_of_runStage hrun) (Nat.le_succ _) (Nat.le_refl _)).of_sameFrom
      (sameFrom_settled v) (Nat.le_refl _) (Nat.zero_le _)
  have hself : ∀ j ∈ [v.stage], v.stage ≤ j := fun j hj ↦ Nat.le_of_eq (List.mem_singleton.mp hj).symm
  -- Either a redirection failed, or the rules say what follows, or the stage was handed on.
  rcases v.turn_cases with ⟨hrefused, passage, hhalt⟩ | ⟨hrefused, hgoOn | ⟨hover, passage, hhalt⟩⟩
  · rw [hhalt] at hturn
    exact ⟨[v], .refused, _, htrail, follows_single hv (fun _ ↦ hlevel) (.refused htold hrefused),
      hself, passage, gives_drive_of_halt hturn⟩
  · rw [hgoOn] at hturn
    cases hnext : nextStage plan.rules v.stage v.status with
    | none =>
      exact ⟨[v], .finished, _, htrail,
        follows_single hv (fun _ ↦ hlevel) (.finished htold hrefused hnext), hself, _,
        gives_drive_of_last hturn hnext⟩
    | some next =>
      obtain ⟨hlt, hinside⟩ := nextStage_bounds hnext
      rw [length_rules] at hinside
      obtain ⟨visits, ending, c, htrail', hfollows, hreached, hends⟩ := ih next _ hlt hinside
        (hbehind.of_sameFrom (.refl next _) hlt (Nat.le_refl _))
      -- What follows began at the level that this stage has left.
      rw [hlevel] at hfollows
      refine ⟨v :: visits, ending, c, htrail.trans htrail',
        hfollows.cons hv htold hrefused hnext hreached, fun j hj ↦ ?_, hends.of_next hturn hnext⟩
      rcases List.mem_cons.mp hj with rfl | hj
      · exact Nat.le_refl _
      · exact Nat.le_trans (Nat.le_of_lt hlt) (hreached j hj)
  · rw [hhalt] at hturn
    have hnext : nextStage plan.rules v.stage v.status = none := nextStage_of_single (hsingle hover)
    exact ⟨[v], .finished, _, htrail,
      follows_single hv (fun _ ↦ hlevel) (.finished htold hrefused hnext), hself, passage,
      gives_drive_of_halt hturn⟩

theorem walks_of_fault {crash : Crash} (hprepare : (prepare v.stage).Gives a () v.start)
    (hsignaled : v.start.2.cancellation.signaled = false)
    (hrun : (runStage v.stage).Gives v.start v.result v.stop) (hfault : v.fault? = some crash)
    (hstage : v.stage < plan.stages.length) (hahead : Ahead plan v.stage v.start.1) :
    Walks plan v.stage a := by
  obtain ⟨hv, -⟩ := isOf_of_gives hahead hstage hsignaled hrun
  obtain ⟨hturn, htrail⟩ := crashes_turn_of_fault hprepare hsignaled hrun hfault
  have huntold : v.fault? ≠ none := fun h ↦ by cases h.symm.trans hfault
  exact ⟨[v], .untold crash, _, htrail,
    follows_single hv (fun h ↦ absurd h huntold) (.untold hfault),
    fun j hj ↦ Nat.le_of_eq (List.mem_singleton.mp hj).symm, crashes_drive_of_turn hturn⟩

/-- **The loop follows the walk**, from wherever it is. The induction is that of `drive`: the loop
comes closer to the end of the plan with every stage. -/
theorem walks (plan : Plan) (current : Nat) (a : Situation) (hcurrent : current < plan.stages.length)
    (hahead : Ahead plan current a.1) : Walks plan current a := by
  have hprepare := gives_prepare current a
  have hprepared := (Bookkeeping.prepare current).trail hprepare
  have hself : ∀ j ∈ [current], current ≤ j := fun j hj ↦ Nat.le_of_eq (List.mem_singleton.mp hj).symm
  -- The stage begins in the situation in which the signal was looked at.
  cases hsignaled : a.2.cancellation.signaled with
  | true =>
    exact ⟨[], .cancelled current, _, hprepared,
      follows_nil rfl (fun _ _ ↦ hsignaled) (fun _ _ h ↦ by cases h) rfl, hself, _,
      gives_drive_of_halt (gives_turn_of_signaled hprepare hsignaled)⟩
  | false =>
    rcases gives_or_crashes (runStage current) (prepared a.1 current, a.2) with
      ⟨result, d, hrun⟩ | ⟨crash, s, hrun⟩
    · let v : Visit := ⟨current, (prepared a.1 current, a.2), result, d⟩
      have hstart : Ahead plan v.stage v.start.1 :=
        hahead.of_sameFrom (sameFrom_prepared a.1 current) (Nat.le_refl _) (Nat.zero_le _)
      cases hfault : v.fault? with
      | some crash => exact walks_of_fault (v := v) hprepare hsignaled hrun hfault hcurrent hstart
      | none =>
        exact walks_of_visit (v := v) hprepare hsignaled hrun hfault hcurrent hstart
          fun next b hlt hinside hahead ↦ walks plan next b hinside hahead
    · exact ⟨[], .crashed current crash, _, hprepared,
        follows_nil rfl (fun _ h ↦ by cases h) (fun _ _ _ ↦ hsignaled) rfl, hself, s, hrun,
        crashes_drive_of_turn (crashes_turn hprepare hsignaled hrun)⟩
termination_by plan.stages.length - current
decreasing_by exact Nat.sub_lt_sub_left hcurrent hlt

theorem walks_starting {s : Session} (hne : plan.stages ≠ []) :
    ∃ visits ending b, Trail (s.starting plan) visits b ∧
      Follows plan (walkFrom plan.rules · 0) s.level visits ending b ∧
      DriveEnds (s.starting plan).1.plan.rules 0 (s.starting plan) ending b := by
  obtain ⟨visits, ending, b, htrail, hfollows, -, hends⟩ :=
    walks plan 0 (s.starting plan) (List.length_pos_iff.mpr hne) (ahead_starting s plan)
  rw [s.level_starting plan] at hfollows
  rw [← s.rules_starting plan] at hends
  exact ⟨visits, ending, b, htrail, hfollows, hends⟩

/-! ## After the loop -/

/-- A plan that was driven to its end is done once the stages that still run were ended or handed to
the job table, which starts nothing and leaves the level alone. -/
theorem exists_gives_runAll {passage : Passage}
    (hdrive : (drive conductor a.1.plan.rules 0).Gives a passage b) :
    ∃ buffer c, runAll.Gives a buffer c ∧ Trail b [] c ∧ b.2.Steady c.2 := by
  have hrelease (d : Situation) : ∃ buffer c,
      (do release
          return (← get).lastBuffer.map (·.1) : PlanAction (Option Nat)).Gives d buffer c ∧
        Trail d [] c ∧ d.2.Steady c.2 := by
    have hrelease := gives_release d
    exact ⟨_, _, hrelease.bind ((gives_get _).bind (gives_pure _ _)),
      Bookkeeping.release.trail hrelease, steady_foldl_released _ d⟩
  unfold runAll
  simp only [(gives_get a).bind_iff, hdrive.bind_iff]
  split
  -- A plan that was handed on is left as it is, without even a release.
  · exact ⟨none, b, gives_pure none b, .done b, .refl b.2⟩
  · simp only [(gives_session b).bind_iff]
    split
    · have hcancel := gives_cancelStages b
      obtain ⟨buffer, c, hgives, htrail, hsteady⟩ := hrelease _
      exact ⟨buffer, c, hcancel.bind hgives, .keep .cancelStages hcancel htrail,
        ((b.2.steady_endStages _).trans (Session.steady_joinStages _ _)).trans hsteady⟩
    · exact hrelease b

theorem crashes_runAll {crash : Crash} {s : Session}
    (hdrive : (drive conductor a.1.plan.rules 0).Crashes a crash s) : runAll.Crashes a crash s := by
  unfold runAll
  exact ((gives_get a).crashes_bind_iff _).mpr (hdrive.bind _)

end Loop

namespace Action

/-- **The stages that are run are the walk.** A plan that is run here runs, each once and in order,
the stages of the walk whose statuses are those that the stages leave, with the signal down when
each begins. It stops where the walk ends, where the next stage is due with the signal up, behind
the first stage with a redirection that failed, or where a stage crashes, as the whole run does
behind the first stage whose error cannot be reported. The level is then the status of the last
stage that was run. -/
theorem execute_follows_walk (plan : Plan) (wantsOutput : Bool) (s : Session)
    (hne : plan.stages ≠ []) (hhere : plan.isHandedOver wantsOutput s.isSubshell = false) :
    ∃ visits ending b, Trail (s.starting plan) visits b ∧
      Follows plan (walk plan.rules) s.level visits ending b ∧
      match ending with
      | .crashed due crash => ∃ t, (runStage due).Crashes b crash t ∧
          (execute plan wantsOutput).outcome s = (.error crash, t)
      | .untold crash => (execute plan wantsOutput).outcome s = (.error crash, b.2)
      | _ => ∃ buffer, (execute plan wantsOutput).outcome s = (.ok (buffer, b.1.plan), b.2) := by
  have hrules : plan.rules.isEmpty = false := by
    simpa [Plan.rules] using hne
  have hwalk : walk plan.rules = (walkFrom plan.rules · 0) := by
    funext status
    rw [walk, hrules]
    rfl
  obtain ⟨visits, ending, b, htrail, hfollows, hends⟩ := walks_starting (s := s) hne
  rw [← hwalk] at hfollows
  rw [outcome_execute_here hne hhere]
  cases ending with
  | crashed due crash =>
    obtain ⟨t, hrun, hdrive⟩ := hends
    refine ⟨visits, .crashed due crash, b, htrail, hfollows, t, hrun, ?_⟩
    rw [crashes_runAll hdrive]
  | untold crash =>
    refine ⟨visits, .untold crash, b, htrail, hfollows, ?_⟩
    dsimp only
    rw [crashes_runAll hends]
  | finished | cancelled | refused =>
    obtain ⟨passage, hdrive⟩ := hends
    obtain ⟨buffer, c, hall, htrail', hsteady⟩ := exists_gives_runAll hdrive
    refine ⟨visits, _, c, ?_, hfollows.steady hsteady (fun _ _ h ↦ by cases h), buffer, ?_⟩
    · simpa using htrail.trans htrail'
    · rw [hall]

def calm : Session where
  settings := {}
  host := { world := { tree := .empty }, cwd := FileTree.root, descriptors := { table := [] } }

/-- The plan of `nosuch || alias e=echo`. -/
def aliasOnFailure : Plan :=
  .ofStages "nosuch || alias e=echo" [
    { argv := ["nosuch"], text := "nosuch", next := .onFailure },
    { argv := ["alias", "e=echo"], text := "alias e=echo" }]

/-- `nosuch || alias e=echo` walks its two stages, of which the second one succeeds. -/
theorem execute_follows_walk_on_failure :
    aliasOnFailure.stages ≠ [] ∧ aliasOnFailure.isHandedOver false calm.isSubshell = false ∧
      ∃ visits ending b buffer, Trail (calm.starting aliasOnFailure) visits b ∧
        Follows aliasOnFailure (walk [.onFailure, .unconditional]) 0 visits ending b ∧
        (execute aliasOnFailure false).outcome calm = (.ok (buffer, b.1.plan), b.2) := by
  have hok : ((execute aliasOnFailure false).outcome calm).1.isOk = true := by decide +kernel
  have hne : aliasOnFailure.stages ≠ [] := by decide
  refine ⟨hne, rfl, ?_⟩
  obtain ⟨visits, ending, b, htrail, hfollows, hends⟩ :=
    execute_follows_walk aliasOnFailure false calm hne rfl
  cases ending with
  | crashed due crash =>
    obtain ⟨t, -, houtcome⟩ := hends
    rw [houtcome] at hok
    cases hok
  | untold crash =>
    dsimp only at hends
    rw [hends] at hok
    cases hok
  | finished | cancelled | refused =>
    obtain ⟨buffer, houtcome⟩ := hends
    exact ⟨visits, _, b, buffer, htrail, hfollows, houtcome⟩

/-- The session with a standard error that takes nothing. -/
def muted : Session :=
  { calm with host := { calm.host with
      world :=
        { tree := { nodes := #[
            { content := .directory [("full".toList, 1)] FileTree.root none, mode := 0o755 },
            { content := .device .full, mode := 0o666 }] }
          files := #[{ target := .node 1 }] }
      descriptors := { table := [(2, 0)] } } }

/-- The failure of the first stage cannot be reported, so that the second one is not run. -/
example : ((execute aliasOnFailure false).outcome muted).1.isOk = false ∧
    ((execute aliasOnFailure false).outcome muted).2.aliases.entries = [] := by
  decide +kernel

/-- The plan of `alias nosuch &`. -/
def aliasUnwaited : Plan :=
  .ofStages "alias nosuch &" [
    { argv := ["alias", "nosuch"], text := "alias nosuch", next := .concurrent, waits := false,
      graceful := true }]

/-- A builtin leaves its own code, here one, even if it is not waited for. -/
theorem execute_of_unwaited_builtin :
    (∀ stage ∈ aliasUnwaited.stages, stage.waits = false) ∧
      aliasUnwaited.isHandedOver false calm.isSubshell = false ∧
      ((execute aliasUnwaited false).outcome calm).1.isOk = true ∧
      ((execute aliasUnwaited false).outcome calm).2.level = 1 := by
  decide +kernel

end Action

end ShellEngine
