import ShellEngine.Proofs.Engine.Execution
import ShellEngine.Proofs.Engine.Trail

/-!
# The rounds of the loop

What a run of a plan consists of, with nothing left open: the loop deals with one stage after the
other (`Rounds`), each time getting the stage ready, running it, and noting what came of it
(`Visit.Turns`). Then the stages that still run are ended if the line was cancelled, and those that
go on are handed over (`Completes`). Each step is one of the engine's own actions, so that the first
situation determines all of the others.
-/

namespace ShellEngine

open PlanAction

/-! ## Rounds -/

/-- A stage is dealt with: it is got ready, it is run with the cancellation signal down, and what
came of it is noted. -/
structure Visit.Turns (v : Visit) (a b : Situation) : Prop where
  prepare : (prepare v.stage).Gives a () v.start
  unsignaled : v.start.2.cancellation.signaled = false
  run : (runStage v.stage).Gives v.start v.result v.stop
  settle : (settle v.stage v.result).Gives v.stop v.turn b

/-- The rounds of the loop from a stage on, with the stages that are run in them. -/
inductive Rounds (rules : List Continuation) : Nat → Situation → List Visit → Situation → Prop
  /-- The stage is due, but the cancellation signal is up. -/
  | cancelled {due : Nat} {a b : Situation} (hprepare : (prepare due).Gives a () b)
      (hsignaled : b.2.cancellation.signaled = true) : Rounds rules due a [] b
  /-- The plan ends with this stage. -/
  | halted {v : Visit} {a b : Situation} {passage : Passage} (hv : v.Turns a b)
      (hturn : v.turn = .halt passage) : Rounds rules v.stage a [v] b
  /-- No stage follows. -/
  | last {v : Visit} {a b : Situation} {status : Int} (hv : v.Turns a b)
      (hturn : v.turn = .goOn status) (hnext : nextStage rules v.stage status = none) :
      Rounds rules v.stage a [v] b
  | next {v : Visit} {a b c : Situation} {status : Int} {next : Nat} {visits : List Visit}
      (hv : v.Turns a b) (hturn : v.turn = .goOn status)
      (hnext : nextStage rules v.stage status = some next) (rest : Rounds rules next b visits c) :
      Rounds rules v.stage a (v :: visits) c

def Visit.IsDelegated (v : Visit) : Prop := v.result = .ok .delegated

namespace PlanAction

variable {rules : List Continuation} {index : Nat} {a b : Situation}

/-- A turn that ends well either stops before its stage or deals with it. -/
theorem turns_of_gives {turn : Turn} (h : (conductor.turn index).Gives a turn b) :
    (turn = .halt {} ∧ (prepare index).Gives a () b ∧ b.2.cancellation.signaled = true) ∨
      ∃ v : Visit, v.stage = index ∧ turn = v.turn ∧ v.Turns a b := by
  have hprepare := gives_prepare index a
  cases hsignaled : a.2.cancellation.signaled with
  | true =>
    obtain ⟨rfl, rfl⟩ := h.unique (gives_turn_of_signaled hprepare hsignaled)
    exact Or.inl ⟨rfl, hprepare, hsignaled⟩
  | false =>
    rcases gives_or_crashes (runStage index) (prepared a.1 index, a.2) with
      ⟨result, d, hrun⟩ | ⟨crash, s, hrun⟩
    · let v : Visit := ⟨index, (prepared a.1 index, a.2), result, d⟩
      cases hfault : v.fault? with
      | none =>
        have hsettle := gives_settle hfault
        obtain ⟨rfl, rfl⟩ := h.unique (gives_turn_of_run hprepare hsignaled hrun hsettle)
        exact Or.inr ⟨v, rfl, rfl, hprepare, hsignaled, hrun, hsettle⟩
      | some crash =>
        have hcrash := (crashes_turn_of_fault (v := v) hprepare hsignaled hrun hfault).1
        rw [Crashes, h] at hcrash
        cases hcrash
    · have hcrash := crashes_turn hprepare hsignaled hrun
      rw [Crashes, h] at hcrash
      cases hcrash

theorem isDelegated_of_halt {v : Visit} {passage : Passage} (h : v.turn = .halt passage) :
    passage.delegated = true ↔ v.IsDelegated := by
  rcases v.turn_cases with ⟨hrefused, -⟩ | ⟨-, hgoOn | ⟨hdelegated, -⟩⟩
  · rw [Visit.isRefused] at hrefused
    rw [Visit.turn] at h
    rw [Visit.IsDelegated]
    cases hresult : v.result with
    | ok result => simp [hresult] at hrefused
    | error e =>
      simp only [hresult] at hrefused h
      rw [if_pos hrefused] at h
      cases h
      simp
  · rw [hgoOn] at h
    cases h
  · have hhere : v.turn = .halt { delegated := true } := by rw [Visit.turn, hdelegated]
    obtain rfl := Turn.halt.inj (hhere.symm.trans h)
    exact iff_of_true rfl hdelegated

theorem not_isDelegated_of_goOn {v : Visit} {status : Int} (h : v.turn = .goOn status) :
    ¬ v.IsDelegated := by
  intro hdelegated
  rw [Visit.turn, hdelegated] at h
  cases h

/-- A loop that comes to its end is made of rounds. The plan is handed on exactly if one of its
stages is. -/
theorem rounds_of_gives (rules : List Continuation) (index : Nat) (a : Situation) {b : Situation}
    {passage : Passage} (h : (drive conductor rules index).Gives a passage b) :
    ∃ visits, Rounds rules index a visits b ∧
      (passage.delegated = true ↔ ∃ v ∈ visits, v.IsDelegated) := by
  rw [drive] at h
  obtain ⟨turn, c, hturn, h⟩ := gives_bind_iff.mp h
  rcases turns_of_gives hturn with ⟨rfl, hprepare, hsignaled⟩ | ⟨v, rfl, rfl, hv⟩
  · obtain ⟨rfl, rfl⟩ := (gives_pure _ _).unique h
    exact ⟨[], .cancelled hprepare hsignaled, by simp⟩
  · cases hround : v.turn with
    | halt p =>
      rw [hround] at h
      obtain ⟨rfl, rfl⟩ := (gives_pure _ _).unique h
      exact ⟨[v], .halted hv hround, by simpa using isDelegated_of_halt hround⟩
    | goOn status =>
      rw [hround] at h
      dsimp only at h
      have hhere := not_isDelegated_of_goOn hround
      split at h
      · rename_i next hnext
        obtain ⟨hlt, hinside⟩ := nextStage_bounds hnext
        obtain ⟨p, d, hdrive, h⟩ := gives_bind_iff.mp h
        obtain ⟨rfl, rfl⟩ := (gives_pure _ _).unique h
        obtain ⟨visits, hrounds, hdelegated⟩ := rounds_of_gives rules next c hdrive
        refine ⟨v :: visits, .next hv hround hnext hrounds, ?_⟩
        simpa [hhere, Passage.after] using hdelegated
      · rename_i hnext
        obtain ⟨rfl, rfl⟩ := (gives_pure _ _).unique h
        exact ⟨[v], .last hv hround hnext, by simpa using hhere⟩
termination_by rules.length - index
decreasing_by omega

theorem gives_turn_of_turns {v : Visit} (hv : v.Turns a b) :
    (conductor.turn v.stage).Gives a v.turn b :=
  gives_turn_of_run hv.prepare hv.unsignaled hv.run hv.settle

/-- Conversely, the rounds are all that the loop does. -/
theorem gives_of_rounds {visits : List Visit} (h : Rounds rules index a visits b) :
    ∃ passage, (drive conductor rules index).Gives a passage b ∧
      (passage.delegated = true ↔ ∃ v ∈ visits, v.IsDelegated) := by
  induction h with
  | cancelled hprepare hsignaled =>
    exact ⟨{}, gives_drive_of_halt (gives_turn_of_signaled hprepare hsignaled), by simp⟩
  | halted hv hturn =>
    exact ⟨_, gives_drive_of_halt (hturn ▸ gives_turn_of_turns hv),
      by simpa using isDelegated_of_halt hturn⟩
  | last hv hturn hnext =>
    exact ⟨_, gives_drive_of_last (hturn ▸ gives_turn_of_turns hv) hnext,
      by simpa using not_isDelegated_of_goOn hturn⟩
  | next hv hturn hnext rest ih =>
    obtain ⟨passage, hdrive, hdelegated⟩ := ih
    refine ⟨_, gives_drive_of_next (hturn ▸ gives_turn_of_turns hv) hnext hdrive, ?_⟩
    simpa [not_isDelegated_of_goOn hturn, Passage.after] using hdelegated

end PlanAction

/-! ## After the loop -/

/-- After the loop the stages that still run are ended if the signal is up, and those that go on are
handed over. -/
structure Completes (driven stopped done : Situation) : Prop where
  stops : if driven.2.cancellation.signaled then cancelStages.Gives driven () stopped
    else stopped = driven
  releases : release.Gives stopped () done

theorem PlanAction.release_of_gives {a b : Situation} {buffer : Option Nat}
    (h : (do release
             return (← get).lastBuffer.map (·.1) : PlanAction (Option Nat)).Gives a buffer b) :
    release.Gives a () b ∧ buffer = b.1.lastBuffer.map (·.1) := by
  obtain ⟨_, done, hrelease, h⟩ := gives_bind_iff.mp h
  rw [(gives_get done).bind_iff] at h
  obtain ⟨rfl, rfl⟩ := (gives_pure _ _).unique h
  exact ⟨hrelease, rfl⟩

namespace Action

variable {s t : Session} {plan : Plan} {wantsOutput : Bool} {buffer : Option Nat}
  {ended : RunningPlan}

/-- A plan that is run here to its end is run in rounds. Unless one of its stages is handed to a new
instance, it is completed behind them. -/
theorem rounds_of_execute (hne : plan.stages ≠ [])
    (hhere : plan.isHandedOver wantsOutput s.isSubshell = false)
    (h : (execute plan wantsOutput).outcome s = (.ok (buffer, ended), t)) :
    ∃ visits driven, Rounds plan.rules 0 (s.starting plan) visits driven ∧
      ((∃ v ∈ visits, v.IsDelegated) ∨ ∃ stopped p, Completes driven stopped (p, t) ∧
        p.plan = ended ∧ buffer = p.lastBuffer.map (·.1)) := by
  rw [outcome_execute_here hne hhere] at h
  have hall : ∃ p, runAll.Gives (s.starting plan) buffer (p, t) ∧ p.plan = ended := by
    rcases hrun : runAll.outcome (s.starting plan) with ⟨e | ⟨r, p⟩, u⟩ <;> rw [hrun] at h <;>
      simp only [Prod.mk.injEq, reduceCtorEq, false_and, Except.ok.injEq] at h
    obtain ⟨⟨rfl, hp⟩, rfl⟩ := h
    exact ⟨p, hrun, hp⟩
  obtain ⟨p, hall, hended⟩ := hall
  unfold runAll at hall
  rw [(gives_get _).bind_iff, s.rules_starting plan] at hall
  obtain ⟨passage, driven, hdrive, hall⟩ := gives_bind_iff.mp hall
  obtain ⟨visits, hrounds, hdelegated⟩ := rounds_of_gives plan.rules 0 _ hdrive
  refine ⟨visits, driven, hrounds, ?_⟩
  split at hall
  case isTrue hpassage => exact Or.inl (hdelegated.mp hpassage)
  case isFalse =>
    right
    rw [(gives_session driven).bind_iff] at hall
    split at hall
    case isTrue hsignaled =>
      obtain ⟨_, stopped, hstop, hall⟩ := gives_bind_iff.mp hall
      obtain ⟨hrelease, hbuffer⟩ := release_of_gives hall
      exact ⟨stopped, p, ⟨by rwa [if_pos hsignaled], hrelease⟩, hended, hbuffer⟩
    case isFalse hsignaled =>
      obtain ⟨hrelease, hbuffer⟩ := release_of_gives hall
      exact ⟨driven, p, ⟨by rw [if_neg hsignaled], hrelease⟩, hended, hbuffer⟩

end Action

end ShellEngine
